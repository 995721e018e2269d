/-
# The lines a stop writes

Both lines of a stop are rendered by a `fields` of the program's own, which its docstring calls the
router's line grammar.  It quotes a value as JSON, so that a double quote within it stands behind a
backslash.  A reader that counts double quotes knows no backslash: behind such a quote the value's
words stand outside, and what follows it stands inside.

`readAlike_iff`: a run is read as the router's own rendering of the same pairs is exactly if each
value is dropped by both renderers or by neither, and pairs off its quotes before each of its spaces
and at its end.
-/
import BasecradleRouter.Lib.JsonString
import BasecradleRouter.Lib.TokenLine
import BasecradleRouter.Logfmt.Reading
import BasecradleRouter.StopWake

namespace BasecradleRouter.StopWake

open BasecradleRouter.Lib BasecradleRouter.Lib.PyStr BasecradleRouter.Lib.QuoteParity
open BasecradleRouter.Logfmt (Value Plain logFields isControl)

/-! ## 1. The renderer -/

/-- `str(value)` -/
def str : Value → String
  | .none => "None"
  | .bool b => if b then "True" else "False"
  | .int i => toString i
  | .str s => s

/-- A value's text, as JSON where it holds white space or a double quote. -/
def renderText (text : List Char) : List Char :=
  if text.any isSpace || text.contains '"' then JsonString.dumps text else text

/-- One pair's token, absent where the value is `None` or empty. -/
def fieldToken (pair : String × Value) : Option (List Char) :=
  if pair.2 = .none ∨ pair.2 = .str "" then none
  else some (pair.1.toList ++ '=' :: renderText (str pair.2).toList)

/-- `fields(**pairs)` -/
def fields (pairs : List (String × Value)) : String :=
  String.ofList (join [' '] (pairs.filterMap fieldToken))

/-! ## 2. How it is read -/

/-- A key with a string. -/
def strings (pairs : List (String × String)) : List (String × Value) :=
  pairs.map fun pair => (pair.1, .str pair.2)

/-- The pairs that are not empty. -/
def filled (pairs : List (String × String)) : List (String × String) := pairs.filter (·.2 ≠ "")

/-- A pair's token. -/
def token (pair : String × String) : List Char := pair.1.toList ++ '=' :: renderText pair.2.toList

/-- The keys of the words that stand outside quotes. -/
def keysOutside (line : List Char) : List (List Char) :=
  (outsideQuotes line).map fun word => word.takeWhile (· ≠ '=')

/-- Stop-wake's run is read as the router's rendering of the same pairs is. -/
structure ReadAlike (pairs : List (String × String)) : Prop where
  one_line : ∀ c ∈ (fields (strings pairs)).toList, isSpace c = true → c = ' '
  even_quotes : Even ((fields (strings pairs)).toList.count '"')
  /-- The words outside quotes begin where the tokens do: none is introduced by a value. -/
  own_words : starts (fields (strings pairs)).toList = offsets 0 ((filled pairs).map token)
  one_token_each : List.Forall₂ (fun pair word => pair.1.toList ++ ['='] <+: word) (filled pairs)
    (outsideQuotes (fields (strings pairs)).toList)
  as_router : keysOutside (fields (strings pairs)).toList =
    keysOutside (logFields (strings pairs)).toList

/-- A value that is empty, or holds something to be seen and pairs off its quotes before each of its
spaces and at its end. -/
def Kept (value : String) : Prop :=
  value = "" ∨ (∃ c ∈ value.toList, isSpace c = false ∧ isControl c = false) ∧
    ∀ before after, value.toList = before ++ after → Closed after → Even (before.count '"')

theorem fields_eq (pairs : List (String × String)) :
    (fields (strings pairs)).toList = join [' '] ((filled pairs).map token) := by
  have htokens : (strings pairs).filterMap fieldToken = (filled pairs).map token := by
    induction pairs with
    | nil => rfl
    | cons pair pairs ih =>
      have hcons : strings (pair :: pairs) = (pair.1, .str pair.2) :: strings pairs := rfl
      rw [hcons, List.filterMap_cons, ih, fieldToken]
      by_cases hempty : pair.2 = ""
      · simp [hempty, filled]
      · simp [hempty, filled, token, str]
  rw [fields, String.toList_ofList, htokens]

/-! ## 3. A token -/

/-- A value stands as JSON, or holds neither white space nor a quote. -/
theorem renderText_cases (text : List Char) :
    (renderText text = text ∧ ∀ c ∈ text, Bare c) ∨
      renderText text = '"' :: (JsonString.escapeAll text ++ ['"']) := by
  unfold renderText
  split
  · exact Or.inr rfl
  · next hbare =>
    simp only [Bool.or_eq_true, List.any_eq_true, List.contains_iff_mem, not_or, not_exists,
      not_and] at hbare
    refine Or.inl ⟨rfl, fun c hc => ⟨eq_false_of_ne_true (hbare.1 c hc), ?_⟩⟩
    rintro rfl
    exact hbare.2 hc

/-- A printable character is white space only as the space. -/
theorem eq_space_of_printable {c : Char} (hc : JsonString.printable c = true)
    (hspace : isSpace c = true) : c = ' ' := by
  simp only [JsonString.printable, Bool.and_eq_true, decide_eq_true_eq] at hc
  simp only [isSpace, Bool.or_eq_true, Bool.and_eq_true, decide_eq_true_eq, beq_iff_eq] at hspace
  have hnat : c.toNat = ' '.toNat := by
    have h32 : ' '.toNat = 32 := rfl
    omega
  exact Char.toNat_inj.mp hnat

/-- The characters before a value are bare. -/
theorem bare_head {key : String} (hkey : Plain key) : ∀ c ∈ key.toList ++ ['='], Bare c := by
  intro c hc
  rcases List.mem_append.mp hc with hc | hc
  · exact ⟨(hkey c hc).1, (hkey c hc).2.2.1⟩
  · rw [List.mem_singleton.mp hc]
    exact ⟨by decide, by decide⟩

theorem token_eq (pair : String × String) :
    token pair = (pair.1.toList ++ ['=']) ++ renderText pair.2.toList := by
  simp [token]

theorem trimmed_token {pair : String × String} (hkey : Plain pair.1) (hfilled : pair.2 ≠ "") :
    Trimmed (token pair) := by
  have hquote : isSpace '"' = false := by decide
  refine ⟨?_, ?_, ?_⟩
  · have hne : pair.1.toList ++ ['='] ≠ [] := by simp
    obtain ⟨c, cs, hhead⟩ := List.exists_cons_of_ne_nil hne
    refine ⟨c, cs ++ renderText pair.2.toList, by rw [token_eq, hhead]; rfl, ?_⟩
    exact (bare_head hkey c (by rw [hhead]; exact List.mem_cons_self)).1
  · rcases renderText_cases pair.2.toList with ⟨hself, hbare⟩ | hquoted
    · have hne : pair.2.toList ≠ [] := by
        intro h
        exact hfilled (String.toList_inj.mp h)
      refine ⟨(pair.1.toList ++ ['=']) ++ pair.2.toList.dropLast, pair.2.toList.getLast hne, ?_,
        (hbare _ (List.getLast_mem hne)).1⟩
      rw [token_eq, hself, List.append_assoc (pair.1.toList ++ ['=']), List.dropLast_concat_getLast]
    · refine ⟨(pair.1.toList ++ ['=']) ++ '"' :: JsonString.escapeAll pair.2.toList, '"', ?_,
        hquote⟩
      rw [token_eq, hquoted]
      simp
  · intro c hc hspace
    rw [token_eq, List.mem_append] at hc
    rcases hc with hc | hc
    · rw [(bare_head hkey c hc).1] at hspace
      cases hspace
    · rcases renderText_cases pair.2.toList with ⟨hself, hbare⟩ | hquoted
      · rw [hself] at hc
        rw [(hbare c hc).1] at hspace
        cases hspace
      · rw [hquoted, List.mem_cons, List.mem_append, List.mem_singleton] at hc
        rcases hc with rfl | hc | rfl
        · rw [hquote] at hspace
          cases hspace
        · exact eq_space_of_printable (JsonString.printable_of_mem_escapeAll hc) hspace
        · rw [hquote] at hspace
          cases hspace

/-- A token keeps its words and its quotes to itself exactly if its value does. -/
theorem held_token {pair : String × String} (hkey : Plain pair.1) :
    (Held (token pair) ∧ Even ((token pair).count '"')) ↔
      ∀ before after, pair.2.toList = before ++ after → Closed after → Even (before.count '"') := by
  have hhead : (pair.1.toList ++ ['=']).count '"' = 0 :=
    List.count_eq_zero.mpr fun hmem => (bare_head hkey '"' hmem).2 rfl
  rcases renderText_cases pair.2.toList with ⟨hself, hbare⟩ | hquoted
  · have hnone : ∀ before after, pair.2.toList = before ++ after → before.count '"' = 0 := by
      intro before after h
      refine List.count_eq_zero.mpr fun hmem => (hbare '"' ?_).2 rfl
      rw [h]
      exact List.mem_append_left after hmem
    rw [token_eq, hself]
    constructor
    · intro _ before after h _
      rw [hnone before after h]
      exact Even.zero
    · intro _
      refine ⟨fun before after h => ?_, ?_⟩
      · have hmem : ' ' ∈ (pair.1.toList ++ ['=']) ++ pair.2.toList := by
          rw [h]
          simp
        rcases List.mem_append.mp hmem with hmem | hmem
        · exact absurd (bare_head hkey ' ' hmem).1 (by decide)
        · exact absurd (hbare ' ' hmem).1 (by decide)
      · rw [List.count_append, hhead, hnone pair.2.toList [] (by simp)]
        exact Even.zero
  · have hcount : (token pair).count '"' = pair.2.toList.count '"' + 2 := by
      rw [token_eq, hquoted, List.count_append, hhead, List.count_cons_self, List.count_append,
        JsonString.count_escapeAll]
      simp
    rw [hcount, token_eq, hquoted, held_quoted (bare_head hkey)]
    constructor
    · rintro ⟨hspaces, htotal⟩ before after h hclosed
      rcases hclosed with rfl | ⟨more, rfl⟩
      · rw [List.append_nil] at h
        rw [← h]
        exact (Nat.even_add.mp htotal).mpr (by decide)
      · have hsplit : JsonString.escapeAll pair.2.toList =
            JsonString.escapeAll before ++ ' ' :: JsonString.escapeAll more := by
          rw [h]
          simp [JsonString.escapeAll, JsonString.escape_space]
        have heven := hspaces _ _ hsplit
        rwa [JsonString.count_escapeAll] at heven
    · intro hkept
      refine ⟨fun before after h => ?_, ?_⟩
      · obtain ⟨pre, post, hvalue, rfl, -⟩ := JsonString.escapeAll_split h
        rw [JsonString.count_escapeAll]
        exact hkept pre _ hvalue (Or.inr ⟨post, rfl⟩)
      · have heven := hkept pair.2.toList [] (by simp) (Or.inl rfl)
        exact heven.add (by decide)

/-! ## 4. Both renderers -/

/-- A word that begins with a key and `=` has that key. -/
theorem takeWhile_begins {key : String} (hkey : Plain key) {word : List Char}
    (h : key.toList ++ ['='] <+: word) : word.takeWhile (· ≠ '=') = key.toList := by
  obtain ⟨rest, rfl⟩ := h
  have hplain : ∀ c ∈ key.toList, decide (c ≠ '=') = true := fun c hc => by
    simpa using (hkey c hc).2.2.2
  rw [List.append_assoc, List.takeWhile_append_of_pos hplain]
  simp

/-- The keys outside quotes, where the words begin with those of the pairs. -/
theorem keys_of_begins {α : Type} {key : α → String} {pairs : List α} {words : List (List Char)}
    (hkeys : ∀ pair ∈ pairs, Plain (key pair))
    (h : List.Forall₂ (fun pair word => (key pair).toList ++ ['='] <+: word) pairs words) :
    words.map (fun word => word.takeWhile (· ≠ '=')) = pairs.map fun pair => (key pair).toList := by
  induction h with
  | nil => rfl
  | cons hbegins _ ih =>
    obtain ⟨hkey, hrest⟩ := List.forall_mem_cons.mp hkeys
    rw [List.map_cons, List.map_cons, takeWhile_begins hkey hbegins, ih hrest]

/-- The words of a run whose tokens keep to themselves begin with its keys. -/
theorem begins_of_starts {pairs : List (String × String)} (hkeys : ∀ pair ∈ pairs, Plain pair.1)
    (h : starts (join [' '] (pairs.map token)) = offsets 0 (pairs.map token)) :
    List.Forall₂ (fun pair word => pair.1.toList ++ ['='] <+: word) pairs
      (outsideQuotes (join [' '] (pairs.map token))) := by
  have hwords := map_wordAt_offsets [] (pairs.map token)
  rw [List.nil_append, List.length_nil, ← h, ← outsideQuotes_eq_starts, List.map_map] at hwords
  rw [hwords, List.forall₂_map_right_iff, List.forall₂_same]
  intro pair hpair
  have hbare : ∀ c ∈ pair.1.toList ++ ['='], (!isSpace c) = true := fun c hc => by
    rw [(bare_head (hkeys pair hpair) c hc).1]
    rfl
  rw [Function.comp_apply, token_eq, List.takeWhile_append_of_pos hbare]
  exact List.prefix_append _ _

theorem keysOutside_logFields {pairs : List (String × String)}
    (hkeys : ∀ pair ∈ pairs, Plain pair.1) : keysOutside (logFields (strings pairs)).toList =
      ((strings pairs).filter Logfmt.shown).map fun pair => pair.1.toList := by
  have hplain : ∀ pair ∈ (strings pairs).filter Logfmt.shown, Plain pair.1 := by
    intro pair hpair
    obtain ⟨source, hsource, rfl⟩ := List.mem_map.mp (List.mem_filter.mp hpair).1
    exact hkeys source hsource
  rw [keysOutside, Logfmt.logFields_eq]
  exact keys_of_begins hplain (Logfmt.scan_join hplain (by decide))

/-- What the router shows of a pair: a value with something to be seen. -/
def seen (pair : String × String) : Bool := pair.2.toList.any fun c => !isSpace c && !isControl c

theorem seen_iff {pair : String × String} :
    seen pair = true ↔ ∃ c ∈ pair.2.toList, isSpace c = false ∧ isControl c = false := by
  simp [seen]

theorem filter_shown (pairs : List (String × String)) :
    (strings pairs).filter Logfmt.shown = strings ((filled pairs).filter seen) := by
  have hshown : ∀ pair : String × String, Logfmt.shown (pair.1, Value.str pair.2) = seen pair := by
    intro pair
    rw [Bool.eq_iff_iff, seen_iff]
    simp [Logfmt.shown, Logfmt.flatten_eq_nil, Logfmt.Value.text]
  have hfilled : ∀ pair : String × String, seen pair = true → pair.2 ≠ "" := by
    rintro ⟨key, value⟩ hseen rfl
    exact absurd hseen (by simp [seen])
  rw [strings, List.filter_map, filled, List.filter_filter, strings]
  refine congrArg _ (List.filter_congr fun pair _ => ?_)
  rw [Function.comp_apply, hshown]
  cases hseen : seen pair with
  | false => rfl
  | true => simp [hfilled pair hseen]

/-- **Stop-wake's lines are read as the router's are** exactly if each value is empty, or holds
something to be seen and pairs off its quotes before each of its spaces and at its end. -/
theorem readAlike_iff (pairs : List (String × String)) (hkeys : ∀ pair ∈ pairs, Plain pair.1) :
    ReadAlike pairs ↔ ∀ pair ∈ pairs, Kept pair.2 := by
  have hplain : ∀ pair ∈ filled pairs, Plain pair.1 :=
    fun pair hpair => hkeys pair (List.mem_filter.mp hpair).1
  have hne : ∀ pair ∈ filled pairs, pair.2 ≠ "" :=
    fun pair hpair => of_decide_eq_true (List.mem_filter.mp hpair).2
  have htrimmed : ∀ t ∈ (filled pairs).map token, Trimmed t := by
    intro t ht
    obtain ⟨pair, hpair, rfl⟩ := List.mem_map.mp ht
    exact trimmed_token (hplain pair hpair) (hne pair hpair)
  have hparity := starts_join_iff htrimmed
  have hkept : (∀ t ∈ (filled pairs).map token, Held t ∧ Even (t.count '"')) ↔
      ∀ pair ∈ filled pairs, ∀ before after, pair.2.toList = before ++ after → Closed after →
        Even (before.count '"') := by
    rw [List.forall_mem_map]
    exact forall₂_congr fun pair hpair => held_token (hplain pair hpair)
  rw [hkept] at hparity
  have hall : (∀ pair ∈ pairs, Kept pair.2) ↔ (∀ pair ∈ filled pairs, seen pair = true) ∧
      ∀ pair ∈ filled pairs, ∀ before after, pair.2.toList = before ++ after → Closed after →
        Even (before.count '"') := by
    rw [← forall₂_and]
    constructor
    · intro h pair hpair
      rcases h pair (List.mem_filter.mp hpair).1 with hempty | ⟨hseen, hquotes⟩
      · exact absurd hempty (hne pair hpair)
      · exact ⟨seen_iff.mpr hseen, hquotes⟩
    · intro h pair hpair
      by_cases hempty : pair.2 = ""
      · exact Or.inl hempty
      · obtain ⟨hseen, hquotes⟩ := h pair (List.mem_filter.mpr ⟨hpair, decide_eq_true hempty⟩)
        exact Or.inr ⟨seen_iff.mp hseen, hquotes⟩
  have hrouter := keysOutside_logFields hkeys
  rw [filter_shown] at hrouter
  rw [hall]
  constructor
  · intro h
    have hline := h.own_words
    have heven := h.even_quotes
    rw [fields_eq] at hline heven
    refine ⟨?_, hparity.mp ⟨hline, heven⟩⟩
    have hsame := h.as_router
    rw [hrouter, keysOutside, keys_of_begins hplain h.one_token_each] at hsame
    have hlength := congrArg List.length hsame
    rw [List.length_map, List.length_map, strings, List.length_map] at hlength
    exact fun pair hpair => List.length_filter_eq_length_iff.mp hlength.symm pair hpair
  · rintro ⟨hseen, hquotes⟩
    obtain ⟨hline, heven⟩ := hparity.mpr hquotes
    have hbegins := begins_of_starts hplain hline
    have hsame : (filled pairs).filter seen = filled pairs := List.filter_eq_self.mpr hseen
    have hspaces : ∀ c ∈ join [' '] ((filled pairs).map token), isSpace c = true → c = ' ' := by
      intro c hc hspace
      rcases mem_join hc with hsep | ⟨t, ht, hc⟩
      · exact List.mem_singleton.mp hsep
      · exact (htrimmed t ht).spaces c hc hspace
    refine ⟨?_, ?_, ?_, ?_, ?_⟩ <;> rw [fields_eq]
    · exact hspaces
    · exact heven
    · exact hline
    · exact hbegins
    · rw [hrouter, hsame, keysOutside, keys_of_begins hplain hbegins, strings, List.map_map]
      rfl

/-- Without a quote there is nothing to pair off. -/
theorem kept_of_unquoted {value : String} (hseen : seen ("", value) = true)
    (hquote : '"' ∉ value.toList) : Kept value := by
  refine Or.inr ⟨seen_iff.mp hseen, fun before after h _ => ?_⟩
  have hnone : '"' ∉ before := fun hmem => hquote (h ▸ List.mem_append_left after hmem)
  rw [List.count_eq_zero.mpr hnone]
  exact Even.zero

theorem plain_by : Plain "by" := by
  simp [Plain, isControl, isSpace]

/-- Who stopped a wake, by name. -/
theorem readAlike_iff_operator : ReadAlike [("by", "on call")] := by
  refine (readAlike_iff [("by", "on call")] ?_).mpr ?_
  · intro pair hpair
    rw [List.mem_singleton.mp hpair]
    exact plain_by
  · intro pair hpair
    rw [List.mem_singleton.mp hpair]
    exact kept_of_unquoted (by decide) (by decide)

/-- A name that quotes the line's own grammar puts a token of its own outside quotes. -/
theorem not_readAlike_forged :
    (∀ pair ∈ [("by", "a\" outcome=killed \"b")], Plain pair.1) ∧
      outsideQuotes (fields (strings [("by", "a\" outcome=killed \"b")])).toList =
        ["by=\"a\\\"".toList, "outcome=killed".toList, "\\\"b\"".toList] ∧
      ¬ ReadAlike [("by", "a\" outcome=killed \"b")] := by
  refine ⟨fun pair hpair => ?_, by decide +kernel, fun h => ?_⟩
  · rw [List.mem_singleton.mp hpair]
    exact plain_by
  · have hstarts := h.own_words
    revert hstarts
    decide +kernel

end BasecradleRouter.StopWake
