/-
# What a reader makes of a rendered line

Every consumer of the router's log anchors a token outside the quoted values by counting the double
quotes before it.  `logFields` keeps that count honest whatever its values hold: a value is
flattened to one line, and quoted whole where it could run on, its own quotes made single.

`fields_unforgeable`: the line holds no control character and no white space but the space, its
quotes pair off, the words that stand outside quotes are one for each field that is shown, and
`readFields` gives back each field's key and its value as a reader sees it.
-/
import BasecradleRouter.Logfmt
import BasecradleRouter.Lib.QuoteParity

namespace BasecradleRouter.Logfmt

open BasecradleRouter.Lib BasecradleRouter.Lib.PyStr BasecradleRouter.Lib.QuoteParity

/-! ## 1. Values -/

/-- A character that keeps a line one line. -/
def Flat (c : Char) : Prop := isControl c = false ∧ (isSpace c = true → c = ' ')

/-- A key whose characters are no white space, no control characters, no quotes and no `=`;
every identifier is one. -/
def Plain (key : String) : Prop := ∀ c ∈ key.toList,
  isSpace c = false ∧ isControl c = false ∧ c ≠ '"' ∧ c ≠ '='

/-- A value as a reader sees it: flattened, its quotes made single. -/
def readable (v : Value) : List Char :=
  (flatten v.text.toList).map fun c => if c = '"' then '\'' else c

/-- Whether a field is shown at all. -/
def shown (pair : String × Value) : Bool :=
  pair.2 != .none && !(flatten pair.2.text.toList).isEmpty

theorem flat_flatten {text : List Char} {c : Char} (h : c ∈ flatten text) : Flat c := by
  rcases mem_join h with hsep | ⟨word, hword, hc⟩
  · rw [List.mem_singleton.mp hsep]
    exact ⟨by decide, fun _ => rfl⟩
  · obtain ⟨hmem, hspace⟩ := mem_split hword hc
    obtain ⟨d, -, rfl⟩ := List.mem_map.mp hmem
    cases hd : isControl d with
    | true =>
      rw [if_pos hd] at hspace
      exact absurd hspace (by decide)
    | false =>
      rw [if_neg (by simp [hd])] at hspace ⊢
      exact ⟨hd, fun h => by simp [hspace] at h⟩

/-- A text is flattened to nothing exactly if it is white space and control characters. -/
theorem flatten_eq_nil {text : List Char} :
    flatten text = [] ↔ ∀ c ∈ text, isSpace c = true ∨ isControl c = true := by
  rw [flatten, join_split_eq_nil, List.forall_mem_map]
  refine forall₂_congr fun c _ => ?_
  have hspace : isSpace ' ' = true := by decide
  split
  · next hcontrol => simp [hcontrol, hspace]
  · next hcontrol => simp [hcontrol]

theorem flat_readable {v : Value} {c : Char} (h : c ∈ readable v) : Flat c := by
  obtain ⟨d, hd, rfl⟩ := List.mem_map.mp h
  split
  · exact ⟨by decide, fun h => absurd h (by decide)⟩
  · exact flat_flatten hd

theorem quote_not_mem_readable (v : Value) : ∀ c ∈ readable v, c ≠ '"' := by
  intro c h
  obtain ⟨d, -, rfl⟩ := List.mem_map.mp h
  split
  · decide
  · assumption

/-- A value stands quoted, or holds nothing that needs it. -/
theorem renderValue_cases (v : Value) :
    (renderValue v = readable v ∧ ∀ c ∈ readable v, Bare c ∧ c ≠ '=') ∨
      renderValue v = '"' :: (readable v ++ ['"']) := by
  unfold renderValue quote
  split
  · exact Or.inr rfl
  · next hplain =>
    simp only [Bool.or_eq_true, List.contains_iff_mem, not_or] at hplain
    obtain ⟨⟨hspace, hequals⟩, hquote⟩ := hplain
    have hself : readable v = flatten v.text.toList := by
      unfold readable
      conv_rhs => rw [← List.map_id (flatten v.text.toList)]
      refine List.map_congr_left fun c hc => if_neg ?_
      rintro rfl
      exact hquote hc
    refine Or.inl ⟨hself.symm, ?_⟩
    intro c hc
    refine ⟨⟨?_, quote_not_mem_readable v c hc⟩, ?_⟩
    · cases hcs : isSpace c with
      | false => rfl
      | true =>
        rw [(flat_readable hc).2 hcs, hself] at hc
        exact absurd hc hspace
    · rintro rfl
      rw [hself] at hc
      exact hequals hc

/-! ## 2. The tokens of a line -/

/-- A field's token. -/
def token (pair : String × Value) : List Char := pair.1.toList ++ '=' :: renderValue pair.2

theorem field_eq (pair : String × Value) :
    field pair = if shown pair then some (token pair) else none := by
  obtain ⟨key, v⟩ := pair
  have hempty : (renderValue v).isEmpty = (flatten v.text.toList).isEmpty := by
    unfold renderValue quote
    split
    · next hquoted =>
      cases hflat : flatten v.text.toList with
      | nil =>
        rw [hflat] at hquoted
        exact absurd hquoted (by decide)
      | cons c cs => rfl
    · rfl
  unfold field shown token
  cases v with
  | none => rfl
  | _ =>
    simp only [hempty]
    split
    · next h => simp [h]
    · next h => simp [h]

/-- A line is the tokens of the fields that are shown, joined by spaces. -/
theorem logFields_eq (pairs : List (String × Value)) :
    (logFields pairs).toList = join [' '] ((pairs.filter shown).map token) := by
  have hfields : pairs.filterMap field = (pairs.filter shown).map token := by
    induction pairs with
    | nil => rfl
    | cons pair pairs ih =>
      rw [List.filterMap_cons, field_eq, List.filter_cons]
      split
      · next h =>
        split at h
        · cases h
        · next hshown =>
          rw [if_neg hshown]
          exact ih
      · next h =>
        split at h
        · next hshown =>
          cases h
          rw [if_pos hshown, List.map_cons, ih]
        · cases h
  unfold logFields
  rw [String.toList_ofList, hfields]

/-- The tokens one after another: the first, and the rest behind a space. -/
theorem join_cons (w : List Char) (words : List (List Char)) :
    ∃ rest, join [' '] (w :: words) = w ++ rest ∧
      (words = [] ∧ rest = [] ∨ words ≠ [] ∧ rest = ' ' :: join [' '] words) := by
  cases words with
  | nil => exact ⟨[], by simp [join], Or.inl ⟨rfl, rfl⟩⟩
  | cons w' words =>
    exact ⟨' ' :: join [' '] (w' :: words), by simp [join],
      Or.inr ⟨List.cons_ne_nil w' words, rfl⟩⟩

/-- What comes after a token, in either case, may follow a word. -/
theorem closed_of_join {words : List (List Char)} {rest : List Char}
    (h : words = [] ∧ rest = [] ∨ words ≠ [] ∧ rest = ' ' :: join [' '] words) : Closed rest := by
  rcases h with ⟨-, hnil⟩ | ⟨-, hspace⟩
  · exact Or.inl hnil
  · exact Or.inr ⟨_, hspace⟩

/-! ## 3. One line -/

theorem flat_token {pair : String × Value} (hkey : Plain pair.1) {c : Char} (h : c ∈ token pair) :
    Flat c := by
  rcases List.mem_append.mp h with hc | hc
  · obtain ⟨hspace, hcontrol, -, -⟩ := hkey c hc
    exact ⟨hcontrol, fun hc => absurd hc (by simp [hspace])⟩
  · have hquote : Flat '"' := ⟨by decide, fun h => absurd h (by decide)⟩
    rcases List.mem_cons.mp hc with rfl | hc
    · exact ⟨by decide, fun h => absurd h (by decide)⟩
    · rcases renderValue_cases pair.2 with ⟨hbare, -⟩ | hquoted
      · rw [hbare] at hc
        exact flat_readable hc
      · rw [hquoted, List.mem_cons, List.mem_append, List.mem_singleton] at hc
        rcases hc with rfl | hc | rfl
        · exact hquote
        · exact flat_readable hc
        · exact hquote

theorem flat_join {pairs : List (String × Value)} (hkeys : ∀ pair ∈ pairs, Plain pair.1)
    {c : Char} (h : c ∈ join [' '] (pairs.map token)) : Flat c := by
  rcases mem_join h with hsep | ⟨w, hw, hc⟩
  · rw [List.mem_singleton.mp hsep]
    exact ⟨by decide, fun _ => rfl⟩
  · obtain ⟨pair, hpair, rfl⟩ := List.mem_map.mp hw
    exact flat_token (hkeys pair hpair) hc

/-! ## 4. Quotes pair off -/

theorem count_eq_zero {cs : List Char} (h : ∀ c ∈ cs, c ≠ '"') : cs.count '"' = 0 :=
  List.count_eq_zero.mpr fun hmem => h '"' hmem rfl

theorem even_count_token {pair : String × Value} (hkey : Plain pair.1) :
    Even ((token pair).count '"') := by
  have hkey' : pair.1.toList.count '"' = 0 := count_eq_zero fun c hc => (hkey c hc).2.2.1
  have hvalue : (readable pair.2).count '"' = 0 := count_eq_zero (quote_not_mem_readable pair.2)
  rcases renderValue_cases pair.2 with ⟨hbare, -⟩ | hquoted
  · have hcount : (token pair).count '"' = 0 := by simp [token, hbare, hkey', hvalue]
    rw [hcount]
    exact ⟨0, rfl⟩
  · have hcount : (token pair).count '"' = 2 := by simp [token, hquoted, hkey', hvalue]
    rw [hcount]
    exact ⟨1, rfl⟩

theorem even_count_join {pairs : List (String × Value)} (hkeys : ∀ pair ∈ pairs, Plain pair.1) :
    Even ((join [' '] (pairs.map token)).count '"') := by
  induction pairs with
  | nil => exact ⟨0, rfl⟩
  | cons pair pairs ih =>
    obtain ⟨hkey, hrest⟩ := List.forall_mem_cons.mp hkeys
    obtain ⟨rest, hjoin, hcases⟩ := join_cons (token pair) (pairs.map token)
    rw [List.map_cons, hjoin, List.count_append]
    refine (even_count_token hkey).add ?_
    rcases hcases with ⟨-, rfl⟩ | ⟨-, rfl⟩
    · exact ⟨0, rfl⟩
    · rw [List.count_cons_of_ne (by decide)]
      exact ih hrest

/-! ## 5. The words outside quotes -/

/-- A token begins with its key and `=`. -/
def Begins (pair : String × Value) (word : List Char) : Prop := pair.1.toList ++ ['='] <+: word

theorem scan_token {pair : String × Value} (hkey : Plain pair.1) {quotes : ℕ} (heven : Even quotes)
    {rest : List Char} (hrest : Closed rest) :
    ∃ word quotes', Begins pair word ∧ Even quotes' ∧
      scan quotes none (token pair ++ rest) = word :: scan quotes' none rest := by
  have hhead : ∀ c ∈ pair.1.toList ++ ['='], Bare c := by
    intro c hc
    rcases List.mem_append.mp hc with hc | hc
    · exact ⟨(hkey c hc).1, (hkey c hc).2.2.1⟩
    · rw [List.mem_singleton.mp hc]
      exact ⟨by decide, by decide⟩
  rcases renderValue_cases pair.2 with ⟨hbare, hvalue⟩ | hquoted
  · have htoken : token pair = (pair.1.toList ++ ['=']) ++ readable pair.2 := by
      simp [token, hbare]
    refine ⟨token pair, quotes, ?_, heven, ?_⟩
    · rw [htoken]
      exact List.prefix_append _ _
    · refine scan_bare (by simp [token]) ?_ hrest heven
      intro c hc
      rw [htoken] at hc
      rcases List.mem_append.mp hc with hc | hc
      · exact hhead c hc
      · exact (hvalue c hc).1
  · have htoken : token pair ++ rest =
        (pair.1.toList ++ ['=']) ++ '"' :: (readable pair.2 ++ '"' :: rest) := by
      simp [token, hquoted]
    obtain ⟨suffix, hscan⟩ := scan_quoted (by simp) hhead (quote_not_mem_readable pair.2) hrest
      heven
    refine ⟨_, quotes + 2, List.prefix_append _ suffix, heven.add (by decide), ?_⟩
    rw [htoken]
    exact hscan

theorem scan_join {pairs : List (String × Value)} (hkeys : ∀ pair ∈ pairs, Plain pair.1)
    {quotes : ℕ} (heven : Even quotes) :
    List.Forall₂ Begins pairs (scan quotes none (join [' '] (pairs.map token))) := by
  induction pairs generalizing quotes with
  | nil => exact List.Forall₂.nil
  | cons pair pairs ih =>
    obtain ⟨hkey, hrest⟩ := List.forall_mem_cons.mp hkeys
    obtain ⟨rest, hjoin, hcases⟩ := join_cons (token pair) (pairs.map token)
    obtain ⟨word, quotes', hbegins, heven', hscan⟩ :=
      scan_token hkey heven (closed_of_join hcases)
    rw [List.map_cons, hjoin, hscan]
    refine List.Forall₂.cons hbegins ?_
    have hih := ih hrest heven'
    rcases hcases with ⟨hnil, rfl⟩ | ⟨-, rfl⟩
    · rw [hnil] at hih
      exact hih
    · -- the space before the next token ends no word
      have hspace : isSpace ' ' = true := by decide
      rw [scan, if_pos hspace]
      exact hih

/-! ## 6. A reader -/

/-- Where a reader stands in a line: in a key, right behind its `=`, in a value that is not quoted
or in one that is, or behind a quoted one.  What was read is kept in reverse. -/
inductive Reading
  | key (k : List Char)
  | opening (k : List Char)
  | bare (k v : List Char)
  | quoted (k v : List Char)
  | closed

/-- The fields a reader makes out from where it stands. -/
def readFrom : Reading → List Char → List (List Char × List Char)
  | .key _, [] => []
  | .closed, [] => []
  | .opening k, [] => [(k.reverse, [])]
  | .bare k v, [] => [(k.reverse, v.reverse)]
  | .quoted k v, [] => [(k.reverse, v.reverse)]
  | .key k, c :: cs =>
    if c = '=' then readFrom (.opening k) cs else readFrom (.key (c :: k)) cs
  | .opening k, c :: cs =>
    if c = '"' then readFrom (.quoted k []) cs else readFrom (.bare k [c]) cs
  | .bare k v, c :: cs =>
    if c = ' ' then (k.reverse, v.reverse) :: readFrom (.key []) cs
    else readFrom (.bare k (c :: v)) cs
  | .quoted k v, c :: cs =>
    if c = '"' then (k.reverse, v.reverse) :: readFrom .closed cs
    else readFrom (.quoted k (c :: v)) cs
  | .closed, _ :: cs => readFrom (.key []) cs

/-- Each field of a line, with its value unquoted. -/
def readFields (line : List Char) : List (List Char × List Char) := readFrom (.key []) line

theorem readFrom_key {key : List Char} (h : ∀ c ∈ key, c ≠ '=') (k cs : List Char) :
    readFrom (.key k) (key ++ '=' :: cs) = readFrom (.opening (key.reverse ++ k)) cs := by
  induction key generalizing k with
  | nil => rfl
  | cons c key ih =>
    obtain ⟨hc, hkey⟩ := List.forall_mem_cons.mp h
    rw [List.cons_append, readFrom, if_neg hc, ih hkey]
    simp

theorem readFrom_quoted {body : List Char} (h : ∀ c ∈ body, c ≠ '"') (k v cs : List Char) :
    readFrom (.quoted k v) (body ++ '"' :: cs) =
      (k.reverse, v.reverse ++ body) :: readFrom .closed cs := by
  induction body generalizing v with
  | nil => simp [readFrom]
  | cons c body ih =>
    obtain ⟨hc, hbody⟩ := List.forall_mem_cons.mp h
    rw [List.cons_append, readFrom, if_neg hc, ih hbody]
    simp

/-- What follows a token is read for itself. -/
theorem readFrom_bare {body rest : List Char} (h : ∀ c ∈ body, c ≠ ' ') (hrest : Closed rest)
    (k v : List Char) : readFrom (.bare k v) (body ++ rest) =
      (k.reverse, v.reverse ++ body) :: readFrom .closed rest := by
  induction body generalizing v with
  | nil =>
    rcases hrest with rfl | ⟨more, rfl⟩
    · simp [readFrom]
    · simp [readFrom]
  | cons c body ih =>
    obtain ⟨hc, hbody⟩ := List.forall_mem_cons.mp h
    rw [List.cons_append, readFrom, if_neg hc, ih hbody]
    simp

theorem readFrom_token {pair : String × Value} (hkey : Plain pair.1) (hshown : shown pair = true)
    {rest : List Char} (hrest : Closed rest) :
    readFields (token pair ++ rest) =
      (pair.1.toList, readable pair.2) :: readFrom .closed rest := by
  have hequals : ∀ c ∈ pair.1.toList, c ≠ '=' := fun c hc => (hkey c hc).2.2.2
  have htoken : token pair ++ rest = pair.1.toList ++ '=' :: (renderValue pair.2 ++ rest) := by
    simp [token]
  rw [readFields, htoken, readFrom_key hequals, List.append_nil]
  rcases renderValue_cases pair.2 with ⟨hbare, hvalue⟩ | hquoted
  · rw [hbare]
    cases hread : readable pair.2 with
    | nil =>
      -- a field that is shown has a value
      have hflat : flatten pair.2.text.toList = [] := by simpa [readable] using hread
      simp [shown, hflat] at hshown
    | cons c cs =>
      rw [hread] at hvalue
      obtain ⟨hc, hcs⟩ := List.forall_mem_cons.mp hvalue
      have hspace : ∀ d ∈ cs, d ≠ ' ' := by
        rintro d hd rfl
        exact absurd (hcs _ hd).1.1 (by decide)
      rw [List.cons_append, readFrom, if_neg hc.1.2, readFrom_bare hspace hrest]
      simp
  · have hrendered : renderValue pair.2 ++ rest = '"' :: (readable pair.2 ++ '"' :: rest) := by
      simp [hquoted]
    rw [hrendered, readFrom, if_pos rfl, readFrom_quoted (quote_not_mem_readable pair.2)]
    simp

theorem readFields_join {pairs : List (String × Value)} (hkeys : ∀ pair ∈ pairs, Plain pair.1)
    (hshown : ∀ pair ∈ pairs, shown pair = true) :
    readFields (join [' '] (pairs.map token)) =
      pairs.map fun pair => (pair.1.toList, readable pair.2) := by
  induction pairs with
  | nil => rfl
  | cons pair pairs ih =>
    obtain ⟨hkey, hkeys⟩ := List.forall_mem_cons.mp hkeys
    obtain ⟨hpair, hshown⟩ := List.forall_mem_cons.mp hshown
    obtain ⟨rest, hjoin, hcases⟩ := join_cons (token pair) (pairs.map token)
    rw [List.map_cons, hjoin, readFrom_token hkey hpair (closed_of_join hcases), List.map_cons]
    refine congrArg _ ?_
    have hih := ih hkeys hshown
    rcases hcases with ⟨hnil, rfl⟩ | ⟨-, rfl⟩
    · rw [hnil] at hih
      exact hih
    · exact hih

/-! ## 7. A line cannot be forged -/

/-- **The fields of a line cannot be forged.**  Whatever the values hold, the line is one line and
holds no control character, its quotes pair off, the words outside quotes are one for each field
shown, in order, each with that field's key, and a reader has each value back. -/
theorem fields_unforgeable (pairs : List (String × Value)) (hkeys : ∀ pair ∈ pairs, Plain pair.1) :
    (∀ c ∈ (logFields pairs).toList, isControl c = false ∧ (isSpace c = true → c = ' ')) ∧
      Even ((logFields pairs).toList.count '"') ∧
      List.Forall₂ (fun pair word => pair.1.toList ++ ['='] <+: word) (pairs.filter shown)
        (outsideQuotes (logFields pairs).toList) ∧
      readFields (logFields pairs).toList =
        (pairs.filter shown).map fun pair => (pair.1.toList, readable pair.2) := by
  have hplain : ∀ pair ∈ pairs.filter shown, Plain pair.1 :=
    fun pair h => hkeys pair (List.mem_filter.mp h).1
  have hshown : ∀ pair ∈ pairs.filter shown, shown pair = true :=
    fun pair h => (List.mem_filter.mp h).2
  rw [logFields_eq]
  exact ⟨fun c hc => flat_join hplain hc, even_count_join hplain, scan_join hplain (by decide),
    readFields_join hplain hshown⟩

/-- An error that quotes the line's own grammar. -/
def forgedError : List (String × Value) :=
  [("delivery", Value.str "d"), ("error", Value.str "said \" outcome=failed")]

theorem plain_forgedError : ∀ pair ∈ forgedError, Plain pair.1 := by
  have hdelivery : Plain "delivery" := by
    simp [Plain, isControl, isSpace]
  have herror : Plain "error" := by
    simp [Plain, isControl, isSpace]
  simp [forgedError, hdelivery, herror]

theorem fields_unforgeable_error :
    readFields (logFields forgedError).toList =
      (forgedError.filter shown).map fun pair => (pair.1.toList, readable pair.2) :=
  (fields_unforgeable forgedError plain_forgedError).2.2.2

example : (outsideQuotes (logFields forgedError).toList).map String.ofList =
    ["delivery=d", "error=\"said"] := by decide +kernel

end BasecradleRouter.Logfmt
