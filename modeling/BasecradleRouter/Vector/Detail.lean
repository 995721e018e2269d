/-
# The bound on a detail cuts no credential

`detail_bounded`: a detail is at most 240 characters, on one line, and either the whole flattened
error text or a beginning of it that no run of credential characters is cut from.  It is left out
only where there is no such beginning, a text that is one run past the bound.  Quoted, it holds no
double quote besides the pair around it.

The flattening is the router's own (`flatten_eq`), though this one squeezes and trims where that one
splits and joins: on what is no control character their white space is the same.  So a failed call's
fields are what the router's own `log_fields` makes of them (`failedFields_eq`).
-/
import BasecradleRouter.Vector

namespace BasecradleRouter.Vector

open BasecradleRouter.Lib BasecradleRouter.Lib.Runs

/-! ## 1. Flattened text -/

/-- On one line: no control character, and no white space but single spaces within. -/
structure Flat (text : List Char) : Prop where
  control : ∀ c ∈ text, Logfmt.isControl c = false
  white : ∀ c ∈ text, isWhitespace c = true → c = ' '
  single : text.IsChain fun c d => ¬ (c = ' ' ∧ d = ' ')
  first : text.head? ≠ some ' '
  last : text.getLast? ≠ some ' '

theorem isWhitespace_space : isWhitespace ' ' = true := by decide

theorem ne_space {c : Char} (h : isWhitespace c = false) : c ≠ ' ' := by
  rintro rfl
  rw [isWhitespace_space] at h
  cases h

theorem flat_flatten (text : List Char) : Flat (flatten text) := by
  have hmem : ∀ c ∈ flatten text, c = ' ' ∨ Logfmt.isControl c = false ∧
      isWhitespace c = false := by
    intro c hc
    rcases mem_squeezeFrom ((trim_within _ _).subset hc) with hspace | ⟨hc, hwhite⟩
    · exact Or.inl hspace
    · obtain ⟨d, -, rfl⟩ := List.mem_map.mp hc
      split
      · exact Or.inl rfl
      · next hcontrol =>
        rw [if_neg hcontrol] at hwhite
        exact Or.inr ⟨by simpa using hcontrol, hwhite⟩
  constructor
  · intro c hc
    rcases hmem c hc with rfl | ⟨hcontrol, -⟩
    · decide
    · exact hcontrol
  · intro c hc hwhite
    rcases hmem c hc with hspace | ⟨-, hno⟩
    · exact hspace
    · rw [hno] at hwhite
      cases hwhite
  · exact List.IsChain.infix (isChain_squeezeFrom isWhitespace_space false _) (trim_within _ _)
  · exact fun h => ne_space (head?_trim _ _ ' ' h) rfl
  · exact fun h => ne_space (getLast?_trim _ _ ' ' h) rfl

/-- The first character of a flattened text is no white space. -/
theorem Flat.head? {text : List Char} (h : Flat text) :
    ∀ c ∈ text.head?, isWhitespace c = false := by
  intro c hc
  rw [Bool.eq_false_iff]
  intro hwhite
  have hspace := h.white c (List.mem_of_mem_head? hc) hwhite
  rw [hspace] at hc
  exact h.first hc

/-- Nor is that of a beginning of it. -/
theorem Flat.head?_begins {text head : List Char} (h : Flat text) (hhead : head <+: text) :
    ∀ c ∈ head.head?, isWhitespace c = false := by
  intro c hc
  have hne : head ≠ [] := by
    rintro rfl
    cases hc
  rw [head?_of_begins hhead hne] at hc
  exact h.head? c hc

/-- No newline, so the regular expression takes any character. -/
theorem Flat.ne_newline {text : List Char} (h : Flat text) {c : Char} (hc : c ∈ text) :
    c ≠ '\n' := by
  rintro rfl
  exact absurd (h.control _ hc) (by decide)

/-- A beginning of a flattened text with an ellipsis. -/
theorem Flat.ellipsis {head rest : List Char} (h : Flat (head ++ rest)) (hne : head ≠ []) :
    Flat (head ++ ['…']) := by
  constructor
  · intro c hc
    rcases List.mem_append.mp hc with hc | hc
    · exact h.control c (List.mem_append_left rest hc)
    · rw [List.mem_singleton.mp hc]
      decide
  · intro c hc hwhite
    rcases List.mem_append.mp hc with hc | hc
    · exact h.white c (List.mem_append_left rest hc) hwhite
    · rw [List.mem_singleton.mp hc] at hwhite
      exact absurd hwhite (by decide)
  · refine List.isChain_append.mpr ⟨?_, List.isChain_singleton _, fun c _ d hd => ?_⟩
    · exact List.IsChain.infix h.single (List.prefix_append head rest).isInfix
    · cases hd
      rintro ⟨-, hspace⟩
      exact absurd hspace (by decide)
  · rw [List.head?_append_of_ne_nil head hne, ← List.head?_append_of_ne_nil head hne]
    exact h.first
  · rw [List.getLast?_concat]
    decide

/-- A flat text is flattened already. -/
theorem Flat.flatten_eq {text : List Char} (h : Flat text) : flatten text = text := by
  have hcontrol : text.map (fun c => if Logfmt.isControl c then ' ' else c) = text := by
    refine (List.map_congr_left fun c hc => ?_).trans (List.map_id text)
    rw [if_neg (by simp [h.control c hc])]
    rfl
  have hlast : ∀ (hne : text ≠ []), isWhitespace (text.getLast hne) = false := by
    intro hne
    rw [Bool.eq_false_iff]
    intro hwhite
    have hspace := h.white _ (List.getLast_mem hne) hwhite
    exact h.last (by rw [List.getLast?_eq_some_getLast hne, hspace])
  have hsqueezed : squeeze isWhitespace ' ' text = text :=
    squeezeFrom_of_single h.white h.single fun h => absurd h Bool.false_ne_true
  rw [flatten, hcontrol, hsqueezed, trim_of_head? h.head?]
  refine List.rdropWhile_eq_self_iff.mpr fun hne => ?_
  simp [hlast hne]
/-- On what is no control character, Unicode's white space is Python's. -/
theorem isWhitespace_eq {c : Char} (h : Logfmt.isControl c = false) :
    isWhitespace c = PyStr.isSpace c := by
  have hbig : 32 ≤ c.toNat := by
    simp only [Logfmt.isControl, Bool.or_eq_false_iff, decide_eq_false_iff_not] at h
    omega
  rw [Bool.eq_iff_iff]
  simp only [isWhitespace, PyStr.isSpace, Bool.or_eq_true, Bool.and_eq_true, decide_eq_true_eq,
    beq_iff_eq]
  omega

/-- **Both renderers flatten alike**: this one and the router's own. -/
theorem flatten_eq (text : List Char) : flatten text = Logfmt.flatten text := by
  have hsame : ∀ c ∈ text.map fun c => if Logfmt.isControl c then ' ' else c,
      isWhitespace c = PyStr.isSpace c := by
    intro c hc
    obtain ⟨d, -, rfl⟩ := List.mem_map.mp hc
    split
    · rfl
    · next hcontrol => exact isWhitespace_eq (by simpa using hcontrol)
  have hsqueezed : squeeze isWhitespace ' '
      (text.map fun c => if Logfmt.isControl c then ' ' else c) =
      squeeze PyStr.isSpace ' ' (text.map fun c => if Logfmt.isControl c then ' ' else c) :=
    squeezeFrom_congr hsame
  rw [flatten, Logfmt.flatten, PyStr.join_split, hsqueezed]
  refine trim_congr fun c hc => ?_
  rcases mem_squeezeFrom hc with rfl | ⟨hmem, -⟩
  · decide
  · exact hsame c hmem

/-! ## 2. The bound -/

/-- The regular expression matches a flattened text that is long enough. -/
theorem cut_eq {text : List Char} (h : Flat text) {next : Char} {rest : List Char}
    (hdrop : text.drop 239 = next :: rest) : cut text = some (text.take 239, next) := by
  have hall : (text.take 240).all (· ≠ '\n') = true := by
    refine List.all_eq_true.mpr fun c hc => ?_
    exact decide_eq_true (h.ne_newline (List.mem_of_mem_take hc))
  unfold cut
  rw [hdrop]
  dsimp only
  rw [hall, if_pos rfl]

/-- What stands before the ellipsis. -/
def kept (text : List Char) : List Char :=
  trim isWhitespace (cutBack inCredential (text.take 239) (text.drop 239).head?)

theorem bound_of_long {text : List Char} (h : Flat text) (hlong : 240 < text.length) :
    bound text = if (kept text).isEmpty then [] else kept text ++ ['…'] := by
  cases hdrop : text.drop 239 with
  | nil =>
    have hshort := List.drop_eq_nil_iff.mp hdrop
    omega
  | cons next rest =>
    unfold bound kept
    rw [if_pos hlong, cut_eq h hdrop, hdrop]
    rfl

/-- What is kept is a beginning of the text that no run is cut from. -/
theorem kept_whole {text : List Char} (h : Flat text) : ∃ rest, text = kept text ++ rest ∧
    (kept text).length ≤ 239 ∧ Whole inCredential (kept text) rest := by
  have hcut := cutBack_begins inCredential (text.take 239) (text.drop 239).head?
  have htext : cutBack inCredential (text.take 239) (text.drop 239).head? <+: text :=
    hcut.trans (List.take_prefix 239 text)
  have hkept : kept text =
      (cutBack inCredential (text.take 239) (text.drop 239).head?).rdropWhile isWhitespace :=
    trim_of_head? (h.head?_begins htext)
  have hbegins : kept text <+: cutBack inCredential (text.take 239) (text.drop 239).head? := by
    rw [hkept]
    exact List.rdropWhile_prefix _ _
  obtain ⟨rest, hrest⟩ := hbegins.trans htext
  refine ⟨rest, hrest.symm, ?_, ?_⟩
  · exact (hbegins.trans hcut).length_le.trans (List.length_take_le 239 text)
  · rw [whole_iff]
    by_cases hsame : kept text = cutBack inCredential (text.take 239) (text.drop 239).head?
    · rcases cutBack_outside inCredential (text.take 239) (text.drop 239) with hlast |
        ⟨huncut, hnext⟩
      · rw [hsame]
        exact Or.inl hlast
      · right
        have hrest' : rest = text.drop 239 := by
          rw [hsame, huncut] at hrest
          exact List.append_cancel_left (hrest.trans (List.take_append_drop 239 text).symm)
        rw [hrest']
        exact hnext
    · -- a space was trimmed, and stands right after what is kept
      right
      intro c hc
      obtain ⟨trimmed, htrimmed⟩ := hbegins
      have hspaces : ∀ x ∈ trimmed, isWhitespace x = true := by
        intro x hx
        rw [hkept] at htrimmed
        have hrun := List.append_cancel_left
          (htrimmed.trans (List.rdropWhile_append_rtakeWhile (p := isWhitespace)).symm)
        rw [hrun] at hx
        exact List.mem_rtakeWhile_imp hx
      have hne : trimmed ≠ [] := by
        rintro rfl
        rw [List.append_nil] at htrimmed
        exact hsame htrimmed
      obtain ⟨later, hlater⟩ : ∃ later, rest = trimmed ++ later := by
        obtain ⟨later, hlater⟩ := htext
        rw [← htrimmed, List.append_assoc] at hlater
        exact ⟨later, List.append_cancel_left (hrest.trans hlater.symm)⟩
      rw [hlater, List.head?_append_of_ne_nil trimmed hne] at hc
      have hmem := List.mem_of_mem_head? hc
      have hspace := h.white c (by rw [← hrest, hlater]; simp [hmem]) (hspaces c hmem)
      rw [hspace]
      decide

/-- Where nothing is kept, every beginning of the text within the bound cuts a run. -/
theorem kept_eq_nil {text : List Char} (h : Flat text) (hlong : 240 < text.length)
    (hnil : kept text = []) {head rest : List Char} (htext : text = head ++ rest)
    (hne : head ≠ []) (hlength : head.length ≤ 239) : ¬ Whole inCredential head rest := by
  have htake : (text.take 239).length = 239 := by
    rw [List.length_take]
    omega
  have hhead := h.head?_begins ((cutBack_begins inCredential _ (text.drop 239).head?).trans
    (List.take_prefix 239 text))
  refine not_whole_of_cutBack_eq_nil (fun hempty => ?_) ((trim_eq_nil_of_head? hhead).mp hnil) hne
    (hlength.trans_eq htake.symm) (htext.symm.trans (List.take_append_drop 239 text).symm)
  rw [hempty] at htake
  cases htake

theorem flat_nil : Flat [] where
  control := nofun
  white := nofun
  single := List.isChain_nil
  first := nofun
  last := nofun

/-- Bounded, a flat text is flat. -/
theorem flat_bound {text : List Char} (h : Flat text) : Flat (bound text) := by
  by_cases hlong : 240 < text.length
  · obtain ⟨rest, htext, -, -⟩ := kept_whole h
    rw [bound_of_long h hlong]
    split
    · exact flat_nil
    · next hkept =>
      rw [htext] at h
      exact h.ellipsis fun hnil => hkept (by rw [hnil]; rfl)
  · rw [bound, if_neg hlong]
    exact h

/-! ## 3. Quotes -/

/-- A value is left as it is, or stands between two double quotes; it holds no other. -/
theorem quoted_cases (text : List Char) : (quoted text = text ∧ '"' ∉ text) ∨
    ∃ inner, quoted text = '"' :: (inner ++ ['"']) ∧ '"' ∉ inner := by
  unfold quoted
  split
  · refine Or.inr ⟨_, rfl, fun hmem => ?_⟩
    obtain ⟨c, -, hc⟩ := List.mem_map.mp hmem
    split at hc
    · exact absurd hc (by decide)
    · next hne => exact hne hc
  · next hbare =>
    refine Or.inl ⟨rfl, fun hmem => hbare ?_⟩
    simp [hmem]

theorem isEmpty_quoted (text : List Char) : (quoted text).isEmpty = text.isEmpty := by
  cases text with
  | nil => rfl
  | cons c text =>
    unfold quoted
    split
    · rfl
    · rfl

/-! ## 4. The detail -/

/-- A beginning of a text that fits within the bound, and that no run is cut from. -/
def Fits (text head : List Char) : Prop :=
  head ≠ [] ∧ head.length + 1 ≤ 240 ∧ ∃ rest, text = head ++ rest ∧ Whole inCredential head rest

/-- **The bound cuts no run of credential characters.**  A detail is left out exactly if the
flattened text is empty, or too long with no beginning that fits.  One that is emitted is flat, at
most 240 characters, and the whole text or such a beginning with an ellipsis; quoted, it has no
double quote besides the pair around it. -/
theorem detail_bounded (attrs : Fields) :
    (detail attrs = [] ↔ flatten (errorText attrs) = [] ∨
      240 < (flatten (errorText attrs)).length ∧
        ∀ head, ¬ Fits (flatten (errorText attrs)) head) ∧
    (detail attrs ≠ [] →
      (detail attrs).length ≤ 240 ∧ Flat (detail attrs) ∧
      (detail attrs = flatten (errorText attrs) ∨
        ∃ head, Fits (flatten (errorText attrs)) head ∧ detail attrs = head ++ ['…']) ∧
      ((quoted (detail attrs) = detail attrs ∧ '"' ∉ detail attrs) ∨
        ∃ inner, quoted (detail attrs) = '"' :: (inner ++ ['"']) ∧ '"' ∉ inner)) := by
  have hflat := flat_flatten (errorText attrs)
  have hdetail : detail attrs = bound (flatten (errorText attrs)) := rfl
  generalize flatten (errorText attrs) = text at hflat hdetail ⊢
  by_cases hlong : 240 < text.length
  · obtain ⟨rest, htext, hlength, hwhole⟩ := kept_whole hflat
    have hempty : text ≠ [] := by
      rintro rfl
      exact absurd hlong (by decide)
    rw [bound_of_long hflat hlong] at hdetail
    cases hkept : (kept text).isEmpty with
    | true =>
      rw [hkept, if_pos rfl] at hdetail
      refine ⟨⟨fun _ => Or.inr ⟨hlong, ?_⟩, fun _ => hdetail⟩, fun hne => absurd hdetail hne⟩
      rintro head ⟨hne, hshort, rest', htext', hwhole'⟩
      exact kept_eq_nil hflat hlong (List.isEmpty_iff.mp hkept) htext' hne (by omega) hwhole'
    | false =>
      rw [hkept, if_neg Bool.false_ne_true] at hdetail
      have hne : kept text ≠ [] := by
        intro hnil
        rw [hnil] at hkept
        cases hkept
      have hfits : Fits text (kept text) := ⟨hne, by omega, rest, htext, hwhole⟩
      refine ⟨⟨fun hnil => ?_, ?_⟩, fun _ => ⟨?_, ?_, Or.inr ⟨kept text, hfits, hdetail⟩,
        quoted_cases _⟩⟩
      · rw [hdetail] at hnil
        exact absurd (List.append_eq_nil_iff.mp hnil).2 (List.cons_ne_nil _ _)
      · rintro (hnil | ⟨-, hnone⟩)
        · exact absurd hnil hempty
        · exact absurd hfits (hnone _)
      · rw [hdetail, List.length_append, List.length_singleton]
        omega
      · rw [hdetail]
        rw [htext] at hflat
        exact hflat.ellipsis hne
  · have hwhole : detail attrs = text := by
      rw [hdetail, bound, if_neg hlong]
    rw [hwhole]
    refine ⟨⟨Or.inl, ?_⟩, fun _ => ⟨Nat.le_of_not_lt hlong, hflat, Or.inl rfl, quoted_cases _⟩⟩
    rintro (hnil | ⟨hlong', -⟩)
    · exact hnil
    · exact absurd hlong' hlong

/-! ## 5. The failure's fields -/

/-- What a failed call's line says of the failure. -/
def failure (attrs : Fields) : List (String × Logfmt.Value) :=
  [("outcome", .str "failed"), ("reason", .str (reason attrs)),
    ("detail", .str (String.ofList (detail attrs)))]

/-- A slug is rendered as it is. -/
theorem renderValue_reason (attrs : Fields) :
    Logfmt.renderValue (.str (reason attrs)) = (reason attrs).toList := by
  unfold reason
  split
  · split
    · decide
    · decide
  · split
    · decide
    · repeat' split
      all_goals decide

theorem reason_ne_nil (attrs : Fields) : (reason attrs).toList ≠ [] := by
  unfold reason
  split
  · split
    · decide
    · decide
  · split
    · decide
    · repeat' split
      all_goals decide

/-- So is a detail, but for its quotes. -/
theorem renderValue_detail (attrs : Fields) :
    Logfmt.renderValue (.str (String.ofList (detail attrs))) = quoted (detail attrs) := by
  have hflat : Flat (detail attrs) := flat_bound (flat_flatten (errorText attrs))
  unfold Logfmt.renderValue Logfmt.Value.text
  rw [String.toList_ofList, ← flatten_eq, hflat.flatten_eq]
  rfl

/-- **A failed call's fields are the router's own**: what `log_fields` renders of the outcome, the
reason and the detail. -/
theorem failedFields_eq (attrs : Fields) :
    failedFields attrs = " " ++ Logfmt.logFields (failure attrs) := by
  have houtcome : Logfmt.field ("outcome", .str "failed") = some "outcome=failed".toList := by
    decide
  have hreason : Logfmt.field ("reason", .str (reason attrs)) =
      some ("reason=".toList ++ (reason attrs).toList) := by
    unfold Logfmt.field
    dsimp only
    rw [renderValue_reason, if_neg (by simpa using reason_ne_nil attrs)]
    rfl
  have hdetail : Logfmt.field ("detail", .str (String.ofList (detail attrs))) =
      if (detail attrs).isEmpty then none
      else some ("detail=".toList ++ quoted (detail attrs)) := by
    unfold Logfmt.field
    dsimp only
    rw [renderValue_detail, isEmpty_quoted]
    rfl
  unfold failedFields Logfmt.logFields failure
  rw [List.filterMap_cons_some houtcome, List.filterMap_cons_some hreason, List.filterMap_cons,
    hdetail]
  refine String.toList_injective ?_
  cases (detail attrs).isEmpty with
  | true => simp [PyStr.join]
  | false => simp [PyStr.join]

end BasecradleRouter.Vector
