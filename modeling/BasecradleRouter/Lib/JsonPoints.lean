/-
# JSON text of Python's own strings

A surrogate that stands alone in a string is escaped alone.  Where another follows that makes a
pair with it, the two are read back as one character; a string without such a place (`Unpaired`),
and no other, is read back as it was (`rejoined_eq_iff`), and so is a value of such strings
(`respelled_eq_iff`).

What is read of a text that holds no surrogate itself has such strings only (`unpaired_of_read`).
An integer of too many digits stops the reader (`scan_long`).
-/
import BasecradleRouter.Lib.JsonKept
import BasecradleRouter.Lib.JsonRoundTrip
import Mathlib.Data.List.Chain
import Mathlib.Data.List.TakeWhile

namespace BasecradleRouter.Lib.JsonCodec

open JsonString

/-! ## 1. Code points -/

/-- One code point of a string. -/
def escapePoint (c : CodePoint) : List Char :=
  if high c || low c then unicode c else escape (charOf c)

theorem toNat_charOf {c : CodePoint} (h : (high c || low c) = false) :
    (charOf c).toNat = c := by
  have hvalid : (c : ℕ).isValidChar := by
    have hlt := c.isLt
    simp only [high, low, Bool.or_eq_false_iff, Bool.and_eq_false_iff,
      decide_eq_false_iff_not] at h
    unfold Nat.isValidChar
    omega
  rw [charOf, h, if_neg Bool.false_ne_true, Char.ofNat, dif_pos hvalid]
  rfl

theorem eq_ofChar_of_charOf {c : CodePoint} {d : Char} (hd : d ≠ '\ufffd') (h : charOf c = d) :
    c = .ofChar d := by
  cases hplain : high c || low c with
  | true =>
    rw [charOf, hplain, if_pos rfl] at h
    exact absurd h.symm hd
  | false =>
    have hval := toNat_charOf hplain
    rw [h] at hval
    exact Fin.ext hval.symm

/-- Of other characters, only a string's own stand in its text. -/
theorem mem_escapePoint {c : CodePoint} {x : Char} (h : x ∈ escapePoint c) :
    x = charOf c ∨ x ∈ escapeLetters := by
  unfold escapePoint at h
  split at h
  · exact Or.inr (mem_escapeLetters_of_mem_unicode h)
  · exact mem_escape h

theorem printable_of_mem_escapePoint {c : CodePoint} {x : Char} (h : x ∈ escapePoint c) :
    printable x = true := by
  unfold escapePoint at h
  split at h
  · exact (plain_of_mem_unicode h).1
  · exact printable_of_mem_escape h

theorem undone_escapePoint : Undone escapePoint := by
  intro c
  unfold escapePoint
  split
  · next hsurrogate =>
    have hsmall : (c : ℕ) < 0x10000 := by
      simp only [high, low, Bool.or_eq_true, Bool.and_eq_true, decide_eq_true_eq] at hsurrogate
      omega
    exact ⟨_, reads_unicode hsmall, .unit hsmall⟩
  · next hplain =>
    obtain ⟨pieces, hreads, hspells⟩ := undone_escape (charOf c)
    have hpoint : Coded.point (charOf c) = Coded.point c :=
      toNat_charOf (Bool.not_eq_true _ ▸ hplain)
    exact ⟨pieces, hreads, hpoint ▸ hspells⟩

/-- A text of characters is read code point by code point. -/
theorem scan_ofChar {σ α : Type} [Spelled σ α] [DecidableEq σ] (limits : Limits)
    (text : List Char) : ∀ (within : Within) (st : State σ),
      scan limits within st (text.map CodePoint.ofChar) = scan limits within st text := by
  induction text with
  | nil =>
    intro within st
    cases within <;> rfl
  | cons c text ih =>
    intro within st
    have hview : Coded.view (CodePoint.ofChar c) = c := CodePoint.charOf_ofChar c
    have hpoint : Coded.point (CodePoint.ofChar c) = Coded.point c := rfl
    rw [List.map_cons]
    cases within <;> simp only [scan, hview, hpoint, view_char, ih]

theorem read_ofChar {σ α : Type} [Spelled σ α] [DecidableEq σ] (limits : Limits)
    (text : List Char) : (read limits (text.map CodePoint.ofChar) : Except LoadError (Json σ)) =
      read limits text := by
  rw [read, read, scan_ofChar]

/-! ## 2. Strings without a pair -/

/-- No pair of surrogates. -/
def Apart (n m : ℕ) : Prop := (high n && low m) = false

instance (n m : ℕ) : Decidable (Apart n m) := inferInstanceAs (Decidable (_ = _))

/-- A string in which no first surrogate stands directly before a second. -/
def Unpaired (s : PyText) : Prop := (s.map Fin.val).IsChain Apart

instance (s : PyText) : Decidable (Unpaired s) :=
  inferInstanceAs (Decidable (List.IsChain Apart _))

theorem apart_of_high {n : ℕ} (h : high n = false) (m : ℕ) : Apart n m := by
  rw [Apart, h, Bool.false_and]

theorem apart_of_low {m : ℕ} (h : low m = false) (n : ℕ) : Apart n m := by
  rw [Apart, h, Bool.and_false]

/-- What a pair encodes lies outside the Basic Multilingual Plane, and is no surrogate. -/
theorem paired_plain {n m : ℕ} (h : (high n && low m) = true) :
    paired n m < 0x110000 ∧ high (paired n m) = false ∧ low (paired n m) = false := by
  simp only [high, low, Bool.and_eq_true, decide_eq_true_eq] at h
  have hlarge : 0x10000 ≤ paired n m ∧ paired n m < 0x110000 := by
    unfold paired
    omega
  refine ⟨hlarge.2, ?_, ?_⟩
  · simp only [high, Bool.and_eq_false_iff, decide_eq_false_iff_not]
    omega
  · simp only [low, Bool.and_eq_false_iff, decide_eq_false_iff_not]
    omega

/-- A code point that is no surrogate, or one that is escaped. -/
def Piece.Plain : Piece → Prop
  | .point n => n < 0x110000 ∧ high n = false ∧ low n = false
  | .unit n => n < 0x110000

theorem join_lt {pieces : List Piece} (h : ∀ piece ∈ pieces, piece.Plain) :
    ∀ n ∈ join pieces, n < 0x110000 := by
  induction pieces using join.induct with
  | case1 => exact List.forall_mem_nil _
  | case2 n pieces ih =>
    obtain ⟨hn, hrest⟩ := List.forall_mem_cons.mp h
    exact List.forall_mem_cons.mpr ⟨hn.1, ih hrest⟩
  | case3 n =>
    exact List.forall_mem_singleton.mpr (h _ (List.mem_singleton_self _))
  | case4 n m pieces ih =>
    obtain ⟨hn, hrest⟩ := List.forall_mem_cons.mp h
    obtain ⟨hm, hrest⟩ := List.forall_mem_cons.mp hrest
    exact List.forall_mem_cons.mpr ⟨hn, List.forall_mem_cons.mpr ⟨hm.1, ih hrest⟩⟩
  | case5 n m pieces hpair ih =>
    rw [join, if_pos hpair]
    refine List.forall_mem_cons.mpr ⟨(paired_plain hpair).1, ih fun piece hpiece => h piece ?_⟩
    exact List.mem_cons_of_mem _ (List.mem_cons_of_mem _ hpiece)
  | case6 n m pieces hpair ih =>
    obtain ⟨hn, hrest⟩ := List.forall_mem_cons.mp h
    rw [join, if_neg hpair]
    exact List.forall_mem_cons.mpr ⟨hn, ih hrest⟩

/-- What is joined begins as it did, or with what a pair encodes. -/
theorem head_join {n k : ℕ} {pieces : List Piece} (h : (join (.unit n :: pieces)).head? = some k) :
    k = n ∨ high k = false ∧ low k = false := by
  cases pieces with
  | nil => exact Or.inl (Option.some.inj h).symm
  | cons piece pieces =>
    cases piece with
    | point m => exact Or.inl (Option.some.inj h).symm
    | unit m =>
      rw [join] at h
      split at h
      · next hpair =>
        rw [← Option.some.inj h]
        exact Or.inr (paired_plain hpair).2
      · exact Or.inl (Option.some.inj h).symm

/-- The code units of a text leave no pair, where what is not escaped is no surrogate. -/
theorem chain_join {pieces : List Piece} (h : ∀ piece ∈ pieces, piece.Plain) :
    (join pieces).IsChain Apart := by
  induction pieces using join.induct with
  | case1 => exact .nil
  | case2 n pieces ih =>
    obtain ⟨hn, hrest⟩ := List.forall_mem_cons.mp h
    exact List.isChain_cons.mpr ⟨fun k _ => apart_of_high hn.2.1 k, ih hrest⟩
  | case3 n => exact .singleton n
  | case4 n m pieces ih =>
    obtain ⟨-, hrest⟩ := List.forall_mem_cons.mp h
    obtain ⟨hm, hrest⟩ := List.forall_mem_cons.mp hrest
    refine List.isChain_cons_cons.mpr ⟨apart_of_low hm.2.2 n, ?_⟩
    exact List.isChain_cons.mpr ⟨fun k _ => apart_of_high hm.2.1 k, ih hrest⟩
  | case5 n m pieces hpair ih =>
    rw [join, if_pos hpair]
    refine List.isChain_cons.mpr ⟨fun k _ => apart_of_high (paired_plain hpair).2.1 k, ?_⟩
    exact ih fun piece hpiece =>
      h piece (List.mem_cons_of_mem _ (List.mem_cons_of_mem _ hpiece))
  | case6 n m pieces hpair ih =>
    rw [join, if_neg hpair]
    refine List.isChain_cons.mpr ⟨fun k hk => ?_, ih (List.forall_mem_cons.mp h).2⟩
    rcases head_join hk with rfl | hplain
    · exact eq_false_of_ne_true hpair
    · exact apart_of_low hplain.2 n

/-- The code points of a string are joined as they would be if each were escaped. -/
theorem joined_eq (ns : List ℕ) : joined ns = join (ns.map .unit) := by
  induction ns using joined.induct with
  | case1 => rfl
  | case2 n => rfl
  | case3 n m ns hpair ih =>
    rw [joined, if_pos hpair, ih, List.map_cons, List.map_cons, join, if_pos hpair]
  | case4 n m ns hpair ih =>
    have hstep : join ((n :: m :: ns).map .unit) = n :: join ((m :: ns).map .unit) := if_neg hpair
    rw [joined, if_neg hpair, ih, hstep]

theorem plain_units (s : PyText) : ∀ piece ∈ (s.map Fin.val).map Piece.unit, piece.Plain := by
  rw [List.map_map]
  exact List.forall_mem_map.mpr fun c _ => c.isLt

theorem joined_of_chain {ns : List ℕ} (h : ns.IsChain Apart) : joined ns = ns := by
  induction ns using joined.induct with
  | case1 => rfl
  | case2 n => rfl
  | case3 n m ns hpair ih =>
    rw [List.isChain_cons_cons] at h
    rw [h.1] at hpair
    cases hpair
  | case4 n m ns hpair ih =>
    rw [List.isChain_cons_cons] at h
    rw [joined, if_neg hpair, ih h.2]

/-- The code points of a string are the numbers it was spelled with. -/
theorem val_spell {ns : List ℕ} (h : ∀ n ∈ ns, n < 0x110000) :
    (Spelled.spell ns : PyText).map Fin.val = ns := by
  show (ns.map (Fin.ofNat 0x110000)).map Fin.val = ns
  rw [List.map_map]
  conv => rhs; rw [← List.map_id ns]
  exact List.map_congr_left fun n hn => Nat.mod_eq_of_lt (h n hn)

theorem val_rejoined (s : PyText) : (rejoined s).map Fin.val = joined (s.map Fin.val) := by
  refine val_spell ?_
  rw [joined_eq]
  exact join_lt (plain_units s)

theorem unpaired_rejoined (s : PyText) : Unpaired (rejoined s) := by
  rw [Unpaired, val_rejoined, joined_eq]
  exact chain_join (plain_units s)

/-- **The strings without a pair are those that are read back as they were.** -/
theorem rejoined_eq_iff {s : PyText} : rejoined s = s ↔ Unpaired s := by
  constructor
  · intro h
    rw [← h]
    exact unpaired_rejoined s
  · intro h
    refine (List.map_injective_iff.mpr Fin.val_injective) ?_
    rw [val_rejoined, joined_of_chain h]

/-! ## 3. Values of such strings -/

/-- A value each of whose strings is one `S` holds of. -/
inductive Every {σ : Type} (S : σ → Prop) : Json σ → Prop
  | scalar {v : Json σ} (h : Scalar v) : Every S v
  | str {s : σ} (h : S s) : Every S (.str s)
  | arr {items : List (Json σ)} (h : ∀ v ∈ items, Every S v) : Every S (.arr items)
  | obj {fields : Fields σ} (hkeys : ∀ field ∈ fields, S field.1)
      (h : ∀ field ∈ fields, Every S field.2) : Every S (.obj fields)

section

variable {σ : Type} {S : σ → Prop}

theorem Every.of_str {s : σ} (h : Every S (.str s)) : S s := by
  cases h with
  | scalar h => cases h.1
  | str h => exact h

theorem Every.of_arr {items : List (Json σ)} (h : Every S (.arr items)) :
    ∀ v ∈ items, Every S v := by
  cases h with
  | scalar h => cases h.2.1
  | arr h => exact h

theorem Every.of_obj {fields : Fields σ} (h : Every S (.obj fields)) :
    ∀ field ∈ fields, S field.1 ∧ Every S field.2 := by
  cases h with
  | scalar h => cases h.2.2
  | obj hkeys h => exact fun field hfield => ⟨hkeys field hfield, h field hfield⟩

variable [DecidableEq σ]

theorem mem_of_mem_setField {fields : Fields σ} {key : σ} {v : Json σ} {field : σ × Json σ}
    (h : field ∈ setField fields key v) : field = (key, v) ∨ field ∈ fields := by
  induction fields with
  | nil => exact Or.inl (List.mem_singleton.mp h)
  | cons first fields ih =>
    rw [setField] at h
    split at h
    · next hkey =>
      rcases List.mem_cons.mp h with rfl | h
      · exact Or.inl (Prod.ext hkey rfl)
      · exact Or.inr (List.mem_cons_of_mem _ h)
    · rcases List.mem_cons.mp h with rfl | h
      · exact Or.inr List.mem_cons_self
      · exact (ih h).imp_right (List.mem_cons_of_mem _)

theorem Every.setField {fields : Fields σ} (h : Every S (.obj fields)) {key : σ} (hkey : S key)
    {v : Json σ} (hv : Every S v) : Every S (.obj (setField fields key v)) := by
  have hfield : ∀ field ∈ JsonCodec.setField fields key v, S field.1 ∧ Every S field.2 := by
    intro field hmem
    rcases mem_of_mem_setField hmem with rfl | hold
    · exact ⟨hkey, hv⟩
    · exact h.of_obj field hold
  exact .obj (fun field hmem => (hfield field hmem).1) fun field hmem => (hfield field hmem).2

theorem every_respelledFields {f : σ → σ} (hf : ∀ s, S (f s)) {fields : Fields σ}
    (h : ∀ field ∈ fields, Every S (respelled f field.2)) {before : Fields σ}
    (hbefore : Every S (.obj before)) : Every S (.obj (respelledFields f fields before)) := by
  induction fields generalizing before with
  | nil => exact hbefore
  | cons field fields ih =>
    obtain ⟨hv, hrest⟩ := List.forall_mem_cons.mp h
    rw [respelledFields]
    exact ih hrest (hbefore.setField (hf _) hv)

/-- Respelled, a value has strings of the other spelling only. -/
theorem every_respelled {f : σ → σ} (hf : ∀ s, S (f s)) {v : Json σ} (h : Textual v) :
    Every S (respelled f v) := by
  induction h with
  | str s => exact .str (hf s)
  | @arr items _ ih =>
    rw [respelled, respelledItems_eq]
    exact .arr (List.forall_mem_map.mpr ih)
  | @obj fields _ _ ih =>
    rw [respelled]
    exact every_respelledFields hf ih (.obj (List.forall_mem_nil _) (List.forall_mem_nil _))

/-- A value whose strings are left as they are is left as it is. -/
theorem Textual.respelled_eq {f : σ → σ} {v : Json σ} (h : Textual v)
    (hv : Every (fun s => f s = s) v) : respelled f v = v := by
  induction h with
  | str s => rw [respelled, hv.of_str]
  | @arr items _ ih =>
    rw [respelled, respelledItems_eq,
      List.map_congr_left fun v hmem => ih v hmem (hv.of_arr v hmem), List.map_id']
  | @obj fields hkeys _ ih =>
    have hkey : fields.map (fun field => f field.1) = fields.map Prod.fst :=
      List.map_congr_left fun field hmem => (hv.of_obj field hmem).1
    have hfields : fields.map (fun field => (f field.1, respelled f field.2)) = fields := by
      conv => rhs; rw [← List.map_id' fields]
      exact List.map_congr_left fun field hmem =>
        Prod.ext (hv.of_obj field hmem).1 (ih field hmem (hv.of_obj field hmem).2)
    rw [respelled, respelledFields_eq, List.nil_append, hfields]
    rw [List.map_nil, List.nil_append, hkey]
    exact hkeys

end

/-- **The values of strings without a pair are those that are read back as they were.** -/
theorem respelled_eq_iff {v : Json PyText} (h : Textual v) :
    respelled rejoined v = v ↔ Every Unpaired v := by
  constructor
  · intro hsame
    rw [← hsame]
    exact every_respelled unpaired_rejoined h
  · intro hv
    refine h.respelled_eq ?_
    simpa only [rejoined_eq_iff] using hv

/-! ## 4. What is read of a text without surrogates -/

/-- A text that holds no surrogate itself. -/
def Scalars (text : PyText) : Prop := ∀ c ∈ text, high c = false ∧ low c = false

instance (text : PyText) : Decidable (Scalars text) := List.decidableBAll _ text

/-- It makes no pair with what follows. -/
theorem Scalars.append {s t : PyText} (hs : Scalars s) (ht : Unpaired t) : Unpaired (s ++ t) := by
  induction s with
  | nil => exact ht
  | cons c s ih =>
    obtain ⟨hc, hrest⟩ := List.forall_mem_cons.mp hs
    exact List.isChain_cons.mpr ⟨fun k _ => apart_of_high hc.1 k, ih hrest⟩

theorem kept_unpaired : Kept Piece.Plain Unpaired (Every Unpaired) where
  unit n hn := Nat.lt_trans hn (by decide)
  short := by
    intro p hp
    exact ⟨toNat_lt _, high_toNat _, low_toNat _⟩
  spell pieces hpieces := by
    rw [Unpaired, val_spell (join_lt hpieces)]
    exact chain_join hpieces
  str s hs := .str hs
  scalar v hv := .scalar hv
  items := .arr (List.forall_mem_nil _)
  item items v hitems hv := .arr (List.forall_mem_append.mpr
    ⟨hitems.of_arr, List.forall_mem_singleton.mpr hv⟩)
  fields := .obj (List.forall_mem_nil _) (List.forall_mem_nil _)
  field fields key v hfields hkey hv := hfields.setField hkey hv

/-- **What is read of a text without surrogates has strings without a pair.** -/
theorem unpaired_of_read {limits : Limits} {text : PyText} (htext : Scalars text)
    {v : Json PyText} (h : read limits text = .ok v) : Every Unpaired v :=
  holds_read kept_unpaired (fun c hc => ⟨c.isLt, htext c hc⟩) h

/-! ## 5. A run of digits -/

theorem isDigit_cases {c : Char} (h : c.isDigit = true) :
    isWhite c = false ∧ isMark c = false ∧ c ≠ '"' ∧ c ≠ '-' := by
  have hne : ∀ d : Char, d.isDigit = false → c ≠ d := by
    rintro d hd rfl
    rw [h] at hd
    cases hd
  refine ⟨?_, ?_, hne '"' (by decide), hne '-' (by decide)⟩
  · simp [isWhite, hne ' ' (by decide), hne '\t' (by decide), hne '\n' (by decide),
      hne '\r' (by decide)]
  · simp [isMark, hne '\x7b' (by decide), hne '\x7d' (by decide), hne '[' (by decide),
      hne ']' (by decide), hne ',' (by decide), hne ':' (by decide)]

/-- Digits are read to the last as one word. -/
theorem scan_digits {σ α : Type} [Spelled σ α] [DecidableEq σ] {digits : List Char}
    (h : ∀ c ∈ digits, c.isDigit = true) (limits : Limits) (text : List Char) (st : State σ)
    (rest : PyText) :
    scan limits (.word text) st (digits.map CodePoint.ofChar ++ rest) =
      scan limits (.word (digits.reverse ++ text)) st rest := by
  induction digits generalizing text with
  | nil => rfl
  | cons c digits ih =>
    obtain ⟨hc, hdigits⟩ := List.forall_mem_cons.mp h
    obtain ⟨hwhite, hmark, hquote, -⟩ := isDigit_cases hc
    have hview : Coded.view (CodePoint.ofChar c) = c := CodePoint.charOf_ofChar c
    rw [List.map_cons, List.cons_append, scan, hview, hwhite, hmark, if_neg Bool.false_ne_true,
      if_neg Bool.false_ne_true, if_neg hquote, ih hdigits, List.reverse_cons, List.append_assoc,
      List.singleton_append]

/-- Where they are too many, `int` raises a `ValueError`. -/
theorem spelled_digits {σ : Type} {digits : List Char} (h : ∀ c ∈ digits, c.isDigit = true)
    (hhead : digits.head? ≠ some '0') {limits : Limits}
    (hlong : limits.reads digits.length = false) :
    (spelled limits digits : Except LoadError (Json σ)) = .error (.fault .digits) := by
  have hsign : digits.head? ≠ some '-' := fun hsign =>
    (isDigit_cases (h '-' (List.mem_of_mem_head? hsign))).2.2.2 rfl
  have hrun : digits.takeWhile Char.isDigit = digits := List.takeWhile_eq_self_iff.mpr h
  have hleading : leadingDigits digits = digits.length := by
    simp [leadingDigits, hsign, hrun, hhead, startsFraction]
  rw [spelled, hleading, hlong]
  rfl

/-- **An integer of too many digits stops the reader** where a value may stand. -/
theorem scan_long {σ α : Type} [Spelled σ α] [DecidableEq σ] {digits : List Char}
    (h : ∀ c ∈ digits, c.isDigit = true) (hne : digits ≠ []) (hhead : digits.head? ≠ some '0')
    {limits : Limits} (hlong : limits.reads digits.length = false) (open_ : List (Frame σ))
    (rest : PyText) :
    scan limits .nothing (.reading open_ .value)
      (digits.map CodePoint.ofChar ++ CodePoint.ofChar '\x7d' :: rest) =
        .error (.fault .digits) := by
  have hclosing : Coded.view (CodePoint.ofChar '\x7d') = '\x7d' := CodePoint.charOf_ofChar _
  have hstart : ∀ text : PyText,
      scan limits .nothing (.reading open_ .value) (digits.map CodePoint.ofChar ++ text) =
        scan limits (.word []) (.reading open_ .value) (digits.map CodePoint.ofChar ++ text) := by
    intro text
    cases digits with
    | nil => exact absurd rfl hne
    | cons c digits =>
      obtain ⟨hwhite, hmark, hquote, -⟩ := isDigit_cases (h c List.mem_cons_self)
      have hview : Coded.view (CodePoint.ofChar c) = c := CodePoint.charOf_ofChar c
      rw [List.map_cons, List.cons_append, scan, scan, hview, hwhite, hmark,
        if_neg Bool.false_ne_true, if_neg Bool.false_ne_true, if_neg hquote,
        if_neg Bool.false_ne_true, if_neg Bool.false_ne_true, if_neg hquote]
  rw [hstart, scan_digits h, List.append_nil, scan, hclosing, if_neg (by decide),
    if_pos (by decide), List.reverse_reverse, word, spelled_digits h hhead hlong]
  rfl

end BasecradleRouter.Lib.JsonCodec
