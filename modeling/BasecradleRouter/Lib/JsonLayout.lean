/-
# JSON text with white space

`json.dumps` lays a text out: what stands behind a comma and a colon, and inside a container's
brackets, is its `Layout`, which is white space and may depend on how deep the container lies.
`write` is `json.dumps` for a layout.

Whatever the layout, what was written is read back (`loads_write`), for values without a float.
-/
import BasecradleRouter.Lib.JsonRoundTrip
import Mathlib.Data.List.TakeWhile

namespace BasecradleRouter.Lib.JsonLayout

open JsonCodec

/-! ## 1. Layouts -/

/-- White space only. -/
def White (text : List Char) : Prop := ∀ c ∈ text, isWhite c = true

/-- The white space of a text, inside containers so many deep. -/
structure Layout where
  comma : ℕ → List Char
  colon : List Char
  opening : ℕ → List Char
  closing : ℕ → List Char
  comma_white : ∀ depth, White (comma depth)
  colon_white : White colon
  opening_white : ∀ depth, White (opening depth)
  closing_white : ∀ depth, White (closing depth)

theorem white_nil : White [] := List.forall_mem_nil _

theorem white_space : White [' '] := List.forall_mem_singleton.mpr rfl

/-- A new line, and its indent. -/
def newline (width : ℕ) : List Char := '\n' :: List.replicate width ' '

theorem white_newline (width : ℕ) : White (newline width) := by
  intro c hc
  rcases List.mem_cons.mp hc with rfl | hc
  · rfl
  · rw [List.eq_of_mem_replicate hc]
    rfl

namespace Layout

/-- `json.dumps(v)` -/
def spaced : Layout where
  comma _ := [' ']
  colon := [' ']
  opening _ := []
  closing _ := []
  comma_white _ := white_space
  colon_white := white_space
  opening_white _ := white_nil
  closing_white _ := white_nil

/-- `json.dumps(v, indent=width)` -/
def indented (width : ℕ) : Layout where
  comma depth := newline (width * depth)
  colon := [' ']
  opening depth := newline (width * depth)
  closing depth := newline (width * (depth - 1))
  comma_white _ := white_newline _
  colon_white := white_space
  opening_white _ := white_newline _
  closing_white _ := white_newline _

end Layout

/-! ## 2. The writer -/

/-- What stands between a container's brackets; nothing in an empty one. -/
def Layout.within (layout : Layout) (depth : ℕ) (empty : Bool) (inner : List Char) : List Char :=
  if empty then [] else layout.opening depth ++ (inner ++ layout.closing depth)

mutual

/-- `json.dumps` for a layout, of a value inside so many containers. -/
def write (layout : Layout) (enc : Char → List Char) (depth : ℕ) : Json → List Char
  | .null => "null".toList
  | .bool b => if b then "true".toList else "false".toList
  | .int i => (toString i).toList
  | .float text => text.toList
  | .str s => quoted enc s
  | .arr items => '[' :: (layout.within (depth + 1) items.isEmpty
      (writeItems layout enc (depth + 1) items) ++ [']'])
  | .obj fields => '{' :: (layout.within (depth + 1) fields.isEmpty
      (writeFields layout enc (depth + 1) fields) ++ ['}'])

def writeItems (layout : Layout) (enc : Char → List Char) (depth : ℕ) : List Json → List Char
  | [] => []
  | [v] => write layout enc depth v
  | v :: items =>
    write layout enc depth v ++ ',' :: (layout.comma depth ++ writeItems layout enc depth items)

def writeFields (layout : Layout) (enc : Char → List Char) (depth : ℕ) :
    List (String × Json) → List Char
  | [] => []
  | [(key, v)] => quoted enc key ++ ':' :: (layout.colon ++ write layout enc depth v)
  | (key, v) :: fields =>
    quoted enc key ++ ':' :: (layout.colon ++ (write layout enc depth v ++
      ',' :: (layout.comma depth ++ writeFields layout enc depth fields)))

end

example : write (.indented 2) JsonString.escape 0
    (.obj [("a", .arr [.int (-1), .null]), ("b", .obj [])]) =
      "\x7b\n  \"a\": [\n    -1,\n    null\n  ],\n  \"b\": \x7b\x7d\n\x7d".toList := by
  rfl

/-! ## 3. Words and white space -/

/-- A word may end here. -/
def Ends : List Char → Prop
  | [] => True
  | c :: _ => isWhite c = true ∨ isMark c = true

theorem ends_mark {c : Char} (hc : isMark c = true) (cs : List Char) : Ends (c :: cs) := Or.inr hc

theorem White.ends {text cs : List Char} (h : White text) (hcs : Ends cs) : Ends (text ++ cs) := by
  cases text with
  | nil => exact hcs
  | cons c text => exact Or.inl (h c List.mem_cons_self)

theorem White.scan {text : List Char} (h : White text) (st : State String) (cs : List Char) :
    scan .none .nothing st (text ++ cs) = scan .none .nothing st cs := by
  induction text with
  | nil => rfl
  | cons c text ih =>
    obtain ⟨hc, htext⟩ := List.forall_mem_cons.mp h
    rw [List.cons_append, JsonCodec.scan, view_char, if_pos hc]
    exact ih htext

/-- A character within a word. -/
def InWord (c : Char) : Prop := isWhite c = false ∧ isMark c = false ∧ c ≠ '"'

instance (c : Char) : Decidable (InWord c) := inferInstanceAs (Decidable (_ ∧ _ ∧ _))

/-- For a word that is written out. -/
theorem inWord_of_all {text : List Char} (h : (text.all fun c => decide (InWord c)) = true) :
    ∀ c ∈ text, InWord c :=
  fun c hc => of_decide_eq_true (List.all_eq_true.mp h c hc)

theorem scan_word_end (text : List Char) (st : State String) {cs : List Char} (hcs : Ends cs) :
    scan .none (.word text) st cs =
      word .none text.reverse st >>= fun st => scan .none .nothing st cs := by
  cases cs with
  | nil =>
    rw [JsonCodec.scan]
    cases word .none text.reverse st <;> rfl
  | cons c cs =>
    cases hwhite : isWhite c with
    | true => simp [JsonCodec.scan, hwhite]
    | false =>
      have hmark : isMark c = true := hcs.resolve_left (by simp [hwhite])
      simp [JsonCodec.scan, hwhite, hmark]

theorem scan_word_append {text : List Char} (h : ∀ c ∈ text, InWord c) (read : List Char)
    (st : State String) (cs : List Char) :
    scan .none (.word read) st (text ++ cs) = scan .none (.word (text.reverse ++ read)) st cs := by
  induction text generalizing read with
  | nil => rfl
  | cons c text ih =>
    obtain ⟨⟨hwhite, hmark, hquote⟩, htext⟩ := List.forall_mem_cons.mp h
    rw [List.cons_append, JsonCodec.scan, view_char, hwhite, hmark, if_neg Bool.false_ne_true,
      if_neg Bool.false_ne_true, if_neg hquote, ih htext]
    simp

/-- A word that was written is read to its end. -/
theorem scan_word {text : List Char} (hne : text ≠ []) (h : ∀ c ∈ text, InWord c)
    (st : State String) {cs : List Char} (hcs : Ends cs) :
    scan .none .nothing st (text ++ cs) =
      word .none text st >>= fun st => scan .none .nothing st cs := by
  cases text with
  | nil => exact absurd rfl hne
  | cons c text =>
    obtain ⟨⟨hwhite, hmark, hquote⟩, htext⟩ := List.forall_mem_cons.mp h
    rw [List.cons_append, JsonCodec.scan, view_char, hwhite, hmark, if_neg Bool.false_ne_true,
      if_neg Bool.false_ne_true, if_neg hquote, scan_word_append htext, scan_word_end _ _ hcs]
    simp

/-! ## 4. Numbers -/

theorem isDigit_inWord {c : Char} (h : c.isDigit = true) : InWord c := by
  have hval : 48 ≤ c.toNat ∧ c.toNat ≤ 57 := by
    rw [Char.isDigit, Bool.and_eq_true, decide_eq_true_eq, decide_eq_true_eq] at h
    exact ⟨UInt32.le_iff_toNat_le.mp h.1, UInt32.le_iff_toNat_le.mp h.2⟩
  refine ⟨?_, ?_, ?_⟩
  · by_contra hwhite
    simp only [isWhite, Bool.not_eq_false, Bool.or_eq_true, beq_iff_eq] at hwhite
    rcases hwhite with ((rfl | rfl) | rfl) | rfl <;> exact absurd hval (by decide)
  · by_contra hmark
    simp only [isMark, Bool.not_eq_false, List.contains_iff_mem, List.mem_cons,
      List.not_mem_nil, or_false] at hmark
    rcases hmark with rfl | rfl | rfl | rfl | rfl | rfl <;> exact absurd hval (by decide)
  · rintro rfl
    exact absurd hval (by decide)

theorem isDigit_of_mem_toDigits {n : ℕ} {c : Char} (h : c ∈ Nat.toDigits 10 n) :
    c.isDigit = true := Nat.isDigit_of_mem_toDigits (by decide) (by decide) h

/-- The first digit of a number of several digits is not zero. -/
theorem toDigits_leading (n : ℕ) :
    (Nat.toDigits 10 n).head? ≠ some '0' ∨ (Nat.toDigits 10 n).length = 1 := by
  induction n using Nat.strongRecOn with
  | ind n ih =>
    by_cases hn : n < 10
    · rw [Nat.toDigits_of_lt_base hn]
      exact Or.inr rfl
    · have hdigits : Nat.toDigits 10 n = Nat.toDigits 10 (n / 10) ++ [(n % 10).digitChar] :=
        Nat.toDigits_of_base_le (by decide) (by omega)
      have hhead : (Nat.toDigits 10 n).head? = (Nat.toDigits 10 (n / 10)).head? := by
        rw [hdigits, List.head?_append_of_ne_nil _ Nat.toDigits_ne_nil]
      rw [hhead]
      rcases ih (n / 10) (by omega) with h | h
      · exact Or.inl h
      · left
        have hlt : n / 10 < 10 := by
          by_contra hge
          rw [Nat.toDigits_of_base_le (by decide) (by omega), List.length_append] at h
          have hpos := Nat.length_toDigits_pos (b := 10) (n := n / 10 / 10)
          simp only [List.length_singleton] at h
          omega
        rw [Nat.toDigits_of_lt_base hlt]
        simp only [List.head?_cons, ne_eq, Option.some.injEq, Nat.digitChar_eq_zero]
        omega

theorem unsigned_toDigits (sign : ℤ) (text : List Char) (n : ℕ) :
    unsigned sign text (Nat.toDigits 10 n) = some (.int (sign * n) : Json) := by
  have hall : ∀ c ∈ Nat.toDigits 10 n, c.isDigit = true := fun c => isDigit_of_mem_toDigits
  have htake : (Nat.toDigits 10 n).takeWhile Char.isDigit = Nat.toDigits 10 n :=
    List.takeWhile_eq_self_iff.mpr hall
  have hdrop : (Nat.toDigits 10 n).dropWhile Char.isDigit = [] :=
    List.dropWhile_eq_nil_iff.mpr hall
  have hvalue : natOf (Nat.toDigits 10 n) = n := Nat.ofDigitChars_ten_toDigits
  have hzero : ((Nat.toDigits 10 n).isEmpty ||
      ((Nat.toDigits 10 n).head? == some '0' && (Nat.toDigits 10 n).length != 1)) = false := by
    have hempty : (Nat.toDigits 10 n).isEmpty = false :=
      List.isEmpty_eq_false_iff.mpr Nat.toDigits_ne_nil
    rcases toDigits_leading n with h | h
    · simp [hempty, h]
    · simp [hempty, h]
  simp only [unsigned, htake, hdrop, hvalue, hzero]
  rfl

theorem toString_int (i : ℤ) : (toString i).toList =
    if i < 0 then '-' :: Nat.toDigits 10 i.natAbs else Nat.toDigits 10 i.natAbs := by
  rw [Int.toString_eq_repr, Int.repr_eq_if]
  split
  · next h =>
    rw [if_neg (by omega), Nat.toList_repr]
    congr 1
    omega
  · next h =>
    rw [if_pos (by omega), String.toList_append, Nat.toList_repr]
    have habs : (-i).toNat = i.natAbs := by omega
    rw [habs]
    rfl

theorem head_toDigits (n : ℕ) : ∃ c rest, Nat.toDigits 10 n = c :: rest ∧ c.isDigit = true := by
  cases h : Nat.toDigits 10 n with
  | nil => exact absurd h Nat.toDigits_ne_nil
  | cons c rest =>
    exact ⟨c, rest, rfl, isDigit_of_mem_toDigits (n := n) (by rw [h]; exact List.mem_cons_self)⟩

theorem number_int (i : ℤ) : number (toString i).toList = some (.int i : Json) := by
  rw [toString_int]
  split
  · next h =>
    rw [number, unsigned_toDigits]
    congr 2
    omega
  · next h =>
    obtain ⟨c, rest, hdigits, hc⟩ := head_toDigits i.natAbs
    have hplain : (number (Nat.toDigits 10 i.natAbs) : Option Json) =
        unsigned 1 (Nat.toDigits 10 i.natAbs) (Nat.toDigits 10 i.natAbs) := by
      rw [number]
      rintro text heq
      rw [hdigits, List.cons.injEq] at heq
      rw [heq.1] at hc
      exact absurd hc (by decide)
    rw [hplain, unsigned_toDigits]
    congr 2
    omega

theorem atom_int (i : ℤ) : atom (toString i).toList = some (.int i : Json) := by
  have hword : ∀ text : String, text.toList.head? ≠ some '-' →
      text.toList.head?.any Char.isDigit = false → String.ofList (toString i).toList ≠ text := by
    rintro text hminus hdigit rfl
    rw [String.toList_ofList, toString_int] at hminus hdigit
    obtain ⟨c, rest, hdigits, hc⟩ := head_toDigits i.natAbs
    split at hminus
    · exact hminus rfl
    · next h =>
      rw [if_neg h, hdigits, List.head?_cons, Option.any_some, hc] at hdigit
      cases hdigit
  have hminus : String.ofList (toString i).toList ≠ "-Infinity" := by
    intro heq
    have hlist := congrArg String.toList heq
    rw [String.toList_ofList, toString_int] at hlist
    obtain ⟨c, rest, hdigits, hc⟩ := head_toDigits i.natAbs
    split at hlist
    · rw [hdigits] at hlist
      obtain rfl : c = 'I' := (List.cons.inj (List.cons.inj hlist).2).1
      exact absurd hc (by decide)
    · rw [hdigits] at hlist
      obtain rfl : c = '-' := (List.cons.inj hlist).1
      exact absurd hc (by decide)
  unfold atom
  split
  · next h => exact absurd h (hword _ (by decide) (by decide))
  · next h => exact absurd h (hword _ (by decide) (by decide))
  · next h => exact absurd h (hword _ (by decide) (by decide))
  · next h => exact absurd h (hword _ (by decide) (by decide))
  · next h => exact absurd h (hword _ (by decide) (by decide))
  · next h => exact absurd h hminus
  · exact number_int i

theorem inWord_int (i : ℤ) : ∀ c ∈ (toString i).toList, InWord c := by
  rw [toString_int]
  split
  · intro c hc
    rcases List.mem_cons.mp hc with rfl | hc
    · exact ⟨by decide, by decide, by decide⟩
    · exact isDigit_inWord (isDigit_of_mem_toDigits hc)
  · exact fun c hc => isDigit_inWord (isDigit_of_mem_toDigits hc)

theorem toString_int_ne_nil (i : ℤ) : (toString i).toList ≠ [] := by
  rw [toString_int]
  split
  · exact List.cons_ne_nil _ _
  · exact Nat.toDigits_ne_nil

/-! ## 5. What was written is read back -/

/-- A value without a float. -/
inductive Plain : Json → Prop
  | null : Plain .null
  | bool (b : Bool) : Plain (.bool b)
  | int (i : ℤ) : Plain (.int i)
  | str (s : String) : Plain (.str s)
  | arr {items : List Json} (h : ∀ v ∈ items, Plain v) : Plain (.arr items)
  | obj {fields : Fields} (hkeys : (fields.map Prod.fst).Nodup)
      (h : ∀ p ∈ fields, Plain p.2) : Plain (.obj fields)

/-- A value that is read back wherever it is written. -/
def ReadBack (layout : Layout) (enc : Char → List Char) (v : Json) : Prop :=
  ∀ depth open_ e cs, Expecting.isValue e → Ends cs →
    scan .none .nothing (.reading open_ e) (write layout enc depth v ++ cs) =
      give v open_ >>= fun st => scan .none .nothing st cs

variable {layout : Layout} {enc : Char → List Char}

/-- Without limits each word is read. -/
theorem spelled_of_atom {text : List Char} {v : Json} (h : atom text = some v) :
    spelled .none text = .ok v := by
  unfold spelled
  rw [h]
  rfl

/-- A word that spells a value is read back. -/
theorem readBack_word {text : List Char} {v : Json} (hne : text ≠ []) (h : ∀ c ∈ text, InWord c)
    (hatom : atom text = some v) (open_ : List (Frame String)) {e : Expecting} (he : e.isValue)
    {cs : List Char} (hcs : Ends cs) :
    scan .none .nothing (.reading open_ e) (text ++ cs) =
      give v open_ >>= fun st => scan .none .nothing st cs := by
  rw [scan_word hne h _ hcs]
  rcases he with rfl | rfl
  · rw [word, spelled_of_atom hatom, ok_bind]
  · rw [word, spelled_of_atom hatom, ok_bind]

theorem writeItems_cons (depth : ℕ) (v w : Json) (items : List Json) :
    writeItems layout enc depth (v :: w :: items) = write layout enc depth v ++
      ',' :: (layout.comma depth ++ writeItems layout enc depth (w :: items)) := by
  rw [writeItems]
  exact fun h => List.cons_ne_nil _ _ h

/-- A list's items are read back, to its end. -/
theorem scan_items {items : List Json} (hne : items ≠ []) (h : ∀ v ∈ items, ReadBack layout enc v)
    (depth : ℕ) (before : List Json) (open_ : List (Frame String)) {e : Expecting} (he : e.isValue)
    (cs : List Char) :
    scan .none .nothing (.reading (.arr before :: open_) e)
        (writeItems layout enc depth items ++ (layout.closing depth ++ ']' :: cs)) =
      give (.arr (before ++ items)) open_ >>= fun st => scan .none .nothing st cs := by
  have hend : Ends (layout.closing depth ++ ']' :: cs) :=
    (layout.closing_white depth).ends (ends_mark (by decide) cs)
  induction items generalizing before e with
  | nil => exact absurd rfl hne
  | cons v items ih =>
    obtain ⟨hv, hitems⟩ := List.forall_mem_cons.mp h
    cases items with
    | nil =>
      rw [writeItems, hv _ _ _ _ he hend]
      simp only [give, ok_bind]
      rw [(layout.closing_white depth).scan, scan_mark (by decide) (by decide)]
      rfl
    | cons w items =>
      have hgive : give v (.arr before :: open_) =
          .ok (.reading (.arr (before ++ [v]) :: open_) .commaOrEnd) := rfl
      have hcomma : mark .none ',' (.reading (.arr (before ++ [v]) :: open_) .commaOrEnd) =
          .ok (.reading (.arr (before ++ [v]) :: open_) .value) := rfl
      have hrest := ih (List.cons_ne_nil w items) hitems (before ++ [v]) (Or.inl rfl)
      rw [List.append_assoc, List.singleton_append] at hrest
      rw [writeItems_cons, List.append_assoc, List.cons_append, List.append_assoc,
        hv _ _ _ _ he (ends_mark (by decide) _), hgive, ok_bind,
        scan_mark (by decide) (by decide), hcomma, ok_bind,
        (layout.comma_white depth).scan, hrest]

theorem writeFields_cons (depth : ℕ) (key : String) (v : Json) (field : String × Json)
    (fields : Fields) : writeFields layout enc depth ((key, v) :: field :: fields) =
      quoted enc key ++ ':' :: (layout.colon ++ (write layout enc depth v ++
        ',' :: (layout.comma depth ++ writeFields layout enc depth (field :: fields)))) := by
  rw [writeFields]
  exact fun h => List.cons_ne_nil _ _ h

/-- A field is read back, up to its value's end. -/
theorem scan_field (henc : Undone enc) {v : Json} (hv : ReadBack layout enc v) {before : Fields}
    {key : String} (hkey : key ∉ before.map Prod.fst) (depth : ℕ) (open_ : List (Frame String))
    {e : Expecting} (he : e = .key ∨ e = .keyOrEnd) {cs : List Char} (hcs : Ends cs) :
    scan .none .nothing (.reading (.obj before :: open_) e)
        (quoted enc key ++ ':' :: (layout.colon ++ (write layout enc depth v ++ cs))) =
      scan .none .nothing (.reading (.obj (before ++ [(key, v)]) :: open_) .commaOrEnd) cs := by
  have hstring : string key (.reading (.obj before :: open_) e) =
      .ok (.reading (.member key :: .obj before :: open_) .colon) := by
    rcases he with rfl | rfl
    · rfl
    · rfl
  rw [scan_quoted henc.exactly, id_eq, hstring, ok_bind, scan_mark (by decide) (by decide)]
  have hcolon : mark .none ':' (.reading (.member key :: .obj before :: open_) .colon) =
      .ok (.reading (.member key :: .obj before :: open_) .value) := rfl
  rw [hcolon, ok_bind, layout.colon_white.scan, hv _ _ _ _ (Or.inl rfl) hcs, give,
    setField_fresh hkey, ok_bind]

/-- A dict's fields are read back, to its end. -/
theorem scan_fields (henc : Undone enc) {fields : Fields} (hne : fields ≠ [])
    (h : ∀ p ∈ fields, ReadBack layout enc p.2) (depth : ℕ) (before : Fields)
    (hkeys : ((before ++ fields).map Prod.fst).Nodup) (open_ : List (Frame String)) {e : Expecting}
    (he : e = .key ∨ e = .keyOrEnd) (cs : List Char) :
    scan .none .nothing (.reading (.obj before :: open_) e)
        (writeFields layout enc depth fields ++ (layout.closing depth ++ '}' :: cs)) =
      give (.obj (before ++ fields)) open_ >>= fun st => scan .none .nothing st cs := by
  have hend : Ends (layout.closing depth ++ '}' :: cs) :=
    (layout.closing_white depth).ends (ends_mark (by decide) cs)
  induction fields generalizing before e with
  | nil => exact absurd rfl hne
  | cons field fields ih =>
    obtain ⟨key, v⟩ := field
    obtain ⟨hv, hfields⟩ := List.forall_mem_cons.mp h
    have hfresh : key ∉ before.map Prod.fst := by
      intro hmem
      rw [List.map_append, List.map_cons] at hkeys
      exact (List.nodup_append.mp hkeys).2.2 key hmem key List.mem_cons_self rfl
    cases fields with
    | nil =>
      rw [writeFields, List.append_assoc, List.cons_append, List.append_assoc,
        scan_field henc hv hfresh depth open_ he hend, (layout.closing_white depth).scan,
        scan_mark (by decide) (by decide)]
      rfl
    | cons field fields =>
      have htext : writeFields layout enc depth ((key, v) :: field :: fields) ++
          (layout.closing depth ++ '}' :: cs) =
          quoted enc key ++ ':' :: (layout.colon ++ (write layout enc depth v ++
            ',' :: (layout.comma depth ++ (writeFields layout enc depth (field :: fields) ++
              (layout.closing depth ++ '}' :: cs))))) := by
        rw [writeFields_cons]
        simp
      rw [htext, scan_field henc hv hfresh depth open_ he (ends_mark (by decide) _),
        scan_mark (by decide) (by decide)]
      have hsplit : before ++ (key, v) :: field :: fields =
          (before ++ [(key, v)]) ++ field :: fields := by simp
      rw [hsplit] at hkeys ⊢
      have hcomma : mark .none ',' (.reading (.obj (before ++ [(key, v)]) :: open_) .commaOrEnd) =
          .ok (.reading (.obj (before ++ [(key, v)]) :: open_) .key) := rfl
      rw [hcomma, ok_bind, (layout.comma_white depth).scan]
      exact ih (List.cons_ne_nil field fields) hfields _ hkeys (Or.inl rfl)

theorem within_cons (layout : Layout) (depth : ℕ) (inner cs : List Char) :
    layout.within depth false inner ++ cs =
      layout.opening depth ++ (inner ++ (layout.closing depth ++ cs)) := by
  simp [Layout.within]

theorem Plain.readBack (henc : Undone enc) {v : Json} (h : Plain v) : ReadBack layout enc v := by
  induction h with
  | null =>
    intro depth open_ e cs he hcs
    rw [write]
    exact readBack_word (by decide) (inWord_of_all rfl) rfl open_ he hcs
  | bool b =>
    intro depth open_ e cs he hcs
    cases b with
    | false =>
      rw [write]
      exact readBack_word (by decide) (inWord_of_all rfl) rfl open_ he hcs
    | true =>
      rw [write]
      exact readBack_word (by decide) (inWord_of_all rfl) rfl open_ he hcs
  | int i =>
    intro depth open_ e cs he hcs
    exact readBack_word (toString_int_ne_nil i) (inWord_int i) (atom_int i) open_ he hcs
  | str s =>
    intro depth open_ e cs he _
    rw [write, scan_quoted henc.exactly]
    rcases he with rfl | rfl
    · rfl
    · rfl
  | @arr items _ ih =>
    intro depth open_ e cs he _
    rw [write, List.cons_append, List.append_assoc, List.singleton_append,
      scan_mark (by decide) (by decide)]
    have hopen : mark .none '[' (.reading open_ e) =
        .ok (.reading (.arr [] :: open_) .valueOrEnd) := by
      rcases he with rfl | rfl
      · rfl
      · rfl
    rw [hopen, ok_bind]
    cases items with
    | nil =>
      rw [Layout.within, List.isEmpty_nil, if_pos rfl, List.nil_append,
        scan_mark (by decide) (by decide)]
      rfl
    | cons v items =>
      rw [List.isEmpty_cons, within_cons, (layout.opening_white _).scan]
      exact scan_items (List.cons_ne_nil v items) ih (depth + 1) [] open_ (Or.inr rfl) cs
  | @obj fields hkeys _ ih =>
    intro depth open_ e cs he _
    rw [write, List.cons_append, List.append_assoc, List.singleton_append,
      scan_mark (by decide) (by decide)]
    have hopen : mark .none '{' (.reading open_ e) =
        .ok (.reading (.obj [] :: open_) .keyOrEnd) := by
      rcases he with rfl | rfl
      · rfl
      · rfl
    rw [hopen, ok_bind]
    cases fields with
    | nil =>
      rw [Layout.within, List.isEmpty_nil, if_pos rfl, List.nil_append,
        scan_mark (by decide) (by decide)]
      rfl
    | cons field fields =>
      rw [List.isEmpty_cons, within_cons, (layout.opening_white _).scan]
      exact scan_fields henc (List.cons_ne_nil field fields) ih (depth + 1) [] hkeys open_
        (Or.inr rfl) cs

/-- **What was written is read back**, whatever its layout. -/
theorem loads_write (layout : Layout) (henc : Undone enc) {v : Json} (h : Plain v) :
    loads (write layout enc 0 v) = some v := by
  have hback : ReadBack layout enc v := h.readBack henc
  have hscan := hback 0 [] .value [] (Or.inl rfl) trivial
  rw [List.append_nil] at hscan
  rw [loads, JsonCodec.read, hscan]
  rfl

end BasecradleRouter.Lib.JsonLayout
