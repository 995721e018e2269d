/-
# JSON that was written is read back

Whatever a character is escaped into is read as pieces: itself, a code unit or two of them.  Where
these spell the character's code point (`Undone`), a string is read back as it was, but that a
surrogate that stands alone before another may make a pair with it (`rejoined`).

So a value of strings, lists and dicts is read back with its strings respelled (`read_dumps`), and
in Lean's own strings, which hold no surrogate, as it was (`loads_dumps`).  Replacing characters of
the text is another escape (`dumps_flatMap`).
-/
import BasecradleRouter.Lib.JsonCodec

namespace BasecradleRouter.Lib.JsonCodec

open JsonString

/-! ## 1. An escape and its undoing -/

/-- A text that is read as these pieces within a string. -/
structure Reads (text : List Char) (pieces : List Piece) : Prop where
  scan : ∀ {σ α : Type} [Spelled σ α] [DecidableEq σ] (limits : Limits) (before : List Piece)
    (st : State σ) (cs : List Char), scan limits (.string before) st (text ++ cs) =
      scan limits (.string (pieces.reverse ++ before)) st cs

theorem Reads.nil : Reads [] [] := ⟨fun _ _ _ _ => rfl⟩

theorem Reads.append {text text' : List Char} {pieces pieces' : List Piece}
    (h : Reads text pieces) (h' : Reads text' pieces') :
    Reads (text ++ text') (pieces ++ pieces') := by
  refine ⟨fun limits before st cs => ?_⟩
  rw [List.append_assoc, h.scan, h'.scan, List.reverse_append, List.append_assoc]

/-- An escape by which each string is read back as another. -/
def Respells {σ α : Type} [Spelled σ α] (enc : α → List Char) (f : σ → σ) : Prop :=
  ∀ s : σ, ∃ pieces, Reads ((Spelled.letters s).flatMap enc) pieces ∧
    Spelled.spell (join pieces) = f s

/-- The pieces a code point is escaped into. -/
inductive Spells : ℕ → List Piece → Prop
  | point {n : ℕ} (hhigh : high n = false) (hlow : low n = false) : Spells n [.point n]
  | unit {n : ℕ} (hsmall : n < 0x10000) : Spells n [.unit n]
  | pair {n : ℕ} (hlarge : 0x10000 ≤ n) (hlt : n < 0x110000) :
      Spells n [.unit (0xd800 + (n - 0x10000) / 0x400), .unit (0xdc00 + (n - 0x10000) % 0x400)]

/-- An escape that the reader undoes, code point by code point. -/
def Undone {α : Type} [Coded α] (enc : α → List Char) : Prop :=
  ∀ c, ∃ pieces, Reads (enc c) pieces ∧ Spells (Coded.point c) pieces

/-- A code unit stands for itself, before what is no second surrogate or if it is no first. -/
theorem join_unit {n : ℕ} {after : List Piece}
    (h : high n = true → ∀ m rest, after = .unit m :: rest → low m = false) :
    join (.unit n :: after) = n :: join after := by
  cases after with
  | nil => rfl
  | cons piece after =>
    cases piece with
    | point m => rfl
    | unit m =>
      have hpair : (high n && low m) = false := by
        cases hhigh : high n with
        | false => rfl
        | true => exact h hhigh m after rfl
      rw [join, hpair, if_neg Bool.false_ne_true]

/-- Two surrogates are the code point they encode. -/
theorem join_pair {n m : ℕ} (hn : high n = true) (hm : low m = true) (after : List Piece) :
    join (.unit n :: .unit m :: after) = paired n m :: join after := by
  rw [join, hn, hm, Bool.and_self, if_pos rfl]

/-- The surrogates of a code point outside the Basic Multilingual Plane. -/
theorem surrogates {n : ℕ} (hn : 0x10000 ≤ n) (hlt : n < 0x110000) :
    high (0xd800 + (n - 0x10000) / 0x400) = true ∧ low (0xdc00 + (n - 0x10000) % 0x400) = true ∧
      paired (0xd800 + (n - 0x10000) / 0x400) (0xdc00 + (n - 0x10000) % 0x400) = n := by
  refine ⟨?_, ?_, ?_⟩
  · rw [high, Bool.and_eq_true, decide_eq_true_eq, decide_eq_true_eq]
    omega
  · rw [low, Bool.and_eq_true, decide_eq_true_eq, decide_eq_true_eq]
    omega
  · unfold paired
    omega

theorem hexValue_digitChar : ∀ n < 16, hexValue (Nat.digitChar n) = some n := by decide

section

variable {σ α : Type} [Spelled σ α] [DecidableEq σ]

theorem scan_digit (limits : Limits) (before : List Piece) (digits n k : ℕ) (st : State σ)
    (cs : List Char) :
    scan limits (.hex before digits n) st (Nat.digitChar (k % 16) :: cs) =
      if digits = 3 then scan limits (.string (.unit (16 * n + k % 16) :: before)) st cs
      else scan limits (.hex before (digits + 1) (16 * n + k % 16)) st cs := by
  rw [scan, view_char, hexValue_digitChar _ (Nat.mod_lt _ (by decide))]

end

/-- Four digits are one code unit. -/
theorem reads_unicode {n : ℕ} (hn : n < 0x10000) : Reads (unicode n) [.unit n] := by
  refine ⟨fun limits before st cs => ?_⟩
  have hbackslash : ('\\' : Char) ≠ '"' := by decide
  have hsum : 16 * (16 * (16 * (16 * 0 + n / 0x1000 % 16) + n / 0x100 % 16) + n / 0x10 % 16) +
      n % 16 = n := by omega
  simp only [unicode, List.cons_append, List.nil_append]
  rw [scan, view_char, if_neg hbackslash, if_pos rfl, scan, view_char, if_pos rfl, scan_digit,
    if_neg (by decide), scan_digit, if_neg (by decide), scan_digit, if_neg (by decide), scan_digit,
    if_pos (by rfl), hsum]
  rfl

/-- A short escape is one character. -/
theorem scan_short : ∀ p ∈ shortEscapes, p.2 ≠ 'u' ∧ unescapes.lookup p.2 = some p.1 := by decide

/-- What is escaped by a letter. -/
theorem reads_short {c letter : Char} (h : shortEscapes.lookup c = some letter) :
    Reads ['\\', letter] [.point c.toNat] := by
  refine ⟨fun limits before st cs => ?_⟩
  obtain ⟨hletter, hlookup⟩ := scan_short _ (mem_shortEscapes h)
  have hbackslash : ('\\' : Char) ≠ '"' := by decide
  dsimp only at hletter hlookup
  rw [List.cons_append, List.cons_append, scan, view_char, if_neg hbackslash, if_pos rfl, scan,
    view_char, if_neg hletter, hlookup]
  rfl

/-- What is not escaped. -/
theorem reads_self {c : Char} (h : shortEscapes.lookup c = none) (hprintable : printable c = true) :
    Reads [c] [.point c.toNat] := by
  refine ⟨fun limits before st cs => ?_⟩
  have hquote : c ≠ '"' := by
    rintro rfl
    exact absurd h (by decide)
  have hbackslash : c ≠ '\\' := by
    rintro rfl
    exact absurd h (by decide)
  have hcontrol : ¬ c.toNat < 0x20 := by
    simp only [printable, Bool.and_eq_true, decide_eq_true_eq] at hprintable
    exact Nat.not_lt.mpr hprintable.1
  rw [List.singleton_append, scan, view_char, if_neg hquote, if_neg hbackslash, if_neg hcontrol]
  rfl

/-- The code points of a string as JSON text has them: a pair of surrogates is one. -/
def joined : List ℕ → List ℕ
  | [] => []
  | [n] => [n]
  | n :: m :: ns => if high n && low m then paired n m :: joined ns else n :: joined (m :: ns)

/-- Where no second surrogate follows, what a code point is escaped into stands for it. -/
theorem Spells.join {n : ℕ} {pieces after : List Piece} (h : Spells n pieces)
    (hafter : high n = true → ∀ m rest, after = .unit m :: rest → low m = false) :
    JsonCodec.join (pieces ++ after) = n :: JsonCodec.join after := by
  cases h with
  | point hhigh hlow => rfl
  | unit hsmall => exact join_unit hafter
  | pair hlarge hlt =>
    obtain ⟨hhigh, hlow, hpaired⟩ := surrogates hlarge hlt
    rw [List.cons_append, List.singleton_append, join_pair hhigh hlow, hpaired]

/-- What does not begin with a second surrogate is not escaped into one. -/
theorem Spells.low {n m : ℕ} {pieces rest : List Piece} (h : Spells n pieces)
    (hn : low n = false) (hpieces : pieces = .unit m :: rest) : low m = false := by
  cases h with
  | point hhigh hlow => cases hpieces
  | unit hsmall =>
    cases hpieces
    exact hn
  | pair hlarge hlt =>
    cases hpieces
    simp only [Lib.low, Bool.and_eq_false_iff, decide_eq_false_iff_not]
    omega

theorem Spells.ne_nil {n : ℕ} {pieces : List Piece} (h : Spells n pieces) : pieces ≠ [] := by
  cases h <;> exact List.cons_ne_nil _ _

/-- A surrogate is escaped as one code unit. -/
theorem Spells.eq_unit {n : ℕ} {pieces : List Piece} (h : Spells n pieces)
    (hn : high n = true ∨ Lib.low n = true) : pieces = [.unit n] := by
  cases h with
  | point hhigh hlow => simp [hhigh, hlow] at hn
  | unit hsmall => rfl
  | pair hlarge hlt =>
    simp only [high, Lib.low, Bool.and_eq_true, decide_eq_true_eq] at hn
    omega

/-- **What a string's code points are escaped into comes to its code points**, pairs of surrogates
joined. -/
theorem join_spelled {ns : List ℕ} {spelled : List (List Piece)}
    (h : List.Forall₂ Spells ns spelled) : join spelled.flatten = joined ns := by
  induction ns using joined.induct generalizing spelled with
  | case1 =>
    cases h
    rfl
  | case2 n =>
    cases h with
    | cons hn hrest =>
      cases hrest
      have hend : high n = true → ∀ m rest, ([] : List Piece) = .unit m :: rest →
          Lib.low m = false := nofun
      have hjoin := hn.join hend
      rw [List.append_nil] at hjoin
      rw [List.flatten_singleton, hjoin]
      rfl
  | case3 n m ns hpair ih =>
    rw [Bool.and_eq_true] at hpair
    cases h with
    | cons hn hrest =>
      cases hrest with
      | cons hm hrest =>
        rw [hn.eq_unit (Or.inl hpair.1), hm.eq_unit (Or.inr hpair.2), List.flatten_cons,
          List.flatten_cons, List.singleton_append, List.singleton_append,
          join_pair hpair.1 hpair.2, ih hrest, joined, if_pos (Bool.and_eq_true _ _ ▸ hpair)]
  | case4 n m ns hpair ih =>
    cases h with
    | @cons _ pieces _ spelled hn hrest =>
      -- what follows the first surrogate is what `m` is escaped into, and `m` is no second one
      have hafter : high n = true → ∀ k rest, spelled.flatten = .unit k :: rest →
          Lib.low k = false := by
        intro hhigh k rest hflat
        have hlow : Lib.low m = false := by simpa [hhigh] using hpair
        cases hrest with
        | @cons _ pieces' _ spelled' hm hrest' =>
          obtain ⟨piece, pieces', rfl⟩ := List.exists_cons_of_ne_nil hm.ne_nil
          rw [List.flatten_cons, List.cons_append, List.cons.injEq] at hflat
          exact hm.low hlow (by rw [hflat.1])
      rw [List.flatten_cons, hn.join hafter, ih hrest, joined, if_neg hpair]

/-- A string as it is read back from JSON text. -/
def rejoined {σ α : Type} [Spelled σ α] [Coded α] (s : σ) : σ :=
  Spelled.spell (joined ((Spelled.letters s).map Coded.point))

/-- **An escape that is undone leaves each string as it is**, but that surrogates are joined. -/
theorem Undone.respells {σ α : Type} [Spelled σ α] [Coded α] {enc : α → List Char}
    (henc : Undone enc) : Respells enc (rejoined : σ → σ) := by
  have hpieces : ∀ letters : List α, ∃ spelled, Reads (letters.flatMap enc) spelled.flatten ∧
      List.Forall₂ Spells (letters.map Coded.point) spelled := by
    intro letters
    induction letters with
    | nil => exact ⟨[], .nil, .nil⟩
    | cons c letters ih =>
      obtain ⟨pieces, hreads, hspells⟩ := henc c
      obtain ⟨spelled, hreads', hspells'⟩ := ih
      exact ⟨pieces :: spelled, hreads.append hreads', .cons hspells hspells'⟩
  intro s
  obtain ⟨spelled, hreads, hspells⟩ := hpieces (Spelled.letters s)
  exact ⟨_, hreads, by rw [join_spelled hspells, rejoined]⟩

/-- Without surrogates there is nothing to join. -/
theorem joined_of_high {ns : List ℕ} (h : ∀ n ∈ ns, high n = false) : joined ns = ns := by
  induction ns using joined.induct with
  | case1 => rfl
  | case2 n => rfl
  | case3 n m ns hpair ih =>
    rw [h n List.mem_cons_self] at hpair
    cases hpair
  | case4 n m ns hpair ih =>
    rw [joined, if_neg hpair, ih fun k hk => h k (List.mem_cons_of_mem n hk)]

theorem rejoined_string (s : String) : rejoined s = s := by
  have hhigh : ∀ n ∈ s.toList.map Char.toNat, high n = false := by
    intro n hn
    obtain ⟨c, -, rfl⟩ := List.mem_map.mp hn
    exact high_toNat c
  have hchars : charOf ∘ Char.toNat = id := funext charOf_toNat
  show String.ofList ((joined (s.toList.map Char.toNat)).map charOf) = s
  rw [joined_of_high hhigh, List.map_map, hchars, List.map_id, String.ofList_toList]

/-- A `String` is read back as it was. -/
theorem Undone.exactly {enc : Char → List Char} (henc : Undone enc) :
    Respells enc (id : String → String) := by
  have hsame : (rejoined : String → String) = id := funext rejoined_string
  rw [← hsame]
  exact henc.respells

theorem undone_escape : Undone escape := by
  intro c
  unfold escape
  cases hshort : shortEscapes.lookup c with
  | some letter => exact ⟨_, reads_short hshort, .point (high_toNat c) (low_toNat c)⟩
  | none =>
    dsimp only
    split
    · next hprintable =>
      exact ⟨_, reads_self hshort hprintable, .point (high_toNat c) (low_toNat c)⟩
    · split
      · next hsmall => exact ⟨_, reads_unicode hsmall, .unit hsmall⟩
      · next hlarge =>
        have hlt := toNat_lt c
        exact ⟨_, (reads_unicode (by omega)).append (reads_unicode (by omega)),
          .pair (Nat.not_lt.mp hlarge) hlt⟩

/-! ## 2. What was written is read back -/

section

variable {σ α : Type}

mutual

/-- A value as it is read back, each of its strings as another. -/
def respelled [DecidableEq σ] (f : σ → σ) : Json σ → Json σ
  | .str s => .str (f s)
  | .arr items => .arr (respelledItems f items)
  | .obj fields => .obj (respelledFields f fields [])
  | v => v

def respelledItems [DecidableEq σ] (f : σ → σ) : List (Json σ) → List (Json σ)
  | [] => []
  | v :: items => respelled f v :: respelledItems f items

/-- Of a key that comes again the last value, in the place of the first. -/
def respelledFields [DecidableEq σ] (f : σ → σ) : List (σ × Json σ) → Fields σ → Fields σ
  | [], before => before
  | (key, v) :: fields, before =>
    respelledFields f fields (setField before (f key) (respelled f v))

end

mutual

/-- How many containers lie within each other. -/
def levels : Json σ → ℕ
  | .arr items => levelsItems items + 1
  | .obj fields => levelsFields fields + 1
  | _ => 0

def levelsItems : List (Json σ) → ℕ
  | [] => 0
  | v :: items => max (levels v) (levelsItems items)

def levelsFields : List (σ × Json σ) → ℕ
  | [] => 0
  | (_, v) :: fields => max (levels v) (levelsFields fields)

end

theorem levelsItems_le {items : List (Json σ)} {v : Json σ} (hv : v ∈ items) :
    levels v ≤ levelsItems items := by
  induction items with
  | nil => cases hv
  | cons w items ih =>
    rw [levelsItems]
    rcases List.mem_cons.mp hv with rfl | hv
    · exact le_max_left _ _
    · exact (ih hv).trans (le_max_right _ _)

theorem levelsFields_le {fields : Fields σ} {field : σ × Json σ} (hv : field ∈ fields) :
    levels field.2 ≤ levelsFields fields := by
  induction fields with
  | nil => cases hv
  | cons w fields ih =>
    obtain ⟨key, w⟩ := w
    rw [levelsFields]
    rcases List.mem_cons.mp hv with rfl | hv
    · exact le_max_left _ _
    · exact (ih hv).trans (le_max_right _ _)

/-- A value of strings, lists and dicts. -/
inductive Textual : Json σ → Prop
  | str (s : σ) : Textual (.str s)
  | arr {items : List (Json σ)} (h : ∀ v ∈ items, Textual v) : Textual (.arr items)
  | obj {fields : Fields σ} (hkeys : (fields.map Prod.fst).Nodup)
      (h : ∀ p ∈ fields, Textual p.2) : Textual (.obj fields)

/-- A dict of strings. -/
theorem Textual.strings {items : List (σ × σ)} (hkeys : (items.map Prod.fst).Nodup) :
    Textual (.obj (items.map fun item => (item.1, .str item.2))) := by
  refine .obj ?_ fun field hfield => ?_
  · rw [List.map_map]
    exact hkeys
  · obtain ⟨item, -, rfl⟩ := List.mem_map.mp hfield
    exact .str item.2

/-- Room for so many containers more. -/
def Limits.Room (limits : Limits) (open_ more : ℕ) : Prop :=
  ∀ n ≤ more, limits.nests (open_ + n) = true

variable {limits : Limits}

theorem Limits.Room.mono {open_ more less : ℕ} (h : limits.Room open_ more) (hle : less ≤ more) :
    limits.Room open_ less := fun n hn => h n (hn.trans hle)

theorem Limits.Room.inner {open_ more : ℕ} (h : limits.Room open_ (more + 1)) :
    limits.Room (open_ + 1) more := by
  intro n hn
  rw [Nat.add_right_comm]
  exact h (n + 1) (Nat.succ_le_succ hn)

theorem room_none (open_ more : ℕ) : Limits.none.Room open_ more := fun _ _ => rfl

/-- A container begins where there is room for it. -/
theorem begin_of_room {frame : Frame σ} {expecting : Expecting} {open_ : List (Frame σ)} {more : ℕ}
    (h : limits.Room (depth open_) (more + 1)) :
    begin limits frame expecting open_ = .ok (.reading (frame :: open_) expecting) :=
  if_pos (h 1 (Nat.le_add_left 1 more))

variable [Spelled σ α]

theorem dumpsItems_cons (enc : α → List Char) (v w : Json σ) (items : List (Json σ)) :
    dumpsItems enc (v :: w :: items) = dumps enc v ++ ',' :: dumpsItems enc (w :: items) := by
  rw [dumpsItems]
  exact fun h => List.cons_ne_nil _ _ h

theorem dumpsFields_cons (enc : α → List Char) (key : σ) (v : Json σ)
    (field : σ × Json σ) (fields : Fields σ) : dumpsFields enc ((key, v) :: field :: fields) =
      quoted enc key ++ ':' :: dumps enc v ++ ',' :: dumpsFields enc (field :: fields) := by
  rw [dumpsFields]
  exact fun h => List.cons_ne_nil _ _ h

variable [DecidableEq σ] {enc : α → List Char} {f : σ → σ}

/-- A string that was written is read back. -/
theorem scan_quoted (henc : Respells enc f) (s : σ) (st : State σ) (cs : List Char) :
    scan limits .nothing st (quoted enc s ++ cs) =
      string (f s) st >>= fun st => scan limits .nothing st cs := by
  obtain ⟨pieces, hreads, hspell⟩ := henc s
  have hwhite : isWhite '"' = false := by decide
  have hmark : isMark '"' = false := by decide
  have hnil : (pieces.reverse ++ []).reverse = pieces := by simp
  rw [quoted, List.cons_append, scan, view_char, hwhite, hmark, if_neg Bool.false_ne_true,
    if_neg Bool.false_ne_true, if_pos rfl, List.append_assoc, hreads.scan, List.singleton_append,
    scan, view_char, if_pos rfl, hnil, hspell]

/-- Where a value may come. -/
def Expecting.isValue (e : Expecting) : Prop := e = .value ∨ e = .valueOrEnd

/-- A value that is read back wherever it is written. -/
def ReadBack (limits : Limits) (enc : α → List Char) (f : σ → σ) (v : Json σ) : Prop :=
  ∀ open_ e cs, Expecting.isValue e → limits.Room (depth open_) (levels v) →
    scan limits .nothing (.reading open_ e) (dumps enc v ++ cs) =
      give (respelled f v) open_ >>= fun st => scan limits .nothing st cs

theorem scan_mark {c : Char} (hwhite : isWhite c = false) (hmark : isMark c = true) (st : State σ)
    (cs : List Char) : scan limits .nothing st (c :: cs) =
      mark limits c st >>= fun st => scan limits .nothing st cs := by
  rw [scan, view_char, hwhite, if_neg Bool.false_ne_true, hmark, if_pos rfl]

theorem scan_items {items : List (Json σ)} (hne : items ≠ [])
    (h : ∀ v ∈ items, ReadBack limits enc f v) (before : List (Json σ)) (open_ : List (Frame σ))
    {e : Expecting} (he : e.isValue) (hroom : limits.Room (depth open_ + 1) (levelsItems items))
    (cs : List Char) :
    scan limits .nothing (.reading (.arr before :: open_) e) (dumpsItems enc items ++ ']' :: cs) =
      give (.arr (before ++ respelledItems f items)) open_ >>= fun st =>
        scan limits .nothing st cs := by
  induction items generalizing before e with
  | nil => exact absurd rfl hne
  | cons v items ih =>
    obtain ⟨hv, hitems⟩ := List.forall_mem_cons.mp h
    rw [levelsItems] at hroom
    have hhead := hv (.arr before :: open_) e
    cases items with
    | nil =>
      rw [dumpsItems, hhead _ he (hroom.mono (le_max_left _ _)), give, ok_bind,
        scan_mark (by decide) (by decide)]
      rfl
    | cons w items =>
      rw [dumpsItems_cons, List.append_assoc, hhead _ he (hroom.mono (le_max_left _ _)), give,
        ok_bind, List.cons_append, scan_mark (by decide) (by decide)]
      have hrest := ih (List.cons_ne_nil w items) hitems (before ++ [respelled f v]) (Or.inl rfl)
        (hroom.mono (le_max_right _ _))
      rw [List.append_assoc, List.singleton_append] at hrest
      exact hrest

/-- A field that was written is read back, up to its value's end. -/
theorem scan_field (henc : Respells enc f) {v : Json σ} (hv : ReadBack limits enc f v)
    (before : Fields σ) (key : σ) (open_ : List (Frame σ)) {e : Expecting}
    (he : e = .key ∨ e = .keyOrEnd) (hroom : limits.Room (depth open_ + 1) (levels v))
    (cs : List Char) :
    scan limits .nothing (.reading (.obj before :: open_) e)
        (quoted enc key ++ ':' :: (dumps enc v ++ cs)) =
      scan limits .nothing
        (.reading (.obj (setField before (f key) (respelled f v)) :: open_) .commaOrEnd) cs := by
  have hstring : string (f key) (.reading (.obj before :: open_) e) =
      .ok (.reading (.member (f key) :: .obj before :: open_) .colon) := by
    rcases he with rfl | rfl
    · rfl
    · rfl
  have hcolon : mark limits ':' (.reading (.member (f key) :: .obj before :: open_) .colon) =
      .ok (.reading (.member (f key) :: .obj before :: open_) .value) := rfl
  rw [scan_quoted henc, hstring, ok_bind, scan_mark (by decide) (by decide), hcolon, ok_bind,
    hv (.member (f key) :: .obj before :: open_) .value _ (Or.inl rfl) hroom, give,
    ok_bind]

theorem scan_fields (henc : Respells enc f) {fields : Fields σ} (hne : fields ≠ [])
    (h : ∀ p ∈ fields, ReadBack limits enc f p.2) (before : Fields σ) (open_ : List (Frame σ))
    {e : Expecting} (he : e = .key ∨ e = .keyOrEnd)
    (hroom : limits.Room (depth open_ + 1) (levelsFields fields)) (cs : List Char) :
    scan limits .nothing (.reading (.obj before :: open_) e) (dumpsFields enc fields ++ '}' :: cs) =
      give (.obj (respelledFields f fields before)) open_ >>= fun st =>
        scan limits .nothing st cs := by
  induction fields generalizing before e with
  | nil => exact absurd rfl hne
  | cons field fields ih =>
    obtain ⟨key, v⟩ := field
    obtain ⟨hv, hfields⟩ := List.forall_mem_cons.mp h
    rw [levelsFields] at hroom
    cases fields with
    | nil =>
      have htext : dumpsFields enc [(key, v)] ++ '}' :: cs =
          quoted enc key ++ ':' :: (dumps enc v ++ '}' :: cs) := by
        rw [dumpsFields, List.append_assoc]
        rfl
      rw [htext, scan_field henc hv before key open_ he (hroom.mono (le_max_left _ _)),
        scan_mark (by decide) (by decide)]
      rfl
    | cons field fields =>
      have htext : dumpsFields enc ((key, v) :: field :: fields) ++ '}' :: cs =
          quoted enc key ++ ':' ::
            (dumps enc v ++ ',' :: (dumpsFields enc (field :: fields) ++ '}' :: cs)) := by
        rw [dumpsFields_cons]
        simp
      rw [htext, scan_field henc hv before key open_ he (hroom.mono (le_max_left _ _)),
        scan_mark (by decide) (by decide)]
      exact ih (List.cons_ne_nil field fields) hfields _ (Or.inl rfl)
        (hroom.mono (le_max_right _ _))

theorem Textual.readBack (henc : Respells enc f) {v : Json σ} (h : Textual v) :
    ReadBack limits enc f v := by
  induction h with
  | str s =>
    intro open_ e cs he _
    rw [dumps, scan_quoted henc]
    rcases he with rfl | rfl
    · rfl
    · rfl
  | @arr items _ ih =>
    intro open_ e cs he hroom
    rw [levels] at hroom
    have hopen : mark limits '[' (.reading open_ e) =
        .ok (.reading (.arr [] :: open_) .valueOrEnd) := by
      rcases he with rfl | rfl
      · exact begin_of_room hroom
      · exact begin_of_room hroom
    rw [dumps, List.cons_append, List.append_assoc, List.singleton_append,
      scan_mark (by decide) (by decide), hopen, ok_bind]
    by_cases hne : items = []
    · rw [hne, dumpsItems, List.nil_append, scan_mark (by decide) (by decide)]
      rfl
    · exact scan_items hne ih [] open_ (Or.inr rfl) hroom.inner cs
  | @obj fields hkeys _ ih =>
    intro open_ e cs he hroom
    rw [levels] at hroom
    have hopen : mark limits '{' (.reading open_ e) =
        .ok (.reading (.obj [] :: open_) .keyOrEnd) := by
      rcases he with rfl | rfl
      · exact begin_of_room hroom
      · exact begin_of_room hroom
    rw [dumps, List.cons_append, List.append_assoc, List.singleton_append,
      scan_mark (by decide) (by decide), hopen, ok_bind]
    by_cases hne : fields = []
    · rw [hne, dumpsFields, List.nil_append, scan_mark (by decide) (by decide)]
      rfl
    · exact scan_fields henc hne ih [] open_ (Or.inr rfl) hroom.inner cs

/-- **What was written is read back**, each of its strings as the escape has it. -/
theorem read_dumps (henc : Respells enc f) {v : Json σ} (h : Textual v)
    (hroom : limits.Room 0 (levels v)) : read limits (dumps enc v) = .ok (respelled f v) := by
  have hscan := h.readBack henc [] .value [] (Or.inl rfl) hroom
  rw [List.append_nil] at hscan
  rw [read, hscan]
  rfl

theorem setField_fresh {fields : Fields σ} {key : σ} (h : key ∉ fields.map Prod.fst)
    (v : Json σ) : setField fields key v = fields ++ [(key, v)] := by
  induction fields with
  | nil => rfl
  | cons field fields ih =>
    rw [List.map_cons, List.mem_cons, not_or] at h
    rw [setField, if_neg (Ne.symm h.1), ih h.2]
    rfl

theorem respelledItems_eq (items : List (Json σ)) :
    respelledItems f items = items.map (respelled f) := by
  induction items with
  | nil => rfl
  | cons v items ih => rw [respelledItems, ih, List.map_cons]

/-- Keys that stay apart all stay. -/
theorem respelledFields_eq {fields before : Fields σ}
    (hkeys : ((before.map Prod.fst) ++ fields.map fun field => f field.1).Nodup) :
    respelledFields f fields before =
      before ++ fields.map fun field => (f field.1, respelled f field.2) := by
  induction fields generalizing before with
  | nil => rw [respelledFields, List.map_nil, List.append_nil]
  | cons field fields ih =>
    obtain ⟨key, v⟩ := field
    rw [List.map_cons, List.append_cons] at hkeys
    have hfresh : f key ∉ before.map Prod.fst := by
      intro hmem
      rw [List.append_assoc] at hkeys
      exact (List.nodup_append.mp hkeys).2.2 _ hmem _ List.mem_cons_self rfl
    rw [respelledFields, setField_fresh hfresh, ih, List.append_assoc, List.map_cons]
    · rfl
    · rw [List.map_append]
      exact hkeys

/-- Where each string is left as it is, so is the value. -/
theorem Textual.respelled_id {v : Json σ} (h : Textual v) : respelled id v = v := by
  induction h with
  | str s => rw [respelled]; rfl
  | @arr items _ ih =>
    rw [respelled, respelledItems_eq, List.map_congr_left ih, List.map_id']
  | @obj fields hkeys _ ih =>
    have hfields : fields.map (fun field => (id field.1, respelled id field.2)) = fields := by
      conv => rhs; rw [← List.map_id' fields]
      exact List.map_congr_left fun field hfield => Prod.ext rfl (ih field hfield)
    rw [respelled, respelledFields_eq, List.nil_append, hfields]
    exact hkeys

end

/-- What was written is read back, where the reader undoes the escape. -/
theorem loads_dumps {enc : Char → List Char} (henc : Undone enc) {v : Json} (h : Textual v) :
    loads (dumps enc v) = some v := by
  rw [loads, read_dumps henc.exactly h (room_none _ _), h.respelled_id]
  rfl

/-! ## 3. Another escape -/

/-- A character may always be escaped by its code point. -/
theorem Undone.congr {α : Type} [Coded α] {enc enc' : α → List Char} (h : Undone enc)
    (henc : ∀ c, enc' c = enc c ∨
      Coded.point c < 0x10000 ∧ enc' c = unicode (Coded.point c)) : Undone enc' := by
  intro c
  rcases henc c with hsame | ⟨hsmall, hcode⟩
  · rw [hsame]
    exact h c
  · rw [hcode]
    exact ⟨_, reads_unicode hsmall, .unit hsmall⟩

/-- The characters a writer adds of its own. -/
def punctuation : List Char := ['"', '{', '}', '[', ']', ',', ':']

section Rewriting

variable {σ α : Type} [Spelled σ α] {enc : α → List Char} {f : Char → List Char}

theorem quoted_flatMap (hf : ∀ c ∈ punctuation, f c = [c]) (s : σ) :
    (quoted enc s).flatMap f = quoted (fun c => (enc c).flatMap f) s := by
  rw [quoted, List.flatMap_cons, List.flatMap_append, List.flatMap_assoc, List.flatMap_singleton,
    hf '"' (by decide)]
  rfl

theorem dumpsItems_flatMap (hf : ∀ c ∈ punctuation, f c = [c]) {items : List (Json σ)}
    (h : ∀ v ∈ items, (dumps enc v).flatMap f = dumps (fun c => (enc c).flatMap f) v) :
    (dumpsItems enc items).flatMap f = dumpsItems (fun c => (enc c).flatMap f) items := by
  induction items with
  | nil => simp only [dumpsItems, List.flatMap_nil]
  | cons v items ih =>
    obtain ⟨hv, hitems⟩ := List.forall_mem_cons.mp h
    cases items with
    | nil => rw [dumpsItems, dumpsItems, hv]
    | cons w items =>
      rw [dumpsItems_cons, dumpsItems_cons, List.flatMap_append, List.flatMap_cons, hv,
        ih hitems, hf ',' (by decide)]
      rfl

theorem dumpsFields_flatMap (hf : ∀ c ∈ punctuation, f c = [c]) {fields : Fields σ}
    (h : ∀ p ∈ fields, (dumps enc p.2).flatMap f = dumps (fun c => (enc c).flatMap f) p.2) :
    (dumpsFields enc fields).flatMap f = dumpsFields (fun c => (enc c).flatMap f) fields := by
  induction fields with
  | nil => simp only [dumpsFields, List.flatMap_nil]
  | cons field fields ih =>
    obtain ⟨key, v⟩ := field
    obtain ⟨hv, hfields⟩ := List.forall_mem_cons.mp h
    cases fields with
    | nil =>
      rw [dumpsFields, dumpsFields, List.flatMap_append, List.flatMap_cons, quoted_flatMap hf, hv,
        hf ':' (by decide)]
      rfl
    | cons field fields =>
      rw [dumpsFields_cons, dumpsFields_cons, List.append_assoc, List.append_assoc,
        List.flatMap_append, List.cons_append, List.flatMap_cons, List.flatMap_append,
        List.flatMap_cons, quoted_flatMap hf, hv, ih hfields, hf ':' (by decide),
        hf ',' (by decide)]
      rfl

/-- Rewriting the characters of the text, the writer's own apart, is rewriting the escape. -/
theorem dumps_flatMap (hf : ∀ c ∈ punctuation, f c = [c]) {v : Json σ} (h : Textual v) :
    (dumps enc v).flatMap f = dumps (fun c => (enc c).flatMap f) v := by
  induction h with
  | str s => rw [dumps, dumps, quoted_flatMap hf]
  | @arr items _ ih =>
    rw [dumps, dumps, List.flatMap_cons, List.flatMap_append, dumpsItems_flatMap hf ih,
      List.flatMap_singleton, hf '[' (by decide), hf ']' (by decide)]
    rfl
  | @obj fields _ _ ih =>
    rw [dumps, dumps, List.flatMap_cons, List.flatMap_append, dumpsFields_flatMap hf ih,
      List.flatMap_singleton, hf '{' (by decide), hf '}' (by decide)]
    rfl

end Rewriting

/-! ## 4. What the text is made of -/

section Characters

variable {σ α : Type} [Spelled σ α] {enc : α → List Char} {p : Char → Prop}

theorem of_mem_quoted (hown : ∀ c ∈ punctuation, p c) (henc : ∀ c, ∀ x ∈ enc c, p x) {s : σ}
    {x : Char} (hx : x ∈ quoted enc s) : p x := by
  rw [quoted, List.mem_cons, List.mem_append, List.mem_flatMap, List.mem_singleton] at hx
  rcases hx with rfl | ⟨c, -, hx⟩ | rfl
  · exact hown _ (by decide)
  · exact henc c x hx
  · exact hown _ (by decide)

theorem of_mem_dumpsItems (hown : ∀ c ∈ punctuation, p c) {items : List (Json σ)}
    (h : ∀ v ∈ items, ∀ x ∈ dumps enc v, p x) : ∀ x ∈ dumpsItems enc items, p x := by
  induction items with
  | nil =>
    intro x hx
    rw [dumpsItems] at hx
    cases hx
  | cons v items ih =>
    obtain ⟨hv, hitems⟩ := List.forall_mem_cons.mp h
    cases items with
    | nil =>
      rw [dumpsItems]
      exact hv
    | cons w items =>
      intro x hx
      rw [dumpsItems_cons, List.mem_append, List.mem_cons] at hx
      rcases hx with hx | rfl | hx
      · exact hv x hx
      · exact hown _ (by decide)
      · exact ih hitems x hx

theorem of_mem_dumpsFields (hown : ∀ c ∈ punctuation, p c) (henc : ∀ c, ∀ x ∈ enc c, p x)
    {fields : Fields σ} (h : ∀ field ∈ fields, ∀ x ∈ dumps enc field.2, p x) :
    ∀ x ∈ dumpsFields enc fields, p x := by
  induction fields with
  | nil =>
    intro x hx
    rw [dumpsFields] at hx
    cases hx
  | cons field fields ih =>
    obtain ⟨key, v⟩ := field
    obtain ⟨hv, hfields⟩ := List.forall_mem_cons.mp h
    have hfirst : ∀ x ∈ quoted enc key ++ ':' :: dumps enc v, p x := by
      intro x hx
      rw [List.mem_append, List.mem_cons] at hx
      rcases hx with hx | rfl | hx
      · exact of_mem_quoted hown henc hx
      · exact hown _ (by decide)
      · exact hv x hx
    cases fields with
    | nil =>
      rw [dumpsFields]
      exact hfirst
    | cons field fields =>
      intro x hx
      rw [dumpsFields_cons, List.mem_append, List.mem_cons] at hx
      rcases hx with hx | rfl | hx
      · exact hfirst x hx
      · exact hown _ (by decide)
      · exact ih hfields x hx

/-- Each character is the writer's own or an escape's. -/
theorem of_mem_dumps (hown : ∀ c ∈ punctuation, p c) (henc : ∀ c, ∀ x ∈ enc c, p x) {v : Json σ}
    (h : Textual v) : ∀ x ∈ dumps enc v, p x := by
  induction h with
  | str s =>
    intro x hx
    rw [dumps] at hx
    exact of_mem_quoted hown henc hx
  | @arr items _ ih =>
    intro x hx
    rw [dumps, List.mem_cons, List.mem_append, List.mem_singleton] at hx
    rcases hx with rfl | hx | rfl
    · exact hown _ (by decide)
    · exact of_mem_dumpsItems hown ih x hx
    · exact hown _ (by decide)
  | @obj fields _ _ ih =>
    intro x hx
    rw [dumps, List.mem_cons, List.mem_append, List.mem_singleton] at hx
    rcases hx with rfl | hx | rfl
    · exact hown _ (by decide)
    · exact of_mem_dumpsFields hown henc ih x hx
    · exact hown _ (by decide)

end Characters

end BasecradleRouter.Lib.JsonCodec
