/-
# What holds of every JSON value that is read

A value is built up step by step: a list gets its next item, a dict its next field.  What each of
these steps keeps (`Kept`) holds of whatever is read: `holds_read`.  That a dict has each of its
keys once is such a thing (`loads_distinct`).
-/
import BasecradleRouter.Lib.JsonCodec
import Mathlib.Algebra.Ring.Nat

namespace BasecradleRouter.Lib.JsonCodec

/-! ## 1. What holds of everything that is read -/

section

variable {σ : Type} {limits : Limits}

/-- A value that is no string and no container. -/
def Scalar (v : Json σ) : Prop := v.asStr = none ∧ v.asArr = none ∧ v.asObj = none

/-- Letters and digits that are in order are so by their code points. -/
theorem toNat_le_of_le {c d : Char} (h : c ≤ d) : c.toNat ≤ d.toNat := UInt32.le_iff_toNat_le.mp h

theorem hexValue_lt {c : Char} {d : ℕ} (h : hexValue c = some d) : d < 16 := by
  unfold hexValue at h
  split at h
  · next hdigit =>
    rw [Char.isDigit, Bool.and_eq_true, decide_eq_true_eq, decide_eq_true_eq] at hdigit
    have hle : c.toNat ≤ 57 := UInt32.le_iff_toNat_le.mp hdigit.2
    cases h
    exact Nat.lt_of_le_of_lt (Nat.sub_le_sub_right hle _) (by decide)
  · split at h
    · next hletter =>
      have hle : c.toNat ≤ 102 := toNat_le_of_le hletter.2
      cases h
      exact Nat.lt_of_le_of_lt (Nat.add_le_add_right (Nat.sub_le_sub_right hle _) 10) (by decide)
    · split at h
      · next hletter =>
        have hle : c.toNat ≤ 70 := toNat_le_of_le hletter.2
        cases h
        exact Nat.lt_of_le_of_lt (Nat.add_le_add_right (Nat.sub_le_sub_right hle _) 10) (by decide)
      · cases h

theorem scalar_number {text : List Char} {v : Json σ} (h : number text = some v) : Scalar v := by
  have hunsigned : ∀ {sign : ℤ} {word text : List Char}, unsigned sign word text = some v →
      Scalar v := by
    intro sign word text h
    unfold unsigned at h
    dsimp only at h
    split at h
    · cases h
    · split at h
      · cases h
        exact ⟨rfl, rfl, rfl⟩
      · split at h
        · cases h
          exact ⟨rfl, rfl, rfl⟩
        · cases h
  unfold number at h
  split at h
  · exact hunsigned h
  · exact hunsigned h

theorem scalar_atom {text : List Char} {v : Json σ} (h : atom text = some v) : Scalar v := by
  unfold atom at h
  split at h
  · cases h
    exact ⟨rfl, rfl, rfl⟩
  · cases h
    exact ⟨rfl, rfl, rfl⟩
  · cases h
    exact ⟨rfl, rfl, rfl⟩
  · cases h
    exact ⟨rfl, rfl, rfl⟩
  · cases h
    exact ⟨rfl, rfl, rfl⟩
  · cases h
    exact ⟨rfl, rfl, rfl⟩
  · exact scalar_number h

theorem scalar_spelled {text : List Char} {v : Json σ} (h : spelled limits text = .ok v) :
    Scalar v := by
  unfold spelled at h
  split at h
  · split at h
    · next w hatom =>
      cases h
      exact scalar_atom hatom
    · cases h
  · cases h

variable {β α : Type} [Coded β] [Spelled σ α] [DecidableEq σ] {T : Piece → Prop} {S : σ → Prop}
  {P : Json σ → Prop}

/-- What is kept by each step of the reader: `T` of a string's pieces, `S` of a string and `P` of a
value. -/
structure Kept (T : Piece → Prop) (S : σ → Prop) (P : Json σ → Prop) : Prop where
  unit : ∀ n < 0x10000, T (.unit n)
  short : ∀ p ∈ unescapes, T (.point p.2.toNat)
  spell : ∀ pieces, (∀ piece ∈ pieces, T piece) → S (Spelled.spell (join pieces))
  str : ∀ s, S s → P (.str s)
  scalar : ∀ v, Scalar v → P v
  items : P (.arr [])
  item : ∀ items v, P (.arr items) → P v → P (.arr (items ++ [v]))
  fields : P (.obj [])
  field : ∀ fields key v, P (.obj fields) → S key → P v → P (.obj (setField fields key v))

def Frame.Holds (S : σ → Prop) (P : Json σ → Prop) : Frame σ → Prop
  | .arr items => P (.arr items)
  | .obj fields => P (.obj fields)
  | .member key => S key

def State.Holds (S : σ → Prop) (P : Json σ → Prop) : State σ → Prop
  | .reading open_ _ => ∀ frame ∈ open_, frame.Holds S P
  | .done v => P v

def Within.Holds (T : Piece → Prop) : Within → Prop
  | .string pieces => ∀ piece ∈ pieces, T piece
  | .escape pieces => ∀ piece ∈ pieces, T piece
  | .hex pieces digits n =>
    (∀ piece ∈ pieces, T piece) ∧ digits ≤ 3 ∧ n < 16 ^ digits
  | _ => True

variable (hkept : Kept T S P)
include hkept

theorem holds_give {v : Json σ} (hv : P v) {open_ : List (Frame σ)}
    (hopen : ∀ frame ∈ open_, frame.Holds S P) {st : State σ} (h : give v open_ = .ok st) :
    st.Holds S P := by
  unfold give at h
  split at h
  · cases h
    exact hv
  · next items outer =>
    cases h
    obtain ⟨hitems, houter⟩ := List.forall_mem_cons.mp hopen
    exact List.forall_mem_cons.mpr ⟨hkept.item items v hitems hv, houter⟩
  · next key fields outer =>
    cases h
    obtain ⟨hkey, hinner⟩ := List.forall_mem_cons.mp hopen
    obtain ⟨hfields, houter⟩ := List.forall_mem_cons.mp hinner
    exact List.forall_mem_cons.mpr ⟨hkept.field fields key v hfields hkey hv, houter⟩
  · cases h

theorem holds_string {s : σ} (hs : S s) {st st' : State σ} (hst : st.Holds S P)
    (h : string s st = .ok st') : st'.Holds S P := by
  unfold string at h
  split at h
  · cases h
    exact List.forall_mem_cons.mpr ⟨hs, hst⟩
  · cases h
    exact List.forall_mem_cons.mpr ⟨hs, hst⟩
  · exact holds_give hkept (hkept.str s hs) hst h
  · exact holds_give hkept (hkept.str s hs) hst h
  · cases h

theorem holds_word {text : List Char} {st st' : State σ} (hst : st.Holds S P)
    (h : word limits text st = .ok st') : st'.Holds S P := by
  unfold word at h
  split at h
  · obtain ⟨v, hv, h⟩ := bind_eq_ok.mp h
    exact holds_give hkept (hkept.scalar v (scalar_spelled hv)) hst h
  · obtain ⟨v, hv, h⟩ := bind_eq_ok.mp h
    exact holds_give hkept (hkept.scalar v (scalar_spelled hv)) hst h
  · cases h

omit [DecidableEq σ] hkept in
theorem holds_begin {frame : Frame σ} {expecting : Expecting} {open_ : List (Frame σ)}
    {st : State σ} (h : begin limits frame expecting open_ = .ok st) (hframe : frame.Holds S P)
    (hopen : ∀ frame ∈ open_, frame.Holds S P) : st.Holds S P := by
  unfold begin at h
  split at h
  · cases h
    exact List.forall_mem_cons.mpr ⟨hframe, hopen⟩
  · cases h

theorem holds_mark {c : Char} {st st' : State σ} (hst : st.Holds S P)
    (h : mark limits c st = .ok st') : st'.Holds S P := by
  unfold mark at h
  split at h
  · split at h
    · exact holds_begin h hkept.items hst
    · split at h
      · exact holds_begin h hkept.fields hst
      · cases h
  · split at h
    · exact holds_begin h hkept.items hst
    · split at h
      · exact holds_begin h hkept.fields hst
      · split at h
        · split at h
          · obtain ⟨hitems, houter⟩ := List.forall_mem_cons.mp hst
            exact holds_give hkept hitems houter h
          · cases h
        · cases h
  · split at h
    · obtain ⟨hfields, houter⟩ := List.forall_mem_cons.mp hst
      exact holds_give hkept hfields houter h
    · cases h
  · split at h
    · cases h
      exact hst
    · cases h
  · split at h
    · cases h
      exact hst
    · split at h
      · obtain ⟨hitems, houter⟩ := List.forall_mem_cons.mp hst
        exact holds_give hkept hitems houter h
      · cases h
  · split at h
    · cases h
      exact hst
    · split at h
      · obtain ⟨hfields, houter⟩ := List.forall_mem_cons.mp hst
        exact holds_give hkept hfields houter h
      · cases h
  · cases h

theorem holds_scan : ∀ {cs : List β} {within : Within} {st st' : State σ},
    scan limits within st cs = .ok st' → (∀ c ∈ cs, T (.point (Coded.point c))) →
      within.Holds T → st.Holds S P → st'.Holds S P
  | [], .nothing, st, st', h, _, _, hst => by
    cases h
    exact hst
  | [], .word text, st, st', h, _, _, hst => holds_word hkept hst h
  | [], .string _, _, _, h, _, _, _ => by cases h
  | [], .escape _, _, _, h, _, _, _ => by cases h
  | [], .hex _ _ _, _, _, h, _, _, _ => by cases h
  | c :: cs, .nothing, st, st', h, hcs, hwithin, hst => by
    obtain ⟨hc, hcs⟩ := List.forall_mem_cons.mp hcs
    rw [scan] at h
    split at h
    · exact holds_scan h hcs trivial hst
    · split at h
      · obtain ⟨st₁, hmark, h⟩ := bind_eq_ok.mp h
        exact holds_scan h hcs trivial (holds_mark hkept hst hmark)
      · split at h
        · exact holds_scan h hcs (List.forall_mem_nil _) hst
        · exact holds_scan h hcs trivial hst
  | c :: cs, .word text, st, st', h, hcs, hwithin, hst => by
    obtain ⟨hc, hcs⟩ := List.forall_mem_cons.mp hcs
    rw [scan] at h
    split at h
    · obtain ⟨st₁, hword, h⟩ := bind_eq_ok.mp h
      exact holds_scan h hcs trivial (holds_word hkept hst hword)
    · split at h
      · obtain ⟨st₂, hboth, h⟩ := bind_eq_ok.mp h
        obtain ⟨st₁, hword, hmark⟩ := bind_eq_ok.mp hboth
        exact holds_scan h hcs trivial (holds_mark hkept (holds_word hkept hst hword) hmark)
      · split at h
        · obtain ⟨st₁, hword, h⟩ := bind_eq_ok.mp h
          exact holds_scan h hcs (List.forall_mem_nil _) (holds_word hkept hst hword)
        · exact holds_scan h hcs trivial hst
  | c :: cs, .string pieces, st, st', h, hcs, hwithin, hst => by
    obtain ⟨hc, hcs⟩ := List.forall_mem_cons.mp hcs
    rw [scan] at h
    split at h
    · obtain ⟨st₁, hstring, h⟩ := bind_eq_ok.mp h
      have hs := hkept.spell pieces.reverse fun piece hpiece =>
        hwithin piece (List.mem_reverse.mp hpiece)
      exact holds_scan h hcs trivial (holds_string hkept hs hst hstring)
    · split at h
      · exact holds_scan h hcs hwithin hst
      · split at h
        · cases h
        · exact holds_scan h hcs (List.forall_mem_cons.mpr ⟨hc, hwithin⟩) hst
  | c :: cs, .escape pieces, st, st', h, hcs, hwithin, hst => by
    obtain ⟨hc, hcs⟩ := List.forall_mem_cons.mp hcs
    rw [scan] at h
    split at h
    · exact holds_scan h hcs ⟨hwithin, by decide, by decide⟩ hst
    · split at h
      · next d hd =>
        obtain ⟨before, after, hsplit, -⟩ := List.lookup_eq_some_iff.mp hd
        have hshort : T (.point d.toNat) := hkept.short (Coded.view c, d) (by rw [hsplit]; simp)
        exact holds_scan h hcs (List.forall_mem_cons.mpr ⟨hshort, hwithin⟩) hst
      · cases h
  | c :: cs, .hex pieces digits n, st, st', h, hcs, hwithin, hst => by
    obtain ⟨hc, hcs⟩ := List.forall_mem_cons.mp hcs
    obtain ⟨hpieces, hdigits, hn⟩ := hwithin
    rw [scan] at h
    split at h
    · next d hd =>
      have hlt : 16 * n + d < 16 ^ (digits + 1) := by
        have hdlt := hexValue_lt hd
        rw [pow_succ]
        omega
      split at h
      · next hlast =>
        rw [hlast] at hlt
        have hunit := hkept.unit _ hlt
        exact holds_scan h hcs (List.forall_mem_cons.mpr ⟨hunit, hpieces⟩) hst
      · next hmore => exact holds_scan h hcs ⟨hpieces, by omega, hlt⟩ hst
    · cases h

/-- **What each step of the reader keeps holds of what is read.** -/
theorem holds_read {text : List β} (htext : ∀ c ∈ text, T (.point (Coded.point c))) {v : Json σ}
    (h : read limits text = .ok v) : P v := by
  obtain ⟨st, hscan, hresult⟩ := bind_eq_ok.mp h
  have hst : st.Holds S P := holds_scan hkept hscan htext trivial (List.forall_mem_nil _)
  cases st with
  | reading open_ e => cases hresult
  | done w =>
    cases hresult
    exact hst

end

/-! ## 2. An object has each of its keys once -/

section

variable {σ : Type}

/-- A value that, if it is an object, has each of its keys once. -/
def Distinct (v : Json σ) : Prop := ∀ fields, v = .obj fields → (fields.map Prod.fst).Nodup

theorem distinct_of_scalar {v : Json σ} (h : Scalar v) : Distinct v := by
  rintro fields rfl
  cases h.2.2

variable [DecidableEq σ]

theorem mem_setField {fields : Fields σ} {key : σ} {v : Json σ} {k : σ} :
    k ∈ (setField fields key v).map Prod.fst → k = key ∨ k ∈ fields.map Prod.fst := by
  induction fields with
  | nil =>
    intro h
    exact Or.inl (List.mem_singleton.mp h)
  | cons field fields ih =>
    intro h
    rw [setField] at h
    split at h
    · exact Or.inr h
    · rw [List.map_cons, List.mem_cons] at h
      rcases h with rfl | h
      · exact Or.inr List.mem_cons_self
      · exact (ih h).imp_right (List.mem_cons_of_mem _)

/-- Of a key that comes again, the last value counts. -/
theorem nodup_setField {fields : Fields σ} (h : (fields.map Prod.fst).Nodup) (key : σ)
    (v : Json σ) :
    ((setField fields key v).map Prod.fst).Nodup := by
  induction fields with
  | nil => exact List.nodup_singleton key
  | cons field fields ih =>
    rw [List.map_cons, List.nodup_cons] at h
    rw [setField]
    split
    · next heq => exact List.nodup_cons.mpr h
    · next hne =>
      refine List.nodup_cons.mpr ⟨fun hmem => ?_, ih h.2⟩
      rcases mem_setField hmem with heq | hmem
      · exact hne heq
      · exact h.1 hmem

theorem kept_distinct {α : Type} [Spelled σ α] :
    Kept (fun _ => True) (fun _ : σ => True) Distinct where
  unit _ _ := trivial
  short _ _ := trivial
  spell _ _ := trivial
  str _ _ := nofun
  scalar _ h := distinct_of_scalar h
  items := nofun
  item _ _ _ _ := nofun
  fields := by
    intro fields heq
    cases heq
    exact List.nodup_nil
  field fields key v hfields _ _ := by
    intro fields' heq
    cases heq
    exact nodup_setField (hfields fields rfl) key v

end

/-- **An object that was read has each of its keys once**, of a key that came again the last
value. -/
theorem loads_distinct {text : List Char} {v : Json} (h : loads text = some v) : Distinct v :=
  holds_read kept_distinct (fun _ _ => trivial) (toOption_eq_some.mp h)

end BasecradleRouter.Lib.JsonCodec
