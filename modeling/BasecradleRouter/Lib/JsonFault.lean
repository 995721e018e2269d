/-
# What the interpreter's limits leave of JSON

`json.loads` gives up on a text that nests deeper than the interpreter has room for, with a
`RecursionError`, and on an integer of more than `maxStrDigits` digits, with a `ValueError`: on
whichever it comes to first.  `json.dumps` gives up on the same values.

`Json.fault` is what it comes to first in a value, its dicts with their members in the order of the
text.  `Json.held` is what is read where there is no fault: of a key that stands twice in an object
the last value, in the place of the first.
-/
import BasecradleRouter.Lib.JsonRoundTrip
import Mathlib.Algebra.Ring.Int.Defs
import Mathlib.Algebra.Ring.Nat

namespace BasecradleRouter.Lib

/-- An integer whose digits the interpreter reads and writes. -/
def shortInt (i : ℤ) : Bool := decide (i.natAbs < 10 ^ maxStrDigits)

theorem shortInt_iff {i : ℤ} :
    shortInt i = true ↔ -10 ^ maxStrDigits < i ∧ i < 10 ^ maxStrDigits := by
  have hbound : ((10 ^ maxStrDigits : ℕ) : ℤ) = 10 ^ maxStrDigits := Int.natCast_pow 10 _
  have hlt : ∀ bound : ℕ, i.natAbs < bound ↔ -(bound : ℤ) < i ∧ i < bound := by omega
  rw [shortInt, decide_eq_true_eq, hlt, hbound]

theorem shortInt_zero : shortInt 0 = true := by decide +kernel

namespace Json

open JsonCodec

mutual

/-- What stops the interpreter first in a value, where it has room for so many levels. -/
def fault : Json → ℕ → Option LoadFault
  | .int i, _ => if shortInt i then none else some .digits
  | .arr _, 0 => some .recursion
  | .arr items, room + 1 => faultItems items room
  | .obj _, 0 => some .recursion
  | .obj fields, room + 1 => faultFields fields room
  | _, _ => none

def faultItems : List Json → ℕ → Option LoadFault
  | [], _ => none
  | v :: items, room => (v.fault room).or (faultItems items room)

def faultFields : List (String × Json) → ℕ → Option LoadFault
  | [], _ => none
  | (_, v) :: fields, room => (v.fault room).or (faultFields fields room)

end

/-- What is held of a text. -/
def held (v : Json) : Json := JsonCodec.respelled id v

/-! ## Where nothing stops it -/

theorem faultItems_eq_none {items : List Json} {room : ℕ} :
    faultItems items room = none ↔ ∀ v ∈ items, v.fault room = none := by
  induction items with
  | nil => simp [faultItems]
  | cons v items ih => simp [faultItems, ih]

theorem faultFields_eq_none {fields : Fields} {room : ℕ} :
    faultFields fields room = none ↔ ∀ field ∈ fields, field.2.fault room = none := by
  induction fields with
  | nil => simp [faultFields]
  | cons field fields ih => simp [faultFields, ih]

/-- A value with nothing in it that stops the interpreter, where that has room enough. -/
def Legible (v : Json) : Prop := ∃ room, v.fault room = none

namespace Legible

theorem int {i : ℤ} (h : (Json.int i).Legible) : shortInt i = true := by
  obtain ⟨room, h⟩ := h
  by_contra hlong
  simp [fault, hlong] at h

theorem lookup {fields : Fields} (h : (Json.obj fields).Legible) {key : String} {v : Json}
    (hv : fields.lookup key = some v) : v.Legible := by
  obtain ⟨room, h⟩ := h
  obtain ⟨l₁, l₂, rfl, -⟩ := List.lookup_eq_some_iff.mp hv
  cases room with
  | zero => simp [fault] at h
  | succ room =>
    rw [fault, faultFields_eq_none] at h
    exact ⟨room, h (key, v) (by simp)⟩

theorem get {fields : Fields} (h : (Json.obj fields).Legible) (key : String) :
    (fields.get key).Legible := by
  unfold Fields.get
  cases hv : fields.lookup key with
  | none => exact ⟨0, by simp [fault]⟩
  | some v => exact h.lookup hv

/-- Of what is no dict there is nothing. -/
theorem fields {v : Json} (h : v.Legible) : (Json.obj (v.asObj.getD [])).Legible := by
  cases v with
  | obj fields => exact h
  | _ => exact ⟨1, by simp [asObj, fault, faultFields]⟩

end Legible

theorem faultFields_setField {fields : Fields} {room : ℕ} (h : faultFields fields room = none)
    (key : String) {v : Json} (hv : v.fault room = none) :
    faultFields (JsonCodec.setField fields key v) room = none := by
  induction fields with
  | nil => simp [JsonCodec.setField, faultFields, hv]
  | cons field fields ih =>
    obtain ⟨k, w⟩ := field
    rw [faultFields, Option.or_eq_none_iff] at h
    unfold JsonCodec.setField
    split
    · simp [faultFields, hv, h.2]
    · simp [faultFields, h.1, ih h.2]

mutual

theorem respelled_fault : ∀ (v : Json) (room : ℕ), v.fault room = none →
    (respelled id v).fault room = none
  | .null, _, _ => by simp [respelled, fault]
  | .bool _, _, _ => by simp [respelled, fault]
  | .int _, _, h => by simpa [respelled] using h
  | .float _, _, _ => by simp [respelled, fault]
  | .str _, _, _ => by simp [respelled, fault]
  | .arr items, 0, h => by simp [fault] at h
  | .arr items, room + 1, h => by
    rw [fault] at h
    rw [respelled, fault]
    exact respelledItems_fault items room h
  | .obj fields, 0, h => by simp [fault] at h
  | .obj fields, room + 1, h => by
    rw [fault] at h
    rw [respelled, fault]
    exact respelledFields_fault fields room [] h rfl

theorem respelledItems_fault : ∀ (items : List Json) (room : ℕ), faultItems items room = none →
    faultItems (respelledItems id items) room = none
  | [], _, h => h
  | v :: items, room, h => by
    rw [faultItems, Option.or_eq_none_iff] at h
    rw [respelledItems, faultItems, respelled_fault v room h.1, respelledItems_fault items room h.2]
    rfl

theorem respelledFields_fault : ∀ (fields : Fields) (room : ℕ) (d : Fields),
    faultFields fields room = none → faultFields d room = none →
      faultFields (respelledFields id fields d) room = none
  | [], _, _, _, h => h
  | (key, v) :: fields, room, d, h, hd => by
    rw [faultFields, Option.or_eq_none_iff] at h
    rw [respelledFields]
    exact respelledFields_fault fields room _ h.2
      (faultFields_setField hd key (respelled_fault v room h.1))

end

/-- What is held of a text that stops nothing stops nothing. -/
theorem held_fault (v : Json) (room : ℕ) (h : v.fault room = none) : v.held.fault room = none :=
  respelled_fault v room h

end Json

end BasecradleRouter.Lib
