/-
# Keys in order

`json.dumps(v, sort_keys=True)` writes every dict's entries in the order of their keys: `sortKeys`.
It is the same value (`sortKeys_same`), so text that was written so is one that reads back as the
value that was written but for the order: `JsonText.sorted`.
-/
import BasecradleRouter.Lib.JsonLayout
import BasecradleRouter.Lib.PyValue
import Mathlib.Data.List.Sort
import Mathlib.Data.String.Basic

namespace BasecradleRouter.Lib

/-! ## 1. Entries in order -/

/-- Whether an entry may stand before another. -/
def keyLe (a b : String × Json) : Prop := a.1 ≤ b.1

instance : DecidableRel keyLe := fun a b => inferInstanceAs (Decidable (a.1 ≤ b.1))

theorem lookup_cons_eq (entry : String × Json) (fields : Fields) (key : String) :
    List.lookup key (entry :: fields) =
      if key = entry.1 then some entry.2 else fields.lookup key := by
  rw [List.lookup_cons]
  by_cases hkey : key = entry.1
  · simp [hkey]
  · have hbeq : (key == entry.1) = false := by simpa using hkey
    rw [hbeq, if_neg hkey]

/-- An entry is found where it is put in order; it is put before every other of its key. -/
theorem lookup_orderedInsert (entry : String × Json) (fields : Fields) (key : String) :
    (fields.orderedInsert keyLe entry).lookup key =
      if key = entry.1 then some entry.2 else fields.lookup key := by
  induction fields with
  | nil => exact lookup_cons_eq entry [] key
  | cons field fields ih =>
    unfold List.orderedInsert
    split
    · exact lookup_cons_eq entry _ key
    · next hle =>
      have hne : field.1 ≠ entry.1 := fun heq => hle (le_of_eq heq.symm)
      rw [lookup_cons_eq, lookup_cons_eq, ih]
      by_cases hkey : key = field.1
      · subst hkey
        rw [if_pos rfl, if_neg hne, if_pos rfl]
      · rw [if_neg hkey, if_neg hkey]

/-- Putting entries in order changes nothing that is found. -/
theorem lookup_insertionSort (fields : Fields) (key : String) :
    (fields.insertionSort keyLe).lookup key = fields.lookup key := by
  induction fields with
  | nil => rfl
  | cons field fields ih => rw [List.insertionSort_cons, lookup_orderedInsert, ih, lookup_cons_eq]

namespace Json

/-! ## 2. Values with their keys in order -/

mutual

/-- What `sort_keys=True` writes a value as. -/
def sortKeys : Json → Json
  | .arr items => .arr (sortItems items)
  | .obj fields => .obj ((sortFields fields).insertionSort keyLe)
  | .null => .null
  | .bool b => .bool b
  | .int i => .int i
  | .float text => .float text
  | .str s => .str s

def sortItems : List Json → List Json
  | [] => []
  | v :: items => sortKeys v :: sortItems items

def sortFields : List (String × Json) → List (String × Json)
  | [] => []
  | (key, v) :: fields => (key, sortKeys v) :: sortFields fields

end

theorem sortItems_eq (items : List Json) : sortItems items = items.map sortKeys := by
  induction items with
  | nil => rfl
  | cons v items ih => rw [sortItems, ih, List.map_cons]

theorem sortFields_eq (fields : Fields) :
    sortFields fields = fields.map fun field => (field.1, field.2.sortKeys) := by
  induction fields with
  | nil => rfl
  | cons field fields ih => rw [sortFields, ih, List.map_cons]

theorem lookup_sortFields (fields : Fields) (key : String) :
    (sortFields fields).lookup key = (fields.lookup key).map sortKeys := by
  induction fields with
  | nil => rfl
  | cons field fields ih =>
    rw [sortFields, List.lookup_cons, List.lookup_cons, ih]
    cases key == field.1 <;> rfl

mutual

/-- **The same value.** -/
theorem sortKeys_same : ∀ v : Json, Same v (sortKeys v)
  | .arr items => by
    rw [sortKeys]
    refine .arr (by rw [sortItems_eq, List.length_map]) fun i v v' hv hv' => ?_
    exact sortItems_same items i v v' hv hv'
  | .obj fields => by
    rw [sortKeys]
    refine .obj (fun key => ?_) fun key v v' hv hv' => ?_
    · rw [lookup_insertionSort, lookup_sortFields, Option.map_eq_none_iff]
    · rw [lookup_insertionSort] at hv'
      exact sortFields_same fields key v v' hv hv'
  | .null => .refl _
  | .bool _ => .refl _
  | .int _ => .refl _
  | .float _ => .refl _
  | .str _ => .refl _

theorem sortItems_same : ∀ (items : List Json) (i : ℕ) (v v' : Json), items[i]? = some v →
    (sortItems items)[i]? = some v' → Same v v'
  | [], _, _, _, hv, _ => by cases hv
  | v :: items, 0, _, _, hv, hv' => by
    cases hv
    cases hv'
    exact sortKeys_same v
  | _ :: items, i + 1, w, w', hv, hv' => by
    rw [sortItems, List.getElem?_cons_succ] at hv'
    rw [List.getElem?_cons_succ] at hv
    exact sortItems_same items i w w' hv hv'

theorem sortFields_same : ∀ (fields : List (String × Json)) (key : String) (v v' : Json),
    fields.lookup key = some v → (sortFields fields).lookup key = some v' → Same v v'
  | [], _, _, _, hv, _ => by cases hv
  | (name, w) :: fields, key, v, v', hv, hv' => by
    rw [sortFields, List.lookup_cons] at hv'
    rw [List.lookup_cons] at hv
    cases hkey : key == name with
    | true =>
      rw [hkey] at hv hv'
      cases hv
      cases hv'
      exact sortKeys_same w
    | false =>
      rw [hkey] at hv hv'
      exact sortFields_same fields key v v' hv hv'

end

end Json

/-- `json.dumps(v, sort_keys=True)` -/
def JsonText.sorted : JsonText := ⟨Json.sortKeys, Json.sortKeys_same⟩

/-! ## 3. Text -/

namespace JsonLayout

/-- A value without a float has none in order. -/
theorem Plain.sortKeys {v : Json} (h : Plain v) : Plain v.sortKeys := by
  induction h with
  | null => exact .null
  | bool b => exact .bool b
  | int i => exact .int i
  | str s => exact .str s
  | arr _ ih =>
    rw [Json.sortKeys, Json.sortItems_eq]
    refine .arr fun v hv => ?_
    obtain ⟨w, hw, rfl⟩ := List.mem_map.mp hv
    exact ih w hw
  | @obj fields hkeys _ ih =>
    have hperm := List.perm_insertionSort keyLe (Json.sortFields fields)
    have hnames : (Json.sortFields fields).map Prod.fst = fields.map Prod.fst := by
      rw [Json.sortFields_eq, List.map_map]
      rfl
    rw [Json.sortKeys]
    refine .obj ((hperm.map Prod.fst).nodup_iff.mpr (hnames ▸ hkeys)) fun p hp => ?_
    have hmem := hperm.mem_iff.mp hp
    rw [Json.sortFields_eq] at hmem
    obtain ⟨q, hq, rfl⟩ := List.mem_map.mp hmem
    exact ih q hq

end JsonLayout

end BasecradleRouter.Lib
