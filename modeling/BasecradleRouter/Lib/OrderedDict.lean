/-
# Dictionaries in the order of their keys' arrival

A Python `dict` iterates its keys in the order in which each was first set.  `OrderedDict` keeps
the items in that order, no key twice: `set` replaces a value where it stands and puts a new key
last.  (An `AList` puts it first.)  An item is what its key holds (`mem_items`), so a fold over the
items is about `get`.

`firstBy` indexes values by a key of theirs, the first of each key staying (`get_firstBy`).
Deleting and sorting keep what each other key holds (`get_del`, `get_sorted`).
-/
import Mathlib.Data.List.Induction
import Mathlib.Data.List.Nodup
import Mathlib.Data.List.Sort

namespace BasecradleRouter.Lib

/-- A dictionary, its items in the order their keys arrived. -/
structure OrderedDict (κ ν : Type) where
  items : List (κ × ν)
  nodup : (items.map Prod.fst).Nodup

namespace OrderedDict

variable {κ ν : Type} [DecidableEq κ]

/-- `{}` -/
def empty : OrderedDict κ ν := ⟨[], List.nodup_nil⟩

/-- `d.get(k)` -/
def get (d : OrderedDict κ ν) (k : κ) : Option ν := d.items.lookup k

/-- Replacing a value leaves the keys. -/
theorem map_fst_replace (items : List (κ × ν)) (k : κ) (v : ν) :
    (items.map fun item => if item.1 = k then (k, v) else item).map Prod.fst =
      items.map Prod.fst := by
  rw [List.map_map]
  refine List.map_congr_left fun item _ => ?_
  by_cases h : item.1 = k
  · simp [h]
  · simp [h]

/-- `d[k] = v` -/
def set (d : OrderedDict κ ν) (k : κ) (v : ν) : OrderedDict κ ν :=
  if h : k ∈ d.items.map Prod.fst then
    ⟨d.items.map fun item => if item.1 = k then (k, v) else item, by
      rw [map_fst_replace]
      exact d.nodup⟩
  else
    ⟨d.items ++ [(k, v)], by
      rw [List.map_append, List.map_singleton]
      exact List.nodup_append'.mpr ⟨d.nodup, List.nodup_singleton k, by simpa using h⟩⟩

@[simp] theorem get_empty (k : κ) : (empty : OrderedDict κ ν).get k = none := rfl

/-- An item is what its key holds. -/
theorem mem_items {d : OrderedDict κ ν} {k : κ} {v : ν} : (k, v) ∈ d.items ↔ d.get k = some v := by
  unfold get
  obtain ⟨items, hnodup⟩ := d
  dsimp only
  induction items with
  | nil => simp
  | cons item items ih =>
    rw [List.map_cons, List.nodup_cons] at hnodup
    rw [List.mem_cons, List.lookup_cons, ih hnodup.2]
    by_cases h : k = item.1
    · subst h
      have hout : ∀ v, items.lookup item.1 ≠ some v := by
        intro v hv
        obtain ⟨l₁, l₂, hitems, -⟩ := List.lookup_eq_some_iff.mp hv
        exact hnodup.1 (List.mem_map.mpr ⟨(item.1, v), by rw [hitems]; simp, rfl⟩)
      simp only [beq_self_eq_true, Option.some.injEq]
      constructor
      · rintro (heq | hlookup)
        · rw [← heq]
        · exact absurd hlookup (hout v)
      · rintro rfl
        exact Or.inl rfl
    · have hne : (k == item.1) = false := by simpa using h
      rw [hne]
      constructor
      · rintro (heq | hlookup)
        · exact absurd (congrArg Prod.fst heq) h
        · exact hlookup
      · exact Or.inr

omit [DecidableEq κ] in
/-- An item's key is on none of the items before it. -/
theorem not_mem_before {d : OrderedDict κ ν} {done rest : List (κ × ν)} {k : κ} {v : ν}
    (h : d.items = done ++ (k, v) :: rest) (w : ν) : (k, w) ∉ done := by
  intro hmem
  have hnodup := d.nodup
  rw [h, List.map_append, List.map_cons] at hnodup
  exact (List.nodup_append.mp hnodup).2.2 k (List.mem_map.mpr ⟨(k, w), hmem, rfl⟩) k
    List.mem_cons_self rfl

/-- What a key holds after one is set. -/
theorem get_set (d : OrderedDict κ ν) (k k' : κ) (v : ν) :
    (d.set k v).get k' = if k' = k then some v else d.get k' := by
  have hitem : ∀ w, (d.set k v).get k' = some w ↔ (k', w) ∈ (d.set k v).items :=
    fun w => mem_items.symm
  refine Option.ext fun w => ?_
  rw [hitem]
  unfold set
  split
  · next hin =>
    simp only [List.mem_map]
    constructor
    · rintro ⟨item, hmem, heq⟩
      by_cases hk : item.1 = k
      · rw [if_pos hk] at heq
        cases heq
        rw [if_pos rfl]
      · rw [if_neg hk] at heq
        subst heq
        rw [if_neg hk]
        exact mem_items.mp hmem
    · intro h
      by_cases hk : k' = k
      · rw [if_pos hk] at h
        cases h
        obtain ⟨item, hmem, rfl⟩ := List.mem_map.mp hin
        exact ⟨item, hmem, by rw [if_pos rfl, hk]⟩
      · rw [if_neg hk] at h
        exact ⟨(k', w), mem_items.mpr h, if_neg hk⟩
  · next hout =>
    simp only [List.mem_append, List.mem_singleton, Prod.mk.injEq]
    constructor
    · rintro (hmem | ⟨rfl, rfl⟩)
      · have hk : k' ≠ k := by
          rintro rfl
          exact hout (List.mem_map_of_mem hmem)
        rw [if_neg hk]
        exact mem_items.mp hmem
      · rw [if_pos rfl]
    · intro h
      by_cases hk : k' = k
      · rw [if_pos hk] at h
        exact Or.inr ⟨hk, (Option.some.inj h).symm⟩
      · rw [if_neg hk] at h
        exact Or.inl (mem_items.mpr h)

/-- What is held after a key was set is what was set, or was held before. -/
theorem get_set_some {d : OrderedDict κ ν} {k k' : κ} {v w : ν}
    (h : (d.set k v).get k' = some w) : (k' = k ∧ w = v) ∨ d.get k' = some w := by
  rw [get_set] at h
  split at h
  · next heq => exact Or.inl ⟨heq, (Option.some.inj h).symm⟩
  · exact Or.inr h

/-! ## Defaults -/

/-- `d.setdefault(k, v)` -/
def setDefault (d : OrderedDict κ ν) (k : κ) (v : ν) : OrderedDict κ ν :=
  match d.get k with
  | some _ => d
  | none => d.set k v

omit [DecidableEq κ] in
/-- The values, in the order their keys arrived. -/
def values (d : OrderedDict κ ν) : List ν := d.items.map Prod.snd

/-- What a key holds after a default is set: what it held, if anything. -/
theorem get_setDefault (d : OrderedDict κ ν) (k k' : κ) (v : ν) :
    (d.setDefault k v).get k' = (d.get k').or (if k' = k then some v else none) := by
  unfold setDefault
  cases hk : d.get k with
  | some w =>
    dsimp only
    by_cases heq : k' = k
    · rw [heq, hk, Option.some_or]
    · rw [if_neg heq, Option.or_none]
  | none =>
    dsimp only
    rw [get_set]
    by_cases heq : k' = k
    · rw [if_pos heq, heq, hk, Option.none_or, if_pos rfl]
    · rw [if_neg heq, if_neg heq, Option.or_none]

/-- A key that is new is put last. -/
theorem items_set_of_none {d : OrderedDict κ ν} {k : κ} (h : d.get k = none) (v : ν) :
    (d.set k v).items = d.items ++ [(k, v)] := by
  have hout : k ∉ d.items.map Prod.fst := by
    intro hin
    obtain ⟨item, hmem, rfl⟩ := List.mem_map.mp hin
    rw [mem_items.mp hmem] at h
    cases h
  unfold set
  rw [dif_neg hout]

theorem values_set_of_none {d : OrderedDict κ ν} {k : κ} (h : d.get k = none) (v : ν) :
    (d.set k v).values = d.values ++ [v] := by
  unfold values
  rw [items_set_of_none h, List.map_append, List.map_singleton]

omit [DecidableEq κ] in
theorem mem_values {d : OrderedDict κ ν} {v : ν} : v ∈ d.values ↔ ∃ k, (k, v) ∈ d.items := by
  unfold values
  simp

/-- The first value of each key, in the order the keys arrive. -/
def firstBy (key : ν → κ) (vs : List ν) : OrderedDict κ ν :=
  vs.foldl (fun d v => d.setDefault (key v) v) empty

theorem firstBy_append (key : ν → κ) (vs : List ν) (v : ν) :
    firstBy key (vs ++ [v]) = (firstBy key vs).setDefault (key v) v := by
  unfold firstBy
  rw [List.foldl_append]
  rfl

/-- What a key holds is the first value with it. -/
theorem get_firstBy (key : ν → κ) (vs : List ν) (k : κ) :
    (firstBy key vs).get k = vs.find? fun v => key v = k := by
  induction vs using List.reverseRecOn with
  | nil => rfl
  | append_singleton vs v ih =>
    rw [firstBy_append, get_setDefault, ih, List.find?_append]
    congr 1
    by_cases heq : key v = k
    · simp [heq]
    · rw [if_neg fun h => heq h.symm]
      simp [heq]

/-! ## Some of the keys -/

omit [DecidableEq κ] in
theorem nodup_filter (d : OrderedDict κ ν) (p : κ × ν → Bool) :
    ((d.items.filter p).map Prod.fst).Nodup :=
  d.nodup.sublist (List.filter_sublist.map Prod.fst)

/-- `{k: v for k, v in d.items() if keep(k)}` -/
def retain (d : OrderedDict κ ν) (keep : κ → Bool) : OrderedDict κ ν :=
  ⟨d.items.filter fun item => keep item.1, d.nodup_filter _⟩

/-- `del d[k]` -/
def del (d : OrderedDict κ ν) (k : κ) : OrderedDict κ ν := d.retain (· ≠ k)

theorem get_retain (d : OrderedDict κ ν) (keep : κ → Bool) (k : κ) :
    (d.retain keep).get k = if keep k then d.get k else none := by
  refine Option.ext fun v => ?_
  rw [← mem_items, retain, List.mem_filter, mem_items]
  split
  · next hkeep => simp [hkeep]
  · next hkeep => simp [hkeep]

theorem get_del (d : OrderedDict κ ν) (k k' : κ) :
    (d.del k).get k' = if k' = k then none else d.get k' := by
  rw [del, get_retain]
  by_cases h : k' = k
  · simp [h]
  · simp [h]

/-- The keys, in the order they arrived. -/
def keys (d : OrderedDict κ ν) : List κ := d.items.map Prod.fst

theorem mem_keys {d : OrderedDict κ ν} {k : κ} : k ∈ d.keys ↔ ∃ v, d.get k = some v := by
  simp only [← mem_items, keys, List.mem_map, Prod.exists, exists_and_right, exists_eq_right]

/-- `dict(items)`: of one key, the last item counts. -/
def ofItems (items : List (κ × ν)) : OrderedDict κ ν :=
  items.foldl (fun d item => d.set item.1 item.2) empty

/-- What a key holds was one of the items. -/
theorem mem_of_get_ofItems {items : List (κ × ν)} {k : κ} {v : ν}
    (h : (ofItems items).get k = some v) : (k, v) ∈ items := by
  induction items using List.reverseRecOn with
  | nil => cases h
  | append_singleton items item ih =>
    rw [ofItems, List.foldl_append] at h
    rw [List.mem_append]
    rcases get_set_some h with ⟨rfl, rfl⟩ | hbefore
    · exact Or.inr (List.mem_singleton_self _)
    · exact Or.inl (ih hbefore)

/-- Setting values over those that are there. -/
theorem get_foldl_set (items : List (κ × ν)) (hnodup : (items.map Prod.fst).Nodup)
    (d : OrderedDict κ ν) (k : κ) :
    (items.foldl (fun d item => d.set item.1 item.2) d).get k =
      ((mk items hnodup).get k).or (d.get k) := by
  induction items generalizing d with
  | nil => rfl
  | cons item items ih =>
    rw [List.map_cons, List.nodup_cons] at hnodup
    rw [List.foldl_cons, ih hnodup.2, get_set]
    unfold get
    rw [List.lookup_cons]
    by_cases h : k = item.1
    · subst h
      have hout : items.lookup item.1 = none := by
        refine List.lookup_eq_none_iff.mpr fun item' hmem => ?_
        have hne : item.1 ≠ item'.1 := by
          intro heq
          exact hnodup.1 (List.mem_map.mpr ⟨item', hmem, heq.symm⟩)
        simpa using hne
      rw [hout, if_pos rfl, Option.none_or, beq_self_eq_true]
      rfl
    · have hne : (k == item.1) = false := by simpa using h
      rw [if_neg h, hne]

/-- A dictionary's own items make it again. -/
theorem get_ofItems (d : OrderedDict κ ν) (k : κ) : (ofItems d.items).get k = d.get k := by
  rw [ofItems, get_foldl_set _ d.nodup, get_empty, Option.or_none]

/-! ## Sorting -/

section Sorting

variable [LinearOrder κ]

omit [DecidableEq κ] in
theorem nodup_insertionSort (d : OrderedDict κ ν) :
    ((d.items.insertionSort fun x y => x.1 ≤ y.1).map Prod.fst).Nodup :=
  ((List.perm_insertionSort _ d.items).map Prod.fst).nodup_iff.mpr d.nodup

omit [DecidableEq κ] in
/-- `dict(sorted(d.items()))` -/
def sorted (d : OrderedDict κ ν) : OrderedDict κ ν :=
  ⟨d.items.insertionSort fun x y => x.1 ≤ y.1, d.nodup_insertionSort⟩

theorem get_sorted (d : OrderedDict κ ν) (k : κ) : d.sorted.get k = d.get k := by
  refine Option.ext fun v => ?_
  rw [← mem_items, ← mem_items]
  exact (List.perm_insertionSort _ d.items).mem_iff

end Sorting

end OrderedDict

end BasecradleRouter.Lib
