/-
# Sums over a finite map

`total rows f` sums what `f` says of each entry.  An entry that is put counts in place of what its
key held before (`total_insert`).
-/
import Mathlib.Algebra.BigOperators.Group.Finset.Basic
import Mathlib.Data.Finmap
import Mathlib.Tactic.Abel

namespace BasecradleRouter.Lib

open scoped BigOperators

variable {κ α M : Type*} [DecidableEq κ] [AddCommMonoid M]

/-- What an entry adds, nothing where there is none. -/
def share (f : α → M) (entry : Option α) : M := entry.elim 0 f

/-- The sum over the entries. -/
def total (rows : Finmap fun _ : κ => α) (f : α → M) : M :=
  ∑ key ∈ rows.keys, share f (rows.lookup key)

@[simp] theorem share_none (f : α → M) : share f none = 0 := rfl

@[simp] theorem share_some (f : α → M) (a : α) : share f (some a) = f a := rfl

@[simp] theorem total_empty (f : α → M) : total (∅ : Finmap fun _ : κ => α) f = 0 := by
  simp [total]

/-- Keys without an entry may be counted too. -/
theorem total_eq_sum {rows : Finmap fun _ : κ => α} {keys : Finset κ} (h : rows.keys ⊆ keys)
    (f : α → M) : total rows f = ∑ key ∈ keys, share f (rows.lookup key) := by
  refine Finset.sum_subset h fun key _ hout => ?_
  have hnone : rows.lookup key = none := by
    rw [Finmap.mem_keys] at hout
    exact Finmap.lookup_eq_none.mpr hout
  rw [hnone, share_none]

/-- **An entry put in place of another.** -/
theorem total_insert (rows : Finmap fun _ : κ => α) (key : κ) (a : α) (f : α → M) :
    total (rows.insert key a) f + share f (rows.lookup key) = total rows f + f a := by
  have hkeys : rows.keys ⊆ insert key rows.keys := Finset.subset_insert _ _
  have hkeys' : (rows.insert key a).keys ⊆ insert key rows.keys := by
    intro key' hmem
    rw [Finmap.mem_keys, Finmap.mem_insert] at hmem
    rw [Finset.mem_insert, Finmap.mem_keys]
    exact hmem
  have hin : key ∈ insert key rows.keys := Finset.mem_insert_self _ _
  have hrest : ∀ key' ∈ (insert key rows.keys).erase key,
      share f ((rows.insert key a).lookup key') = share f (rows.lookup key') := by
    intro key' hmem
    rw [Finmap.lookup_insert_of_ne _ (Finset.ne_of_mem_erase hmem)]
  rw [total_eq_sum hkeys, total_eq_sum hkeys', ← Finset.add_sum_erase _ _ hin,
    ← Finset.add_sum_erase _ _ hin, Finset.sum_congr rfl hrest, Finmap.lookup_insert, share_some]
  abel

end BasecradleRouter.Lib
