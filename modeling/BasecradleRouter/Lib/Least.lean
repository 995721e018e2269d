/-
# The least of a list by a rank

`min(l, key=rank)` is of the list, and ranks no higher than any other of it: `LeastBy`.  Where ranks
tell the elements apart there is one such, whatever order the list is in, and the least of two lists
is the lesser of their least ones.
-/
import Mathlib.Data.List.MinMax

namespace BasecradleRouter.Lib

variable {α β : Type} [LinearOrder β] {rank : α → β} {l l' : List α} {x y z : α}

/-- One of the list, ranked no higher than any other. -/
def LeastBy (rank : α → β) (l : List α) (x : α) : Prop := x ∈ l ∧ ∀ y ∈ l, rank x ≤ rank y

namespace LeastBy

theorem unique (hinj : ∀ x ∈ l, ∀ y ∈ l, rank x = rank y → x = y) (hx : LeastBy rank l x)
    (hy : LeastBy rank l y) : x = y :=
  hinj x hx.1 y hy.1 (le_antisymm (hx.2 y hy.1) (hy.2 x hx.1))

/-- Only what is in the list matters. -/
theorem congr (h : ∀ x, x ∈ l ↔ x ∈ l') (hx : LeastBy rank l x) : LeastBy rank l' x :=
  ⟨(h x).mp hx.1, fun y hy => hx.2 y ((h y).mpr hy)⟩

/-- The lesser of two least ones is the least of both lists. -/
theorem append (hx : LeastBy rank l x) (hy : LeastBy rank l' y) (hz : LeastBy rank [x, y] z) :
    LeastBy rank (l ++ l') z := by
  have hzx : rank z ≤ rank x := hz.2 x (by simp)
  have hzy : rank z ≤ rank y := hz.2 y (by simp)
  refine ⟨?_, fun w hw => ?_⟩
  · have hmem := hz.1
    simp only [List.mem_cons, List.not_mem_nil, or_false] at hmem
    rcases hmem with rfl | rfl
    · exact List.mem_append_left l' hx.1
    · exact List.mem_append_right l hy.1
  · rcases List.mem_append.mp hw with hw | hw
    · exact hzx.trans (hx.2 w hw)
    · exact hzy.trans (hy.2 w hw)

theorem of_argmin (h : l.argmin rank = some x) : LeastBy rank l x :=
  ⟨List.argmin_mem h, fun _ hy => List.le_of_mem_argmin hy h⟩

end LeastBy

/-- A list that is not empty has a least one. -/
theorem exists_argmin (hne : l ≠ []) : ∃ x, l.argmin rank = some x :=
  Option.ne_none_iff_exists'.mp fun hnone => hne (List.argmin_eq_none.mp hnone)

end BasecradleRouter.Lib
