/-
# A queue with a log of who left it

Joining appends to the back, leaving takes the front.  The one law a fairness argument needs
is `Fifo.overtake`: whoever leaves while `a` waits is exactly who stood ahead of `a`, each
once and in that order.  It speaks of any number of joins and departures in any order.
-/
import Mathlib.Logic.Relation

namespace BasecradleRouter.Lib.Fifo

variable {α : Type*}

/-- One move of `(queue, log)`: somebody joins at the back, or the head leaves into the log. -/
inductive Move : List α × List α → List α × List α → Prop
  | join (q out : List α) (x : α) : Move (q, out) (q ++ [x], out)
  | leave (q out : List α) (x : α) : Move (x :: q, out) (q, out ++ [x])

/-- What can have happened since `a` stood in the queue behind `pre`: either `a` still waits,
and a prefix of `pre` has left, or all of `pre` has left and then `a`. -/
def Behind (pre : List α) (a : α) (out : List α) (s : List α × List α) : Prop :=
  (∃ gone rest post, pre = gone ++ rest ∧ s = (rest ++ a :: post, out ++ gone)) ∨
    ∃ later, s.2 = out ++ pre ++ a :: later

/-- Standing in the queue behind `pre` is the start of it. -/
theorem behind_start (pre post : List α) (a : α) (out : List α) :
    Behind pre a out (pre ++ a :: post, out) :=
  Or.inl ⟨[], pre, post, rfl, by simp⟩

/-- One move keeps it. -/
theorem Behind.move {pre : List α} {a : α} {out : List α} {s s' : List α × List α}
    (h : Behind pre a out s) (hm : Move s s') : Behind pre a out s' := by
  rcases h with ⟨gone, rest, post, hpre, hs⟩ | ⟨later, hs⟩
  · cases hm with
    | join q log x =>
      obtain ⟨hq, hlog⟩ := Prod.mk.inj hs
      exact Or.inl ⟨gone, rest, post ++ [x], hpre, by simp [hq, hlog]⟩
    | leave q log x =>
      obtain ⟨hq, hlog⟩ := Prod.mk.inj hs
      cases rest with
      | nil =>
        -- nobody is left ahead: the one who leaves is `a`
        simp only [List.nil_append, List.cons.injEq] at hq
        exact Or.inr ⟨[], by simp [hlog, hq.1, hpre]⟩
      | cons y rest =>
        simp only [List.cons_append, List.cons.injEq] at hq
        exact Or.inl ⟨gone ++ [y], rest, post, by simp [hpre], by simp [hlog, hq.1, hq.2]⟩
  · cases hm with
    | join q log x => exact Or.inr ⟨later, hs⟩
    | leave q log x =>
      have hlog : log = out ++ pre ++ a :: later := hs
      exact Or.inr ⟨later ++ [x], by simp [hlog]⟩

/-- **Nobody overtakes.**  From a queue `pre ++ a :: post`, whatever joins and leaves, the log
has grown by a prefix of `pre` while `a` still waits, or by all of `pre` and then `a`. -/
theorem overtake {pre post : List α} {a : α} {out : List α} {s : List α × List α}
    (h : Relation.ReflTransGen Move (pre ++ a :: post, out) s) : Behind pre a out s := by
  induction h with
  | refl => exact behind_start pre post a out
  | tail _ hm ih => exact ih.move hm

end BasecradleRouter.Lib.Fifo
