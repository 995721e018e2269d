/-
# What stands between the marked entries of a trace

Some of the entries of a list are marked.  `Gaps mark P l` says that whatever stands between two
marked entries, with no marked one between them, is as `P` asks.  Entries before the first marked
one and after the last do not matter, so a trace is put together from its ends (`Gaps.after`,
`Gaps.before`) and its gaps (`Gaps.cons`).
-/
import Mathlib.Data.List.Basic

namespace BasecradleRouter.Lib

variable {α : Type*}

/-- Every gap between two marked entries is as `P` asks. -/
def Gaps (mark : α → Bool) (P : List α → Prop) (l : List α) : Prop :=
  ∀ before a gap b after, l = before ++ a :: (gap ++ b :: after) → mark a = true → mark b = true →
    (∀ e ∈ gap, mark e = false) → P gap

section

variable {mark : α → Bool} {P : List α → Prop} {l : List α}

/-- A marked entry does not stand among unmarked ones. -/
theorem split_unmarked {mid before rest after : List α} {a : α}
    (hmid : ∀ e ∈ mid, mark e = false) (ha : mark a = true)
    (h : mid ++ rest = before ++ a :: after) :
    ∃ before', before = mid ++ before' ∧ rest = before' ++ a :: after := by
  induction mid generalizing before with
  | nil => exact ⟨before, rfl, h⟩
  | cons e mid ih =>
    cases before with
    | nil =>
      rw [List.cons_append, List.nil_append, List.cons.injEq] at h
      have hunmarked := hmid e List.mem_cons_self
      rw [h.1, ha] at hunmarked
      cases hunmarked
    | cons e' before =>
      rw [List.cons_append, List.cons_append, List.cons.injEq] at h
      obtain ⟨rfl, h⟩ := h
      obtain ⟨before', rfl, hrest⟩ := ih (fun e he => hmid e (List.mem_cons_of_mem _ he)) h
      exact ⟨before', rfl, hrest⟩

/-- Unmarked entries up to a marked one are the same ones, however they are split off. -/
theorem unmarked_unique {mid gap rest after : List α} {a b : α} (hmid : ∀ e ∈ mid, mark e = false)
    (hgap : ∀ e ∈ gap, mark e = false) (ha : mark a = true) (hb : mark b = true)
    (h : mid ++ a :: rest = gap ++ b :: after) : gap = mid := by
  obtain ⟨more, rfl, hmore⟩ := split_unmarked hmid hb h
  cases more with
  | nil => exact List.append_nil mid
  | cons e more =>
    rw [List.cons_append, List.cons.injEq] at hmore
    have hunmarked := hgap e (by simp)
    rw [← hmore.1, ha] at hunmarked
    cases hunmarked

/-- Unmarked entries before do not matter. -/
theorem Gaps.after {mid : List α} (hmid : ∀ e ∈ mid, mark e = false) (h : Gaps mark P l) :
    Gaps mark P (mid ++ l) := by
  intro before a gap b after hl ha hb hgap
  obtain ⟨before', -, hl'⟩ := split_unmarked hmid ha hl
  exact h before' a gap b after hl' ha hb hgap

/-- Nor do unmarked entries after. -/
theorem Gaps.before {mid : List α} (hmid : ∀ e ∈ mid, mark e = false) (h : Gaps mark P l) :
    Gaps mark P (l ++ mid) := by
  intro before a gap b after hl ha hb hgap
  have hsplit : l ++ mid = (before ++ a :: gap ++ [b]) ++ after := by rw [hl]; simp
  rcases List.append_eq_append_iff.mp hsplit with ⟨more, hmore, hafter⟩ | ⟨more, hmore, -⟩
  · -- `b` would be one of the entries after
    rcases List.eq_nil_or_concat more with rfl | ⟨more', e, rfl⟩
    · exact h before a gap b [] (by rw [List.append_nil] at hmore; rw [← hmore]; simp) ha hb hgap
    · rw [List.concat_eq_append, ← List.append_assoc] at hmore
      obtain ⟨-, hlast⟩ := List.append_inj' hmore rfl
      obtain rfl : b = e := by simpa using hlast
      have hunmarked := hmid b (by rw [hafter]; simp)
      rw [hb] at hunmarked
      cases hunmarked
  · exact h before a gap b more (by rw [hmore]; simp) ha hb hgap

/-- **One gap more.** -/
theorem Gaps.cons {a b : α} {mid rest : List α} (hb : mark b = true)
    (hmid : ∀ e ∈ mid, mark e = false) (hP : P mid) (h : Gaps mark P (b :: rest)) :
    Gaps mark P (a :: (mid ++ b :: rest)) := by
  intro before a' gap b' after hl ha' hb' hgap
  cases before with
  | nil =>
    rw [List.nil_append, List.cons.injEq] at hl
    rw [unmarked_unique hmid hgap hb hb' hl.2]
    exact hP
  | cons e before =>
    rw [List.cons_append, List.cons.injEq] at hl
    obtain ⟨before', -, hl'⟩ := split_unmarked hmid ha' hl.2
    exact h before' a' gap b' after hl' ha' hb' hgap

/-- With one marked entry there is no gap. -/
theorem gaps_single {a : α} {mid : List α} (hmid : ∀ e ∈ mid, mark e = false) :
    Gaps mark P (a :: mid) := by
  intro before a' gap b after hl ha' hb hgap
  have hlater : ∃ more, mid = more ++ b :: after := by
    cases before with
    | nil =>
      rw [List.nil_append, List.cons.injEq] at hl
      exact ⟨gap, hl.2⟩
    | cons e before =>
      rw [List.cons_append, List.cons.injEq] at hl
      exact ⟨before ++ a' :: gap, by rw [hl.2]; simp⟩
  obtain ⟨more, rfl⟩ := hlater
  have hunmarked := hmid b (by simp)
  rw [hb] at hunmarked
  cases hunmarked

theorem gaps_nil : Gaps mark P ([] : List α) := by
  intro before a gap b after hl
  simp at hl

end

end BasecradleRouter.Lib
