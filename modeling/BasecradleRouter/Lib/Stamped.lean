/-
# The newest of what is stamped

A register takes one stamped value after another: an older one is let go, a newer one replaces what
is held, and one with the stamp of what is held is settled with it.  `held_eq` is what a register
holds in the end, in whatever order the values came: of all of them it has settled those that bear
the greatest stamp, in the order in which they came.

Where the values are settled by authority, a value that is first-hand outranks one that is not, and
otherwise the later one wins; what is held is then that of one value, `decisive`.
-/
import Mathlib.Data.List.Induction
import Mathlib.Order.Bounds.Basic
import Mathlib.Order.Lattice

namespace BasecradleRouter.Lib.Stamped

variable {ρ τ : Type*} [LinearOrder τ] {stamp : ρ → τ} {settle : ρ → ρ → ρ}

/-- One more value for the register. -/
def takeIn (stamp : ρ → τ) (settle : ρ → ρ → ρ) (held value : ρ) : ρ :=
  if stamp value < stamp held then held
  else if stamp value = stamp held then settle held value
  else value

/-- The first value, or one more. -/
def accept (take : ρ → ρ → ρ) (held : Option ρ) (value : ρ) : Option ρ :=
  some (held.elim value fun held => take held value)

/-- The register after values in the order they come. -/
def held (take : ρ → ρ → ρ) (values : List ρ) : Option ρ := values.foldl (accept take) none

/-- Whether a value bears the greatest stamp of them all. -/
def newest (stamp : ρ → τ) (values : List ρ) (value : ρ) : Bool :=
  values.all fun other => stamp other ≤ stamp value

/-- The values that bear the greatest stamp. -/
def atNewest (stamp : ρ → τ) (values : List ρ) : List ρ :=
  values.filter (newest stamp values)

section

variable (take : ρ → ρ → ρ) (values : List ρ) (value : ρ)

@[simp] theorem held_nil : held take [] = none := rfl

theorem held_snoc : held take (values ++ [value]) = accept take (held take values) value := by
  simp [held]

theorem held_eq_none {values : List ρ} : held take values = none ↔ values = [] := by
  induction values using List.reverseRecOn with
  | nil => exact iff_of_true rfl rfl
  | append_singleton values value _ =>
    rw [held_snoc]
    exact iff_of_false nofun (List.append_ne_nil_of_right_ne_nil _ (List.cons_ne_nil _ _))

theorem newest_iff : newest stamp values value = true ↔
    ∀ other ∈ values, stamp other ≤ stamp value := by
  simp [newest]

theorem mem_atNewest : value ∈ atNewest stamp values ↔
    value ∈ values ∧ ∀ other ∈ values, stamp other ≤ stamp value := by
  rw [atNewest, List.mem_filter, newest_iff]

end

/-- Those that bear the greatest stamp, once there is one more. -/
theorem atNewest_snoc {values : List ρ} {value top : ρ} (htop : top ∈ atNewest stamp values) :
    atNewest stamp (values ++ [value]) =
      if stamp value < stamp top then atNewest stamp values
      else if stamp value = stamp top then atNewest stamp values ++ [value]
      else [value] := by
  obtain ⟨hmem, hmax⟩ := (mem_atNewest values top).mp htop
  -- the old values that still bear the greatest stamp
  have hold : (values.filter fun v => newest stamp (values ++ [value]) v) =
      if stamp value ≤ stamp top then atNewest stamp values else [] := by
    split
    · next hle =>
      refine List.filter_congr fun v hv => Bool.eq_iff_iff.mpr ?_
      rw [newest_iff, newest_iff]
      constructor
      · exact fun h other hother => h other (List.mem_append_left _ hother)
      · intro h other hother
        rcases List.mem_append.mp hother with hin | hlast
        · exact h other hin
        · rw [List.mem_singleton.mp hlast]
          exact hle.trans (h top hmem)
    · next hgt =>
      refine List.filter_eq_nil_iff.mpr fun v hv hnewest => ?_
      have hle : stamp value ≤ stamp v := (newest_iff _ v).mp hnewest value (by simp)
      exact hgt (hle.trans (hmax v hv))
  have hlast : ([value].filter fun v => newest stamp (values ++ [value]) v) =
      if stamp value < stamp top then [] else [value] := by
    split
    · next hlt =>
      refine List.filter_eq_nil_iff.mpr fun v hv hnewest => ?_
      rw [List.mem_singleton.mp hv] at hnewest
      exact absurd ((newest_iff _ value).mp hnewest top (by simp [hmem])) hlt.not_ge
    · next hge =>
      refine List.filter_eq_self.mpr fun v hv => (newest_iff _ v).mpr fun other hother => ?_
      rw [List.mem_singleton.mp hv]
      rcases List.mem_append.mp hother with hin | hlast
      · exact (hmax other hin).trans (not_lt.mp hge)
      · rw [List.mem_singleton.mp hlast]
  rw [atNewest, List.filter_append, hold, hlast]
  rcases lt_trichotomy (stamp value) (stamp top) with hlt | heq | hgt
  · rw [if_pos hlt.le, if_pos hlt, if_pos hlt, List.append_nil]
  · rw [if_pos heq.le, if_neg heq.not_lt, if_neg heq.not_lt, if_pos heq]
  · rw [if_neg hgt.not_ge, if_neg hgt.not_gt, if_neg hgt.not_gt, if_neg hgt.ne', List.nil_append]

/-- The register after values that there are some of: it holds what came of those of the greatest
stamp, and bears it. -/
theorem held_takeIn (hsettle : ∀ a b, stamp b = stamp a → stamp (settle a b) = stamp b)
    {values : List ρ} (hne : values ≠ []) :
    ∃ v top, held (takeIn stamp settle) values = some v ∧
      held settle (atNewest stamp values) = some v ∧ top ∈ atNewest stamp values ∧
      stamp v = stamp top := by
  induction values using List.reverseRecOn with
  | nil => exact absurd rfl hne
  | append_singleton values value ih =>
    rw [held_snoc]
    by_cases hnil : values = []
    · subst hnil
      have hself : atNewest stamp ([] ++ [value]) = [value] := by simp [atNewest, newest]
      rw [hself]
      exact ⟨value, value, rfl, rfl, by simp, rfl⟩
    · obtain ⟨v, top, hv, hsettled, htop, hstamp⟩ := ih hnil
      rw [hv, atNewest_snoc htop, accept, Option.elim_some, takeIn, hstamp]
      rcases lt_trichotomy (stamp value) (stamp top) with hlt | heq | hgt
      · rw [if_pos hlt, if_pos hlt]
        exact ⟨v, top, rfl, hsettled, htop, hstamp⟩
      · rw [if_neg heq.not_lt, if_pos heq, if_neg heq.not_lt, if_pos heq, held_snoc, hsettled]
        refine ⟨settle v value, value, rfl, rfl, by simp, ?_⟩
        exact hsettle v value (heq.trans hstamp.symm)
      · rw [if_neg hgt.not_gt, if_neg hgt.ne', if_neg hgt.not_gt, if_neg hgt.ne']
        exact ⟨value, value, rfl, rfl, by simp, rfl⟩

/-- One more value leaves the later stamp of the two. -/
theorem stamp_takeIn (hsettle : ∀ a b, stamp b = stamp a → stamp (settle a b) = stamp b)
    (held value : ρ) :
    stamp (takeIn stamp settle held value) = max (stamp held) (stamp value) := by
  unfold takeIn
  rcases lt_trichotomy (stamp value) (stamp held) with hlt | heq | hgt
  · rw [if_pos hlt, max_eq_left hlt.le]
  · rw [if_neg heq.not_lt, if_pos heq, hsettle held value heq, heq, max_self]
  · rw [if_neg hgt.not_gt, if_neg hgt.ne', max_eq_right hgt.le]

/-- **What a register holds** is what came of the values of the greatest stamp. -/
theorem held_eq (hsettle : ∀ a b, stamp b = stamp a → stamp (settle a b) = stamp b)
    (values : List ρ) :
    held (takeIn stamp settle) values = held settle (atNewest stamp values) := by
  by_cases hne : values = []
  · rw [hne]
    rfl
  · obtain ⟨v, -, hv, hsettled, -⟩ := held_takeIn hsettle hne
    rw [hv, hsettled]

/-- It bears the greatest stamp. -/
theorem isGreatest_held (hsettle : ∀ a b, stamp b = stamp a → stamp (settle a b) = stamp b)
    {values : List ρ} {v : ρ} (h : held (takeIn stamp settle) values = some v) :
    IsGreatest {t | ∃ value ∈ values, stamp value = t} (stamp v) := by
  have hne : values ≠ [] := by
    rintro rfl
    cases h
  obtain ⟨v', top, hv', -, htop, hstamp⟩ := held_takeIn hsettle hne
  obtain ⟨hmem, hmax⟩ := (mem_atNewest values top).mp htop
  rw [h] at hv'
  cases hv'
  refine ⟨⟨top, hmem, hstamp.symm⟩, ?_⟩
  rintro t ⟨value, hvalue, rfl⟩
  rw [hstamp]
  exact hmax value hvalue

/-! ## Settling by authority -/

/-- The last value that is first-hand, or the last of all where none is. -/
def decisive (firstHand : ρ → Bool) (values : List ρ) : Option ρ :=
  (values.filter firstHand).getLast?.or values.getLast?

theorem decisive_map {σ : Type*} (f : σ → ρ) (firstHand : ρ → Bool) (values : List σ) :
    decisive firstHand (values.map f) = (decisive (firstHand ∘ f) values).map f := by
  rw [decisive, decisive, List.filter_map, List.getLast?_map, List.getLast?_map, Option.map_or]

/-- What is held has one value's word, the decisive one's. -/
theorem held_decisive {α : Type*} (word : ρ → α) (firstHand : ρ → Bool)
    (hfirst : ∀ a b, firstHand (settle a b) = (firstHand a || firstHand b))
    (hword : ∀ a b, word (settle a b) = if firstHand a && !firstHand b then word a else word b)
    {values : List ρ} {v : ρ} (h : held settle values = some v) :
    firstHand v = values.any firstHand ∧
      ∃ d, decisive firstHand values = some d ∧ word v = word d := by
  induction values using List.reverseRecOn generalizing v with
  | nil => cases h
  | append_singleton values value ih =>
    rw [held_snoc, accept, Option.some.injEq] at h
    rw [List.any_append, decisive, List.filter_append, List.getLast?_concat]
    cases hheld : held settle values with
    | none =>
      have hnil := (held_eq_none _).mp hheld
      rw [hheld, Option.elim_none] at h
      subst h hnil
      refine ⟨by simp, value, ?_, rfl⟩
      cases hvalue : firstHand value with
      | true => simp [hvalue]
      | false => simp [hvalue]
    | some known =>
      obtain ⟨hany, d, hd, hword'⟩ := ih hheld
      rw [hheld, Option.elim_some] at h
      subst h
      refine ⟨by rw [hfirst, hany]; simp, ?_⟩
      rw [hword]
      cases hvalue : firstHand value with
      | true => exact ⟨value, by simp [hvalue], by simp⟩
      | false =>
        have hnot : [value].filter firstHand = [] := List.filter_cons_of_neg (by simp [hvalue])
        rw [hnot]
        cases hknown : firstHand known with
        | false =>
          -- no value is first-hand yet
          have hnone : values.filter firstHand = [] := by
            refine List.filter_eq_nil_iff.mpr fun a ha hfirstHand => ?_
            have htrue : values.any firstHand = true := List.any_eq_true.mpr ⟨a, ha, hfirstHand⟩
            rw [← hany, hknown] at htrue
            cases htrue
          exact ⟨value, by simp [hnone], by simp⟩
        | true =>
          obtain ⟨a, ha, hfirstHand⟩ := List.any_eq_true.mp (hany.symm.trans hknown)
          have hsome : (values.filter firstHand).getLast? ≠ none := by
            rw [ne_eq, List.getLast?_eq_none_iff]
            exact List.ne_nil_of_mem (List.mem_filter.mpr ⟨ha, hfirstHand⟩)
          obtain ⟨last, hlast⟩ := Option.ne_none_iff_exists'.mp hsome
          rw [decisive, hlast, Option.some_or, Option.some.injEq] at hd
          subst hd
          exact ⟨last, by simp [hlast], by simpa using hword'⟩

end BasecradleRouter.Lib.Stamped
