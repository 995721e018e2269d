/-
# The wake-lock interlock

The guard reads the lock once, before the breaker and before the retry loop.  `interlocked_iff`
says what that comes to: every launch has a waking reading of its own exactly where there is only
one launch, and no lock stands in the way of a launch exactly where none was placed between the
reading and it.  From the second attempt on there is no reading at all.
-/
import BasecradleRouter.Pipeline.Runs

namespace BasecradleRouter.Pipeline

open BasecradleRouter.Lib BasecradleRouter.Logfmt BasecradleRouter.Models BasecradleRouter.Wake
open BasecradleRouter.WakeLock

/-! ## 1. What is asked of every launch -/

/-- Every launch is made on a waking reading of the lock taken for it, after the launch before;
and when its attempt begins, the lock file is in a waking state.  `file k` is what the lock file
amounts to at the beginning of the `k`-th attempt. -/
def Interlocked (effects : List Effect) (file : ℕ → WakeLockState) : Prop :=
  ∀ before k later, effects = before ++ .launch k :: later →
    (∃ earlier decision between, before = earlier ++ .guardRead (.ok decision) :: between ∧
      launches between = [] ∧ decision.shouldWake = true) ∧
    (file k).waking = true

/-! ## 2. Where the guard's reading stands -/

/-- A launch among the launches is a launch among the effects. -/
theorem split_of_launches {effects : List Effect} {a b : List ℕ} {k : ℕ}
    (h : launches effects = a ++ k :: b) :
    ∃ before later, effects = before ++ .launch k :: later ∧ launches before = a := by
  obtain ⟨before, rest, rfl, ha, hrest⟩ := List.filterMap_eq_append_iff.mp h
  obtain ⟨skipped, e, later, rfl, hskipped, he, -⟩ := List.filterMap_eq_cons_iff.mp hrest
  obtain rfl : e = .launch k := by
    cases e with
    | launch k' => exact congrArg _ (Option.some.inj he)
    | _ => exact absurd he (by simp)
  refine ⟨before ++ skipped, later, by simp, ?_⟩
  have hnone : launches skipped = [] := List.filterMap_eq_nil_iff.mpr hskipped
  rw [launches_append, hnone, List.append_nil]
  exact ha

/-- The guard's reading comes first, and is the only one. -/
theorem step_guardRead {p : Pipeline} {W : World} {d : Delivery}
    (hwake : reachesWake d.agent d.event d.readings W = true) :
    ∃ decision rest, (W.step p d).effects = .guardRead (.ok decision) :: rest ∧
      decision.shouldWake = true ∧ ∀ reading, .guardRead reading ∉ rest := by
  obtain ⟨hbreaker, -⟩ := reachesWake_iff.mp hwake
  obtain ⟨hguard, decision, hlock, hfree⟩ := reachesBreaker_iff.mp hbreaker
  obtain ⟨effects, heff, hhappened⟩ := (step_left p W d).effects
  obtain ⟨l₁, l₂, l₃, h₁, h₂, h₃, hsplit⟩ := hhappened.split
  have hgates : gateEffects d.agent d.event d.readings W.enter =
      [.guardRead (.ok decision), .consulted (admission d.agent d.event d.readings W)] := by
    have hguard' : reachesGuard d.agent d.event d.readings W.enter = true := hguard
    have hbreaker' : reachesBreaker d.agent d.event d.readings W.enter = true := hbreaker
    simp only [gateEffects, hguard', hbreaker', if_true, hlock]
    rfl
  rw [hgates] at hsplit
  refine ⟨decision, .consulted (admission d.agent d.event d.readings W) :: (l₁ ++
    (if reachesWake d.agent d.event d.readings W.enter then
      (tries p d.agent d.event d.readings).effects else []) ++ l₂ ++
    (if (W.exit p d).done then [.covered (lastStart p d.agent d.event d.readings)] else []) ++ l₃ ++
    (if (W.exit p d).done then [.marked d.event.dedupKey] else [])), ?_, hfree, ?_⟩
  · rw [heff, hsplit]
    simp [World.enter]
  · intro reading
    have hlines : ∀ {l : List Effect}, OnlyLines l → .guardRead reading ∉ l := by
      intro l hl hmem
      obtain ⟨line, hline⟩ := hl _ hmem
      exact absurd hline (by simp)
    have htries : .guardRead reading ∉ (if reachesWake d.agent d.event d.readings W.enter then
        (tries p d.agent d.event d.readings).effects else []) := by
      split
      · intro hmem
        have hof := tries_ofAttempt p d.agent d.event d.readings _ hmem
        exact absurd hof (by simp [Effect.ofAttempt])
      · exact List.not_mem_nil
    simp only [List.mem_cons, List.mem_append, hlines h₁, hlines h₂, hlines h₃, htries]
    cases (W.exit p d).done <;> simp

/-- A closed gate launches nothing. -/
theorem step_launches_eq_nil {p : Pipeline} {W : World} {d : Delivery}
    (hwake : reachesWake d.agent d.event d.readings W = false) :
    launches (W.step p d).effects = [] := by
  rw [step_launches, hwake]
  rfl

/-! ## 3. When the interlock holds -/

/-- What the interlock takes, where every gate is open: there is no attempt to make, or the lock
is still free when the first one begins and no second one follows. -/
def OneFreeLaunch (p : Pipeline) (W : World) (d : Delivery) (file : ℕ → WakeLockState) : Prop :=
  reachesWake d.agent d.event d.readings W = true → 0 < p.attempts d.event →
    (file 1).waking = true ∧ ¬ (1 < p.attempts d.event ∧ Retried d.readings 1)

/-- **The interlock holds iff only one attempt is launched, into a free lock.** -/
theorem interlocked_iff (p : Pipeline) (W : World) (d : Delivery) (file : ℕ → WakeLockState) :
    Interlocked (W.step p d).effects file ↔ OneFreeLaunch p W d file := by
  cases hwake : reachesWake d.agent d.event d.readings W with
  | false =>
    have hnone := step_launches_eq_nil (p := p) hwake
    refine ⟨fun _ h => absurd (hwake.symm.trans h) (by simp), fun _ before k later hsplit => ?_⟩
    rw [hsplit, launches_append] at hnone
    simp [launches] at hnone
  | true =>
    obtain ⟨decision, rest, hes, hfree, hunique⟩ := step_guardRead (p := p) hwake
    have hlaunches := step_launches p W d
    rw [if_pos hwake] at hlaunches
    constructor
    · intro hinter _ hpos
      have hcalled := (launched_pos p d.agent d.event d.readings).mpr hpos
      obtain ⟨n, hn⟩ : ∃ n, (tries p d.agent d.event d.readings).launched = n + 1 :=
        ⟨_, (Nat.succ_pred_eq_of_pos hcalled).symm⟩
      rw [hn, List.range'_succ] at hlaunches
      refine ⟨?_, ?_⟩
      · obtain ⟨before, later, hsplit, -⟩ := split_of_launches (a := []) hlaunches
        exact (hinter before 1 later hsplit).2
      · -- a second launch has no reading of its own: the only one is the first effect of all
        intro hretried
        have htwo := (one_lt_launched_iff p d.agent d.event d.readings).mpr hretried
        obtain ⟨m, rfl⟩ : ∃ m, n = m + 1 := ⟨n - 1, by omega⟩
        rw [List.range'_succ] at hlaunches
        obtain ⟨before, later, hsplit, hbefore⟩ := split_of_launches (a := [1]) hlaunches
        obtain ⟨⟨earlier, decision', between, rfl, hbetween, -⟩, -⟩ := hinter before _ later hsplit
        rw [hes] at hsplit
        cases earlier with
        | nil =>
          rw [List.nil_append] at hbefore
          have hone : launches between = [1] := hbefore
          rw [hbetween] at hone
          exact absurd hone (by simp)
        | cons e earlier =>
          obtain ⟨-, hrest⟩ := List.cons.inj hsplit
          exact hunique (.ok decision') (by rw [hrest]; simp)
    · intro hone before k later hsplit
      have hk : launches before ++ k :: launches later =
          List.range' 1 (tries p d.agent d.event d.readings).launched := by
        rw [← hlaunches, hsplit, launches_append]
        rfl
      have hpos : 0 < p.attempts d.event := by
        rw [← launched_pos p d.agent d.event d.readings]
        have hlen := congrArg List.length hk
        simp at hlen
        omega
      obtain ⟨hfile, honly⟩ := hone hwake hpos
      have hlaunched : (tries p d.agent d.event d.readings).launched = 1 := by
        rw [← one_lt_launched_iff p d.agent] at honly
        have := (launched_pos p d.agent d.event d.readings).mpr hpos
        omega
      rw [hlaunched] at hk
      obtain ⟨hbefore, rfl⟩ : launches before = [] ∧ k = 1 := by
        cases hb : launches before with
        | nil =>
          rw [hb] at hk
          exact ⟨rfl, (List.cons.inj hk).1⟩
        | cons j js => simp [hb] at hk
      refine ⟨?_, hfile⟩
      rw [hes] at hsplit
      cases before with
      | nil => simp at hsplit
      | cons e before =>
        obtain ⟨rfl, -⟩ := List.cons.inj hsplit
        exact ⟨[], decision, before, rfl, hbefore, hfree⟩

/-- A delivery whose first attempt fails, and whose lock the NOC has taken when the second one
begins. -/
def retriedIntoLock : Delivery :=
  .sample "1" (by decide) 5 (by decide) 0 (.error (.wakeError "down"))

/-- **A retry into a held lock.**  The guard finds no lock and the first attempt fails; the lock
is held when the second attempt is launched, and no reading was taken for it. -/
theorem not_interlocked_bob :
    launches (World.sample.step ⟨3⟩ retriedIntoLock).effects = [1, 2, 3] ∧
      ¬ Interlocked (World.sample.step ⟨3⟩ retriedIntoLock).effects
        (fun k => if k = 1 then .absent else .held) := by
  have hlaunches : launches (World.sample.step ⟨3⟩ retriedIntoLock).effects = [1, 2, 3] := by
    decide +kernel
  refine ⟨hlaunches, fun h => ?_⟩
  obtain ⟨before, later, hsplit, -⟩ := split_of_launches (a := [1]) hlaunches
  exact absurd (h before 2 later hsplit).2 (by decide)

end BasecradleRouter.Pipeline
