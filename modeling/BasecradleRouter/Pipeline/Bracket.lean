/-
# The wake bracket

What the journal and the waker see of one execute: where `_wake` is reached by real traffic, one
`wake_start` line, then the calls of the waker with a `wake_retry` line between any two, then one
`wake_end` line, which tells the outcome that the terminal record tells.  A probe and a delivery
that a gate stops leave no such line.

`Left` says of the journal only that there are lines; here the run of `_wake` is looked at once more
for what they are (`wake_told`).
-/
import BasecradleRouter.Lib.Gaps
import BasecradleRouter.Pipeline.Runs

namespace BasecradleRouter.Pipeline

open BasecradleRouter.Lib BasecradleRouter.Logfmt BasecradleRouter.Models BasecradleRouter.Wake
open BasecradleRouter.Evidence BasecradleRouter.WakeLock

/-- A call of the waker. -/
def Effect.isLaunch : Effect → Bool
  | .launch _ => true
  | _ => false

/-- A line of the journal under this event token. -/
def Effect.isLine (name : String) : Effect → Bool
  | .logged line => line.event = name
  | _ => false

/-- One half of the bracket. -/
def Effect.isBracket (e : Effect) : Bool := e.isLine "wake_start" || e.isLine "wake_end"

/-- Neither a call of the waker nor one half of the bracket. -/
def Effect.still (e : Effect) : Bool := !e.isLaunch && !e.isBracket

def Still (effects : List Effect) : Prop := ∀ e ∈ effects, e.still = true

/-- What the attempts themselves may leave. -/
def Unbracketed (effects : List Effect) : Prop := ∀ e ∈ effects, e.isBracket = false

theorem still_nil : Still [] := fun _ he => absurd he List.not_mem_nil

theorem still_singleton {e : Effect} (h : e.still = true) : Still [e] := by
  intro e' he'
  rw [List.mem_singleton.mp he']
  exact h

theorem Still.append {l l' : List Effect} (h : Still l) (h' : Still l') : Still (l ++ l') := by
  intro e he
  rcases List.mem_append.mp he with he | he
  · exact h e he
  · exact h' e he

theorem Still.unbracketed {l : List Effect} (h : Still l) : Unbracketed l := by
  intro e he
  have hstill := h e he
  simp only [Effect.still, Bool.and_eq_true, Bool.not_eq_eq_eq_not, Bool.not_true] at hstill
  exact hstill.2

theorem Still.isLaunch {l : List Effect} (h : Still l) : ∀ e ∈ l, e.isLaunch = false := by
  intro e he
  have hstill := h e he
  simp only [Effect.still, Bool.and_eq_true, Bool.not_eq_eq_eq_not, Bool.not_true] at hstill
  exact hstill.1

theorem launches_of_no_launch {l : List Effect} (h : ∀ e ∈ l, e.isLaunch = false) :
    launches l = [] := by
  refine List.filterMap_eq_nil_iff.mpr fun e he => ?_
  cases e with
  | launch k => exact absurd (h _ he) (by simp [Effect.isLaunch])
  | _ => rfl

theorem Still.launches {l : List Effect} (h : Still l) : launches l = [] :=
  launches_of_no_launch h.isLaunch

/-! ## 1. The attempts -/

section

variable (agent : Agent) (event : Event) (r : Readings) (n : ℕ)

/-- An attempt is made at most as often as there are attempts. -/
theorem triesFrom_launched_le : ∀ left k, n + 1 = k + left → left ≠ 0 →
    (triesFrom agent event r n left k).launched ≤ n
  | 0, _, _, hleft => absurd rfl hleft
  | left + 1, k, hsum, _ => by
    have hk : k ≤ n := by omega
    unfold triesFrom
    split
    · exact hk
    · split
      · exact hk
      · split
        · exact hk
        · simp only
          split
          · exact hk
          · exact triesFrom_launched_le left (k + 1) (by omega) (by omega)

/-- An attempt that another one follows was retried. -/
theorem retried_of_lt_launched : ∀ left k, n + 1 = k + left → left ≠ 0 → ∀ i, k ≤ i →
    i < (triesFrom agent event r n left k).launched → Retried r i
  | 0, _, _, hleft => absurd rfl hleft
  | left + 1, k, hsum, _ => by
    intro i hki hi
    unfold triesFrom at hi
    split at hi
    · exact absurd hki (Nat.not_le.mpr hi)
    · next exc hout =>
      split at hi
      · exact absurd hki (Nat.not_le.mpr hi)
      · next message htransient =>
        split at hi
        · exact absurd hki (Nat.not_le.mpr hi)
        · simp only at hi
          split at hi
          · exact absurd hki (Nat.not_le.mpr hi)
          · next hsleep =>
            rcases Nat.eq_or_lt_of_le hki with rfl | hlater
            · exact ⟨⟨exc, hout, by rw [htransient]; rfl⟩, hsleep⟩
            · exact retried_of_lt_launched left (k + 1) (by omega) (by omega) i hlater hi

/-- The attempts begin with a call of the waker, and there is one `wake_retry` line between any
two. -/
theorem triesFrom_gaps : ∀ left k, n + 1 = k + left → left ≠ 0 →
    (∃ rest, (triesFrom agent event r n left k).effects = .launch k :: rest) ∧
      Gaps Effect.isLaunch (fun gap => (gap.filter (Effect.isLine "wake_retry")).length = 1)
        (triesFrom agent event r n left k).effects ∧
      Unbracketed (triesFrom agent event r n left k).effects
  | 0, _, _, hleft => absurd rfl hleft
  | left + 1, k, hsum, _ => by
    have hlaunch : Unbracketed [.launch k] := by
      intro e he
      rw [List.mem_singleton.mp he]
      rfl
    have hone : (∃ rest, [Effect.launch k] = .launch k :: rest) ∧
        Gaps Effect.isLaunch (fun gap => (gap.filter (Effect.isLine "wake_retry")).length = 1)
          [.launch k] ∧ Unbracketed [.launch k] :=
      ⟨⟨[], rfl⟩, gaps_single (by simp), hlaunch⟩
    have hmid : ∀ message, ∀ e ∈ [Effect.logged (retryLine agent event r n k message), .slept k],
        e.isLaunch = false := by
      intro message e he
      simp only [List.mem_cons, List.not_mem_nil, or_false] at he
      rcases he with rfl | rfl <;> rfl
    have htried : ∀ message, Unbracketed
        [.launch k, .logged (retryLine agent event r n k message), .slept k] := by
      intro message e he
      simp only [List.mem_cons, List.not_mem_nil, or_false] at he
      rcases he with rfl | rfl | rfl <;> rfl
    unfold triesFrom
    split
    · exact hone
    · split
      · exact hone
      · next message _ =>
        split
        · exact hone
        · simp only
          split
          · exact ⟨⟨_, rfl⟩, gaps_single (hmid message), htried message⟩
          · obtain ⟨⟨rest, hrest⟩, hgaps, hun⟩ :=
              triesFrom_gaps left (k + 1) (by omega) (by omega)
            refine ⟨⟨_, rfl⟩, ?_, ?_⟩
            · rw [hrest] at hgaps ⊢
              exact hgaps.cons rfl (hmid message) rfl
            · intro e he
              rcases List.mem_append.mp he with he | he
              · exact htried message e he
              · exact hun e he

end

section

variable (p : Pipeline) (agent : Agent) (event : Event) (r : Readings)

theorem tries_launched_le : (tries p agent event r).launched ≤ p.attempts event := by
  unfold tries
  split
  · exact Nat.zero_le _
  · exact triesFrom_launched_le agent event r _ _ 1 (by omega) (by omega)

theorem tries_retried {i : ℕ} (hone : 1 ≤ i) (hi : i < (tries p agent event r).launched) :
    Retried r i := by
  unfold tries at hi
  split at hi
  · exact absurd hi (Nat.not_lt_zero i)
  · exact retried_of_lt_launched agent event r _ _ 1 (by omega) (by omega) i hone hi

theorem tries_gaps :
    Gaps Effect.isLaunch (fun gap => (gap.filter (Effect.isLine "wake_retry")).length = 1)
        (tries p agent event r).effects ∧ Unbracketed (tries p agent event r).effects := by
  unfold tries
  split
  · exact ⟨gaps_nil, still_nil.unbracketed⟩
  · exact (triesFrom_gaps agent event r _ _ 1 (by omega) (by omega)).2

end

/-! ## 2. The bracket -/

section

variable (p : Pipeline) (agent : Agent) (event : Event) (r : Readings)

/-- What `_wake`'s body tells: the attempts and after them nothing of the bracket, and the verdict
is the exit's, where it has one. -/
theorem wakeBody_told (W : World) (hverdict : W.locals.verdict = none) :
    ∃ W' after, (wakeBody p agent event r).run W = ((wakeExit p agent event r).answer, W') ∧
      W'.effects = W.effects ++ (tries p agent event r).effects ++ after ∧ Still after ∧
      (W'.locals.verdict.map Prod.fst).getD .failed = (wakeExit p agent event r).terminal.2 := by
  have hcalled := tried_tries p agent event r W
  simp only [wakeBody, Py.run_bind, Py.run_catching, withRetry_run, Py.run_look, wakeExit]
  cases hres : (tries p agent event r).result with
  | ok result =>
    have hcovered : Still [.covered (lastStart p agent event r)] := still_singleton rfl
    simp only [hcalled (by simp [hres]), Py.run_bind, recordEvidence_run, flushing]
    cases hf : r.flush.raised with
    | none => exact ⟨_, _, rfl, rfl, hcovered, rfl⟩
    | some exc => exact ⟨_, [], rfl, by simp, still_nil, by simp [hverdict, Exit.terminal]⟩
  | error exc =>
    cases exc with
    | wakeStopped message signal exitCode =>
      have hstopped : Still ([.logged (stopLine p agent event r signal exitCode)] ++
          [.covered (lastStart p agent event r)]) :=
        (still_singleton rfl).append (still_singleton rfl)
      simp only [hcalled (by simp [hres])]
      refine ⟨_, _, rfl, ?_, hstopped, rfl⟩
      simp [stopLine]
    | retryExhausted n cause =>
      simp only [hcalled (by simp [hres]), Py.run_bind, recordEvidence_run, flushing]
      cases hf : r.flush.raised with
      | none => exact ⟨_, [], rfl, by simp, still_nil, rfl⟩
      | some exc => exact ⟨_, [], rfl, by simp, still_nil, by simp [hverdict, Exit.terminal]⟩
    | _ =>
      refine ⟨_, [], rfl, by simp [World.tried], still_nil, ?_⟩
      have hkept : ∀ k effects, (W.tried r k effects).locals.verdict = W.locals.verdict := by
        intro k effects
        unfold World.tried
        split <;> rfl
      show ((W.tried r _ _).locals.verdict.map Prod.fst).getD .failed = _
      rw [hkept, hverdict]
      rfl

/-- The close tells the verdict, and that the wake failed where there is none. -/
theorem closeBracket_told (W : World) : ∃ fields, (closeBracket agent event).run W =
    (.ok (), W.addEffects (bracketLine event
      ⟨"wake_end", some ((W.locals.verdict.map Prod.fst).getD .failed), fields⟩)) := by
  simp only [closeBracket, Py.run_bind, Py.run_look]
  cases W.locals.verdict with
  | none => exact ⟨_, bookend_run event _ _ _ W⟩
  | some v => exact ⟨_, bookend_run event _ _ _ W⟩

/-- **What `_wake` tells**: the bracket opens, the attempts, the bracket closes with the exit's
outcome. -/
theorem wake_told (W : World) :
    ∃ W' after fields, (wake p agent event r).run W = ((wakeExit p agent event r).answer, W') ∧
      W'.effects = W.effects ++ bracketLine event ⟨"wake_start", none, who agent event⟩ ++
        (tries p agent event r).effects ++ after ++ bracketLine event
          ⟨"wake_end", some (wakeExit p agent event r).terminal.2, fields⟩ ∧ Still after := by
  obtain ⟨W₁, after, hrun, heff, hstill, hverdict⟩ := wakeBody_told p agent event r
    ((W.setLocals ⟨0, none, none⟩).addEffects
      (bracketLine event ⟨"wake_start", none, who agent event⟩)) rfl
  obtain ⟨fields, hclose⟩ := closeBracket_told agent event W₁
  rw [hverdict] at hclose
  refine ⟨W₁.addEffects (bracketLine event
    ⟨"wake_end", some (wakeExit p agent event r).terminal.2, fields⟩), after, fields, ?_, ?_,
      hstill⟩
  · simp only [wake, Py.run_bind, Py.run_change, bookend_run, Py.run_finallyDo]
    rw [hrun]
    simp only [hclose]
  · rw [World.addEffects_effects, heff]
    simp

end

/-! ## 3. The whole execute -/

section

variable {p : Pipeline} {agent : Agent} {event : Event} {r : Readings} {W : World}

theorem still_gateEffects (agent : Agent) (event : Event) (r : Readings) (W : World) :
    Still (gateEffects agent event r W) := by
  intro e he
  unfold gateEffects at he
  split at he
  · rcases List.mem_cons.mp he with rfl | he
    · rfl
    · split at he
      · rw [List.mem_singleton.mp he]
        rfl
      · cases he
  · cases he

/-- An execute that gets to `_wake`. -/
theorem execute_told (hwake : reachesWake agent event r W = true) :
    ∃ W' after fields last, (execute p agent event r).run W = (.ok (), W') ∧
      W'.effects = W.effects ++ gateEffects agent event r W ++
        bracketLine event ⟨"wake_start", none, who agent event⟩ ++
        (tries p agent event r).effects ++ after ++ bracketLine event
          ⟨"wake_end", some (wakeExit p agent event r).terminal.2, fields⟩ ++ last ∧
      Still after ∧ Still last := by
  obtain ⟨W₁, after, fields, hrun, heff, hstill⟩ :=
    wake_told p agent event r (W.consulted agent event r)
  rw [World.consulted_effects_eq hwake] at heff
  rw [execute_run_open hwake, hrun]
  have hmarked : Still [.marked event.dedupKey] := still_singleton rfl
  cases (wakeExit p agent event r).answer with
  | ok done =>
    cases done with
    | true => exact ⟨_, after, fields, [.marked event.dedupKey], rfl, by simp [heff], hstill,
      hmarked⟩
    | false =>
      exact ⟨_, after, fields, [], rfl, by simp [heff], hstill, still_nil⟩
  | error exc =>
    exact ⟨_, after, fields, [], rfl, by simp [heff], hstill, still_nil⟩

/-- A program adds nothing of the bracket, and calls no waker, when it runs from here. -/
def StillAt {α : Type} (x : Py World Raised α) (W : World) : Prop :=
  ∃ more, (x.run W).2.effects = W.effects ++ more ∧ Still more

theorem stillAt_of_effects {α : Type} {x : Py World Raised α}
    (h : (x.run W).2.effects = W.effects) : StillAt x W :=
  ⟨[], by rw [h, List.append_nil], still_nil⟩

/-- An execute that a gate stops. -/
theorem execute_still (hwake : reachesWake agent event r W = false) :
    StillAt (execute p agent event r) W := by
  refine @exitOf_cases p agent event r W (fun _ => StillAt (execute p agent event r) W)
    ?_ ?_ ?_ ?_ ?_ ?_ ?_
  · intro hdup
    refine stillAt_of_effects ?_
    rw [execute_run_duplicate hdup]
    exact World.closed_effects
  · intro into hdup hcov
    have hrun := execute_run_covered (p := p) hdup hcov
    rcases World.coalesced_effects (W := W.looked agent event r) with
      heff | ⟨fields, heff⟩
    · refine stillAt_of_effects ?_
      rw [hrun]
      exact heff
    · refine ⟨[.logged (decisionLine event "coalesced" fields)], ?_, still_singleton rfl⟩
      rw [hrun]
      exact heff
  · intro gone hdup hcov hgone
    refine ⟨[.logged (decisionLine event "dropped" [("reason", .str gone)])], ?_,
      still_singleton rfl⟩
    rw [execute_run_dropped hdup hcov hgone]
    rfl
  · intro exc hguard hlock
    refine ⟨[.guardRead r.lock], ?_, still_singleton rfl⟩
    rw [execute_run_unread hguard hlock]
    rfl
  · intro decision hguard hlock hheld
    refine ⟨[.guardRead r.lock], ?_, still_singleton rfl⟩
    rw [execute_run_locked hguard hlock hheld]
    exact World.closed_effects
  · intro hbreaker hfull
    refine ⟨[.guardRead r.lock] ++ [.consulted (admission agent event r W)], ?_,
      (still_singleton rfl).append (still_singleton rfl)⟩
    rw [execute_run_limited hbreaker hfull, ← List.append_assoc]
    exact World.closed_effects
  · intro hopen
    rw [hwake] at hopen
    cases hopen

end

/-! ## 4. One bracket -/

section

variable {p : Pipeline} {W : World} {d : Delivery}

/-- The effects of a delivery that does not get to `_wake`. -/
theorem step_still (hwake : reachesWake d.agent d.event d.readings W = false) :
    Still (W.step p d).effects := by
  obtain ⟨more, heff, hstill⟩ := execute_still (p := p) (W := W.enter) hwake
  rw [World.step, heff]
  exact hstill

/-- The effects of a delivery that does. -/
theorem step_told (hwake : reachesWake d.agent d.event d.readings W = true) :
    ∃ after fields last, (W.step p d).effects = gateEffects d.agent d.event d.readings W ++
        bracketLine d.event ⟨"wake_start", none, who d.agent d.event⟩ ++
        (tries p d.agent d.event d.readings).effects ++ after ++ bracketLine d.event
          ⟨"wake_end", some (wakeExit p d.agent d.event d.readings).terminal.2, fields⟩ ++ last ∧
      Still after ∧ Still last := by
  obtain ⟨W', after, fields, last, hrun, heff, hafter, hlast⟩ :=
    execute_told (p := p) (W := W.enter) hwake
  refine ⟨after, fields, last, ?_, hafter, hlast⟩
  rw [World.step, hrun, heff]
  rfl

/-- What one execute tells of a wake: where real traffic gets to `_wake`, the trace splits in a
`wake_start`, the calls of the waker and a `wake_end`. -/
structure Bracketed (p : Pipeline) (W : World) (d : Delivery) : Prop where
  opened : d.event.synthetic = false → reachesWake d.agent d.event d.readings W = true →
    ∃ before first between last after outcome,
      (W.step p d).effects = before ++ .logged first :: (between ++ .logged last :: after) ∧
      first.event = "wake_start" ∧ last.event = "wake_end" ∧
      Unbracketed before ∧ Unbracketed between ∧ Unbracketed after ∧
      launches before = [] ∧ launches after = [] ∧
      last.outcome = some outcome ∧ W.ends p d = some (.wake, outcome)
  unopened : d.event.synthetic = true ∨ reachesWake d.agent d.event d.readings W = false →
    Unbracketed (W.step p d).effects
  retried : Gaps Effect.isLaunch (fun gap => (gap.filter (Effect.isLine "wake_retry")).length = 1)
    (W.step p d).effects
  gated : reachesWake d.agent d.event d.readings W = false →
    launches (W.step p d).effects = []
  bounded : 1 ≤ p.wakeAttempts →
    (launches (W.step p d).effects).length ≤ p.wakeAttempts
  probe : d.event.synthetic = true → reachesWake d.agent d.event d.readings W = true →
    (launches (W.step p d).effects).length = 1
  final : ∀ before k after, (W.step p d).effects = before ++ .launch k :: after →
    (∀ exc, (d.readings.attempt k).outcome = .error exc → transient exc = none) →
    launches after = []

theorem attempts_synthetic (h : d.event.synthetic = true) : p.attempts d.event = 1 := by
  rw [attempts, if_pos h]

theorem attempts_real (h : d.event.synthetic = false) : p.attempts d.event = p.wakeAttempts := by
  rw [attempts, h]
  rfl

theorem bracketLine_synthetic (h : d.event.synthetic = true) (line : Line) :
    bracketLine d.event line = [] := by
  rw [bracketLine, if_pos h]

theorem bracketLine_real (h : d.event.synthetic = false) (line : Line) :
    bracketLine d.event line = [.logged line] := by
  rw [bracketLine, h]
  rfl

/-- How often the waker is called. -/
theorem length_launches : (launches (W.step p d).effects).length =
    if reachesWake d.agent d.event d.readings W then
      (tries p d.agent d.event d.readings).launched
    else 0 := by
  rw [step_launches]
  split
  · exact List.length_range'
  · rfl

/-- No call of the waker follows one whose outcome is not retried. -/
theorem launches_final {before after : List Effect} {k : ℕ}
    (heff : (W.step p d).effects = before ++ .launch k :: after)
    (hfinal : ∀ exc, (d.readings.attempt k).outcome = .error exc → transient exc = none) :
    launches after = [] := by
  have hlaunches : launches (W.step p d).effects = launches before ++ k :: launches after := by
    rw [heff, launches_append]
    rfl
  rw [step_launches] at hlaunches
  split at hlaunches
  · cases hlater : launches after with
    | nil => rfl
    | cons j rest =>
      exfalso
      rw [hlater] at hlaunches
      have hsorted : (launches before ++ k :: j :: rest).Pairwise (· < ·) :=
        hlaunches ▸ List.pairwise_lt_range'
      have hmem : ∀ i, i ∈ launches before ++ k :: j :: rest →
          1 ≤ i ∧ i < 1 + (tries p d.agent d.event d.readings).launched := by
        intro i hi
        rw [← hlaunches] at hi
        exact List.mem_range'_1.mp hi
      have hkj : k < j :=
        (List.pairwise_cons.mp (List.pairwise_append.mp hsorted).2.1).1 j List.mem_cons_self
      have hj := (hmem j (by simp)).2
      obtain ⟨⟨exc, hout, htransient⟩, -⟩ :=
        tries_retried p d.agent d.event d.readings (hmem k (by simp)).1 (by omega)
      rw [hfinal exc hout] at htransient
      cases htransient
  · exact absurd hlaunches (by simp)

end

/-- **The wake bracket closes and tells the same story**, whatever the waker, the sleeps and the
evidence store do. -/
theorem wake_bracketed (p : Pipeline) (W : World) (d : Delivery) : Bracketed p W d := by
  obtain ⟨hgaps, hun⟩ := tries_gaps p d.agent d.event d.readings
  have hgates := still_gateEffects d.agent d.event d.readings W
  have hle := tries_launched_le p d.agent d.event d.readings
  constructor
  case opened =>
    intro hreal hwake
    obtain ⟨after, fields, last, heff, hafter, hlast⟩ := step_told (p := p) hwake
    rw [bracketLine_real hreal, bracketLine_real hreal] at heff
    refine ⟨gateEffects d.agent d.event d.readings W, ⟨"wake_start", none, who d.agent d.event⟩,
      (tries p d.agent d.event d.readings).effects ++ after,
      ⟨"wake_end", some (wakeExit p d.agent d.event d.readings).terminal.2, fields⟩, last,
      (wakeExit p d.agent d.event d.readings).terminal.2, ?_, rfl, rfl,
      hgates.unbracketed, ?_, hlast.unbracketed, hgates.launches, hlast.launches, rfl, ?_⟩
    · rw [heff]
      simp
    · intro e he
      rcases List.mem_append.mp he with he | he
      · exact hun e he
      · exact hafter.unbracketed e he
    · rw [ends_eq, World.exit, exitOf_eq_wakeExit hwake]
      exact congrArg some (Prod.ext (wakeExit_stage p d.agent d.event d.readings) rfl)
  case unopened =>
    intro h
    cases hwake : reachesWake d.agent d.event d.readings W with
    | false => exact (step_still hwake).unbracketed
    | true =>
      have hsynthetic : d.event.synthetic = true := by simpa [hwake] using h
      obtain ⟨after, fields, last, heff, hafter, hlast⟩ := step_told (p := p) hwake
      rw [bracketLine_synthetic hsynthetic, bracketLine_synthetic hsynthetic] at heff
      intro e he
      rw [heff] at he
      simp only [List.append_nil, List.mem_append] at he
      rcases he with ((he | he) | he) | he
      · exact hgates.unbracketed e he
      · exact hun e he
      · exact hafter.unbracketed e he
      · exact hlast.unbracketed e he
  case retried =>
    cases hwake : reachesWake d.agent d.event d.readings W with
    | false =>
      have hstill := (step_still (p := p) hwake).isLaunch
      have hnil := gaps_nil.before
        (P := fun gap => (gap.filter (Effect.isLine "wake_retry")).length = 1) hstill
      exact hnil
    | true =>
      obtain ⟨after, fields, last, heff, hafter, hlast⟩ := step_told (p := p) hwake
      have hbracket : ∀ line, ∀ e ∈ bracketLine d.event line, e.isLaunch = false := by
        intro line e he
        obtain ⟨line', rfl⟩ := onlyLines_bracket d.event line e he
        rfl
      rw [heff]
      have hbegin : ∀ e ∈ gateEffects d.agent d.event d.readings W ++
          bracketLine d.event ⟨"wake_start", none, who d.agent d.event⟩, e.isLaunch = false := by
        intro e he
        rcases List.mem_append.mp he with he | he
        · exact hgates.isLaunch e he
        · exact hbracket _ e he
      exact (((hgaps.after hbegin).before hafter.isLaunch).before
        (hbracket _)).before hlast.isLaunch
  case gated =>
    intro hwake
    exact (step_still hwake).launches
  case bounded =>
    intro hone
    rw [length_launches]
    cases hsynthetic : d.event.synthetic with
    | true =>
      rw [attempts_synthetic hsynthetic] at hle
      split <;> omega
    | false =>
      rw [attempts_real hsynthetic] at hle
      split <;> omega
  case probe =>
    intro hsynthetic hwake
    have hpos := (launched_pos p d.agent d.event d.readings).mpr
    rw [attempts_synthetic hsynthetic] at hle hpos
    rw [length_launches, if_pos hwake]
    have hone := hpos Nat.one_pos
    omega
  case final =>
    intro before k after heff hfinal
    exact launches_final heff hfinal

end BasecradleRouter.Pipeline
