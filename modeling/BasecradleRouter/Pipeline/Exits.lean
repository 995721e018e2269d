/-
# The exits of `execute`

Every execute leaves by one of nine exits.  `exitOf` decides which one from the stores and the
readings alone; the tables of `Exit` say what each one means: its terminal record, the counter
it raises, whether the delivery is done, whether the breaker was asked.  `exitOf_cases` is the
one case analysis on the gates; what follows from the exit taken is read off through it.

`Left` is what an execute by an exit leaves of the world; that it does is proved in
`Pipeline.Leaves`.
-/
import BasecradleRouter.Pipeline.Tries

namespace BasecradleRouter.Pipeline

open BasecradleRouter.Lib BasecradleRouter.Logfmt BasecradleRouter.Models BasecradleRouter.Wake
open BasecradleRouter.Breaker BasecradleRouter.Coalesce BasecradleRouter.Concurrency
open BasecradleRouter.Dedup BasecradleRouter.Evidence BasecradleRouter.WakeLock

/-! ## 1. The gates, as predicates -/

section

variable (agent : Agent) (event : Event) (r : Readings) (W : World)

/-- The dedup gate's answer. -/
def duplicate : Bool := (W.deduper.seen event.dedupKey r.seenAt).1

/-- The coalesce gate's answer. -/
def covering : Option Coverage := W.coverage.covering agent.harnessKey event

/-- The breaker's answer. -/
def admission : BreakerOutcome :=
  (W.breaker.admitWake agent.harnessKey (some event.streamKey) r.admitAt).1

/-- The gates before the guard are open: neither a duplicate nor covered nor dropped. -/
def reachesGuard : Bool :=
  !duplicate event r W && (covering agent event W).isNone && (routeRecheck r.recheck).isNone

/-- The gates before the breaker are open. -/
def reachesBreaker : Bool :=
  reachesGuard agent event r W &&
    match r.lock with
    | .ok decision => decision.shouldWake
    | .error _ => false

/-- Every gate is open. -/
def reachesWake : Bool :=
  reachesBreaker agent event r W && (admission agent event r W).admitted

end

/-! ## 2. The exits -/

/-- Where an execute was when an exception came up. -/
inductive Point
  | dedup
  | coalesce
  | guard
  | locked
  | limited
  | waking
  | exhausted
  | woke
  deriving DecidableEq, Repr

/-- How an execute ends. -/
inductive Exit
  /-- a duplicate of a delivery already done -/
  | dedup
  /-- covered by an earlier wake -/
  | coalesce (into : Coverage) (occurred : Value)
  /-- the work ended while the delivery waited -/
  | recheck (gone : String)
  /-- the wake-lock refuses -/
  | locked (decision : WakeLockDecision)
  /-- the breaker refuses -/
  | limited (outcome : BreakerOutcome)
  /-- the wake was stopped by a signal -/
  | stopped (signal : String) (exitCode : ℤ)
  /-- every attempt failed -/
  | exhausted (error : String)
  /-- the wake succeeded -/
  | woke (result : WakeResult)
  /-- an exception nobody expected -/
  | unexpected (point : Point) (exc : Raised)

/-- An exit that flushes the evidence on the way: the flush may raise instead. -/
def flushing (r : Readings) (point : Point) (exit : Exit) : Exit :=
  match r.flush.raised with
  | none => exit
  | some exc => .unexpected point exc

/-- The exit `_wake` prepares: what comes out of the retry, and how the flush goes. -/
def wakeExit (p : Pipeline) (agent : Agent) (event : Event) (r : Readings) : Exit :=
  match (tries p agent event r).result with
  | .error (.wakeStopped _ signal exitCode) => .stopped signal exitCode
  | .error (.retryExhausted n cause) =>
    flushing r .exhausted (.exhausted (cause.getD (Raised.retryExhausted n cause).text))
  | .error exc => .unexpected .waking exc
  | .ok result => flushing r .woke (.woke result)

/-- The exit of a covered delivery: its moment is rendered after the counter rose. -/
def coveredExit (event : Event) (into : Coverage) : Exit :=
  match instant event.occurredAt with
  | .ok occurred => .coalesce into occurred
  | .error exc => .unexpected .coalesce exc

/-- The exit of an execute. -/
def exitOf (p : Pipeline) (agent : Agent) (event : Event) (r : Readings) (W : World) : Exit :=
  if duplicate event r W then
    flushing r .dedup .dedup
  else
    match covering agent event W with
    | some into => flushing r .coalesce (coveredExit event into)
    | none =>
      match routeRecheck r.recheck with
      | some gone => .recheck gone
      | none =>
        match r.lock with
        | .error exc => .unexpected .guard exc
        | .ok decision =>
          if !decision.shouldWake then
            flushing r .locked (.locked decision)
          else if !(admission agent event r W).admitted then
            flushing r .limited (.limited (admission agent event r W))
          else
            wakeExit p agent event r

namespace Exit

/-- The stage and outcome of the terminal record. -/
def terminal : Exit → Stage × Outcome
  | .dedup => (.dedup, .ignored)
  | .coalesce _ _ => (.coalesce, .ignored)
  | .recheck _ => (.recheck, .ignored)
  | .locked _ => (.wakeLock, .ignored)
  | .limited _ => (.breaker, .ignored)
  | .stopped _ _ => (.wake, .stopped)
  | .exhausted _ => (.wake, .failed)
  | .woke _ => (.wake, .ok)
  | .unexpected _ _ => (.wake, .failed)

/-- The delivery is done: woken, or stopped. -/
def done : Exit → Bool
  | .stopped _ _ => true
  | .woke _ => true
  | _ => false

/-- The outcome counted in the evidence. -/
def counter : Exit → Option Counter
  | .dedup => some .deduped
  | .coalesce _ _ => some .deduped
  | .recheck _ => none
  | .locked _ => some .refused
  | .limited _ => some .refused
  | .stopped _ _ => none
  | .exhausted _ => some .failed
  | .woke _ => some .ok
  | .unexpected .dedup _ => some .deduped
  | .unexpected .coalesce _ => some .deduped
  | .unexpected .guard _ => none
  | .unexpected .locked _ => some .refused
  | .unexpected .limited _ => some .refused
  | .unexpected .waking _ => none
  | .unexpected .exhausted _ => some .failed
  | .unexpected .woke _ => some .ok

/-- The breaker was asked. -/
def consulted : Exit → Bool
  | .limited _ => true
  | .stopped _ _ => true
  | .exhausted _ => true
  | .woke _ => true
  | .unexpected .limited _ => true
  | .unexpected .waking _ => true
  | .unexpected .exhausted _ => true
  | .unexpected .woke _ => true
  | _ => false

/-- The fields of the terminal record after the delivery's own, `attempts` and `took` being the
wake's. -/
def fields (attempts : ℕ) (took : ℚ) : Exit → List (String × Value)
  | .dedup => [("reason", .str duplicateDelivery)]
  | .coalesce into occurred =>
    [("into", .str into.delivery), ("occurred", occurred),
      ("wake_started", .str into.startedAt.isoformatZ)]
  | .recheck gone => [("reason", .str gone)]
  | .locked decision => [("reason", .str decision.detail)]
  | .limited outcome => [("reason", .str outcome.detail)]
  | .stopped signal exitCode =>
    [("signal", .str signal), ("exit", .int exitCode), ("duration", .str (seconds took))]
  | .exhausted error =>
    [("attempts", .int attempts), ("duration", .str (seconds took)), ("error", .str error)]
  | .woke result => [("exit", .int result.exitCode), ("duration", .str (seconds took))]
  | .unexpected _ exc => [("error", .str ("unexpected: " ++ exc.text))]

/-- What `_wake` answers at the exit: whether the delivery is done, or the exception that goes on
up. -/
def answer : Exit → Except Raised Bool
  | .unexpected _ exc => .error exc
  | x => .ok x.done

end Exit

/-- The terminal record of an exit. -/
def terminalRecord (p : Pipeline) (agent : Agent) (event : Event) (r : Readings) (x : Exit) :
    StageRecord :=
  .render x.terminal.1 x.terminal.2
    (who agent event ++
      x.fields (p.attempts event) (took p agent event r))

/-! ## 3. What happened on the way -/

/-- The guard's reading and the breaker's answer, in the effects. -/
def gateEffects (agent : Agent) (event : Event) (r : Readings) (W : World) : List Effect :=
  if reachesGuard agent event r W then
    .guardRead r.lock ::
      if reachesBreaker agent event r W then [.consulted (admission agent event r W)] else []
  else
    []

/-- Effects that are only lines in the journal. -/
def OnlyLines (effects : List Effect) : Prop := ∀ e ∈ effects, ∃ line, e = .logged line

/-- The effects of an execute: the gates', then those of the attempts where there were any, and
the store updates of a delivery that is done, with journal lines between them. -/
structure Happened (p : Pipeline) (agent : Agent) (event : Event) (r : Readings) (W : World)
    (x : Exit) (effects : List Effect) : Prop where
  split : ∃ l₁ l₂ l₃, OnlyLines l₁ ∧ OnlyLines l₂ ∧ OnlyLines l₃ ∧
    effects = gateEffects agent event r W ++ l₁ ++
      (if reachesWake agent event r W then (tries p agent event r).effects else []) ++ l₂ ++
      (if x.done then [.covered (lastStart p agent event r)] else []) ++ l₃ ++
      (if x.done then [.marked event.dedupKey] else [])

/-- What an execute by the exit `x` leaves of a world. -/
structure Left (p : Pipeline) (agent : Agent) (event : Event) (r : Readings) (x : Exit)
    (W W' : World) : Prop where
  deduper : W'.deduper =
    let looked := (W.deduper.seen event.dedupKey r.seenAt).2
    if x.done then looked.mark event.dedupKey r.markAt else looked
  coverage : W'.coverage =
    if x.done then
      W.coverage.record agent.harnessKey event (lastStart p agent event r)
    else
      W.coverage
  breaker : W'.breaker =
    if x.consulted then
      (W.breaker.admitWake agent.harnessKey (some event.streamKey) r.admitAt).2
    else
      W.breaker
  evidence : match x.counter with
    | none => W'.evidence = W.evidence
    | some c => W.evidence.Counts W'.evidence agent.harnessKey event.source c
  records : W'.records = W.records ++
    [.render .lock .ok (who agent event), terminalRecord p agent event r x]
  effects : ∃ effects, W'.effects = W.effects ++ effects ∧ Happened p agent event r W x effects

/-! ## 4. The case analysis on the gates -/

section

variable {p : Pipeline} {agent : Agent} {event : Event} {r : Readings} {W : World}

/-- What it takes to get to the guard. -/
theorem reachesGuard_iff : reachesGuard agent event r W = true ↔
    duplicate event r W = false ∧ covering agent event W = none ∧
      routeRecheck r.recheck = none := by
  simp [reachesGuard, and_assoc]

/-- What it takes to get to the breaker. -/
theorem reachesBreaker_iff : reachesBreaker agent event r W = true ↔
    reachesGuard agent event r W = true ∧
      ∃ decision, r.lock = .ok decision ∧ decision.shouldWake = true := by
  unfold reachesBreaker
  cases r.lock <;> simp

/-- What it takes to get to the wake. -/
theorem reachesWake_iff : reachesWake agent event r W = true ↔
    reachesBreaker agent event r W = true ∧ (admission agent event r W).admitted = true := by
  simp [reachesWake]

/-- **One case for each way through the gates.** -/
theorem exitOf_cases {motive : Exit → Prop}
    (hduplicate : duplicate event r W = true → motive (flushing r .dedup .dedup))
    (hcovered : ∀ into, duplicate event r W = false → covering agent event W = some into →
      motive (flushing r .coalesce (coveredExit event into)))
    (hdropped : ∀ gone, duplicate event r W = false → covering agent event W = none →
      routeRecheck r.recheck = some gone → motive (.recheck gone))
    (hunread : ∀ exc, reachesGuard agent event r W = true → r.lock = .error exc →
      motive (.unexpected .guard exc))
    (hlocked : ∀ decision, reachesGuard agent event r W = true → r.lock = .ok decision →
      decision.shouldWake = false → motive (flushing r .locked (.locked decision)))
    (hlimited : reachesBreaker agent event r W = true →
      (admission agent event r W).admitted = false →
      motive (flushing r .limited (.limited (admission agent event r W))))
    (hwoken : reachesWake agent event r W = true → motive (wakeExit p agent event r)) :
    motive (exitOf p agent event r W) := by
  unfold exitOf
  cases hdup : duplicate event r W with
  | true => exact hduplicate hdup
  | false =>
    cases hcov : covering agent event W with
    | some into => exact hcovered into hdup hcov
    | none =>
      cases hgone : routeRecheck r.recheck with
      | some gone => exact hdropped gone hdup hcov hgone
      | none =>
        have hguard := reachesGuard_iff.mpr ⟨hdup, hcov, hgone⟩
        cases hlock : r.lock with
        | error exc => exact hunread exc hguard hlock
        | ok decision =>
          cases hfree : decision.shouldWake with
          | false => simpa [hfree] using hlocked decision hguard hlock hfree
          | true =>
            have hbreaker := reachesBreaker_iff.mpr ⟨hguard, decision, hlock, hfree⟩
            cases hadmit : (admission agent event r W).admitted with
            | false => simpa [hfree, hadmit] using hlimited hbreaker hadmit
            | true => simpa [hfree, hadmit] using hwoken (reachesWake_iff.mpr ⟨hbreaker, hadmit⟩)

/-- Behind open gates the exit is the wake's. -/
theorem exitOf_eq_wakeExit (h : reachesWake agent event r W = true) :
    exitOf p agent event r W = wakeExit p agent event r := by
  obtain ⟨hbreaker, hadmit⟩ := reachesWake_iff.mp h
  obtain ⟨hguard, decision, hlock, hfree⟩ := reachesBreaker_iff.mp hbreaker
  obtain ⟨hdup, hcov, hgone⟩ := reachesGuard_iff.mp hguard
  simp [exitOf, hdup, hcov, hgone, hlock, hfree, hadmit]

theorem flushing_done (r : Readings) (point : Point) {x : Exit} (h : x.done = false) :
    (flushing r point x).done = false := by
  unfold flushing
  split
  · exact h
  · rfl

theorem coveredExit_done (event : Event) (into : Coverage) :
    (coveredExit event into).done = false := by
  unfold coveredExit
  split <;> rfl

/-- Where a gate is closed nothing is done. -/
theorem reachesWake_of_done (h : (exitOf p agent event r W).done = true) :
    reachesWake agent event r W = true := by
  revert h
  refine exitOf_cases (motive := fun x => x.done = true → _) ?_ ?_ ?_ ?_ ?_ ?_ ?_
  · simp [flushing_done r .dedup (x := .dedup) rfl]
  · intro into _ _
    simp [flushing_done r .coalesce (coveredExit_done event into)]
  · simp [Exit.done]
  · simp [Exit.done]
  · intro decision _ _ _
    simp [flushing_done r .locked (x := .locked decision) rfl]
  · simp [flushing_done r .limited (x := .limited _) rfl]
  · exact fun h _ => h

theorem flushing_of_none {r : Readings} (h : r.flush.raised = none) (point : Point) (x : Exit) :
    flushing r point x = x := by
  rw [flushing, h]

/-- A flush that raises ends in an unexpected failure. -/
theorem flushing_cases (r : Readings) (point : Point) (x : Exit) :
    flushing r point x = x ∨ ∃ exc, flushing r point x = .unexpected point exc := by
  unfold flushing
  split
  · exact Or.inl rfl
  · exact Or.inr ⟨_, rfl⟩

/-- The wake's exits are recorded as the wake's. -/
theorem wakeExit_stage (p : Pipeline) (agent : Agent) (event : Event) (r : Readings) :
    (wakeExit p agent event r).terminal.1 = .wake := by
  unfold wakeExit flushing
  split
  · rfl
  · split <;> rfl
  · rfl
  · split <;> rfl

/-- A coalesced delivery is covered. -/
theorem covered_of_terminal
    (h : (exitOf p agent event r W).terminal = (.coalesce, .ignored)) :
    ∃ into occurred, covering agent event W = some into ∧
      exitOf p agent event r W = .coalesce into occurred := by
  revert h
  refine exitOf_cases (motive := fun x => x.terminal = (.coalesce, .ignored) →
    ∃ into occurred, covering agent event W = some into ∧ x = .coalesce into occurred)
    ?_ ?_ ?_ ?_ ?_ ?_ ?_
  · intro _ h
    rcases flushing_cases r .dedup .dedup with hx | ⟨exc, hx⟩ <;>
      exact absurd h (by simp [hx, Exit.terminal])
  · intro into _ hcov h
    rcases flushing_cases r .coalesce (coveredExit event into) with hx | ⟨exc, hx⟩
    · rw [hx] at h ⊢
      unfold coveredExit at h ⊢
      split at h
      · exact ⟨into, _, hcov, rfl⟩
      · exact absurd h (by simp [Exit.terminal])
    · exact absurd h (by simp [hx, Exit.terminal])
  · intro gone _ _ _ h
    exact absurd h (by simp [Exit.terminal])
  · intro exc _ _ h
    exact absurd h (by simp [Exit.terminal])
  · intro decision _ _ _ h
    rcases flushing_cases r .locked (.locked decision) with hx | ⟨exc, hx⟩ <;>
      exact absurd h (by simp [hx, Exit.terminal])
  · intro _ _ h
    rcases flushing_cases r .limited (.limited (admission agent event r W)) with hx | ⟨exc, hx⟩ <;>
      exact absurd h (by simp [hx, Exit.terminal])
  · intro _ h
    have hstage := wakeExit_stage p agent event r
    exact absurd (h ▸ hstage) (by simp)

/-- Where the flush returns, a delivery is recorded as a duplicate iff the dedup gate says so. -/
theorem terminal_dedup_iff (hflush : r.flush.raised = none) :
    (exitOf p agent event r W).terminal = (.dedup, .ignored) ↔ duplicate event r W = true := by
  refine exitOf_cases (motive := fun x => x.terminal = (.dedup, .ignored) ↔ _)
    ?_ ?_ ?_ ?_ ?_ ?_ ?_
  · intro hdup
    simp [flushing_of_none hflush, hdup, Exit.terminal]
  · intro into hdup _
    rw [flushing_of_none hflush, coveredExit]
    split <;> simp [hdup, Exit.terminal]
  · intro gone hdup _ _
    simp [hdup, Exit.terminal]
  · intro exc hguard _
    simp [(reachesGuard_iff.mp hguard).1, Exit.terminal]
  · intro decision hguard _ _
    simp [flushing_of_none hflush, (reachesGuard_iff.mp hguard).1, Exit.terminal]
  · intro hbreaker _
    have hguard := (reachesBreaker_iff.mp hbreaker).1
    simp [flushing_of_none hflush, (reachesGuard_iff.mp hguard).1, Exit.terminal]
  · intro hwake
    have hguard := (reachesBreaker_iff.mp (reachesWake_iff.mp hwake).1).1
    have hstage := wakeExit_stage p agent event r
    simp only [(reachesGuard_iff.mp hguard).1, Bool.false_eq_true, iff_false]
    exact fun h => absurd (h ▸ hstage) (by simp)

/-- A covered delivery does not get to the wake. -/
theorem not_reachesWake_of_covered {into : Coverage} (hcov : covering agent event W = some into) :
    reachesWake agent event r W = false := by
  simp [reachesWake, reachesBreaker, reachesGuard, hcov]

/-- A covered delivery is recorded as a duplicate or as coalesced, where the flush returns and
its moment can be rendered. -/
theorem terminal_of_covered (hflush : r.flush.raised = none) {into : Coverage}
    (hcov : covering agent event W = some into) {occurred : Value}
    (hocc : instant event.occurredAt = .ok occurred) :
    (exitOf p agent event r W).terminal = (.dedup, .ignored) ∨
      (exitOf p agent event r W).terminal = (.coalesce, .ignored) := by
  unfold exitOf
  split
  · exact Or.inl (by rw [flushing_of_none hflush]; rfl)
  · simp only [hcov, flushing_of_none hflush, coveredExit, hocc]
    exact Or.inr rfl

/-- Only the dedup gate and the coalesce gate count a dedup. -/
theorem gate_of_deduped (h : (exitOf p agent event r W).counter = some .deduped) :
    duplicate event r W = true ∨ (covering agent event W).isSome := by
  revert h
  refine exitOf_cases (motive := fun x => x.counter = some .deduped → _) ?_ ?_ ?_ ?_ ?_ ?_ ?_
  · exact fun hdup _ => Or.inl hdup
  · exact fun into _ hcov _ => Or.inr (by simp [hcov])
  · intro gone _ _ _ h
    exact absurd h (by simp [Exit.counter])
  · intro exc _ _ h
    exact absurd h (by simp [Exit.counter])
  · intro decision _ _ _ h
    rcases flushing_cases r .locked (.locked decision) with hx | ⟨exc, hx⟩ <;>
      exact absurd h (by simp [hx, Exit.counter])
  · intro _ _ h
    rcases flushing_cases r .limited (.limited (admission agent event r W)) with hx | ⟨exc, hx⟩ <;>
      exact absurd h (by simp [hx, Exit.counter])
  · intro _ h
    unfold wakeExit flushing at h
    split at h
    · exact absurd h (by simp [Exit.counter])
    · split at h <;> exact absurd h (by simp [Exit.counter])
    · exact absurd h (by simp [Exit.counter])
    · split at h <;> exact absurd h (by simp [Exit.counter])

/-- A delivery that is done was woken, which counts, or was stopped. -/
theorem Exit.counted_of_done {x : Exit} (h : x.done = true) :
    x.counter = some .ok ∨ x.terminal = (.wake, .stopped) := by
  cases x with
  | woke result => exact Or.inl rfl
  | stopped signal exitCode => exact Or.inr rfl
  | _ => exact absurd h (by simp [Exit.done])

/-- The breaker is asked behind the gates before it only. -/
theorem reachesBreaker_of_consulted (h : (exitOf p agent event r W).consulted = true) :
    reachesBreaker agent event r W = true := by
  revert h
  refine exitOf_cases (motive := fun x => x.consulted = true → _) ?_ ?_ ?_ ?_ ?_ ?_ ?_
  · intro _ h
    rcases flushing_cases r .dedup .dedup with hx | ⟨exc, hx⟩ <;>
      exact absurd h (by simp [hx, Exit.consulted])
  · intro into _ _ h
    rcases flushing_cases r .coalesce (coveredExit event into) with hx | ⟨exc, hx⟩
    · rw [hx, coveredExit] at h
      split at h <;> exact absurd h (by simp [Exit.consulted])
    · exact absurd h (by simp [hx, Exit.consulted])
  · intro gone _ _ _ h
    exact absurd h (by simp [Exit.consulted])
  · intro exc _ _ h
    exact absurd h (by simp [Exit.consulted])
  · intro decision _ _ _ h
    rcases flushing_cases r .locked (.locked decision) with hx | ⟨exc, hx⟩ <;>
      exact absurd h (by simp [hx, Exit.consulted])
  · exact fun hbreaker _ _ => hbreaker
  · exact fun hwake _ => (reachesWake_iff.mp hwake).1

end

end BasecradleRouter.Pipeline
