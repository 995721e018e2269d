/-
# Outcome, evidence and stores

`Agrees` is what an execute's terminal record, the counters, the caches and the breaker have to
say about each other.  They do where every exception on the way is one that `_wake` or a gate
foresees, and nowhere else (`agrees_iff_foreseen`): the last-resort handler records `WAKE`/`FAILED`
without counting a failure, and where the exception came up after the evidence was updated, next
to a count of something else.
-/
import BasecradleRouter.Pipeline.Runs

namespace BasecradleRouter.Pipeline

open BasecradleRouter.Lib BasecradleRouter.Logfmt BasecradleRouter.Models BasecradleRouter.Wake
open BasecradleRouter.Breaker BasecradleRouter.Coalesce BasecradleRouter.Evidence
open BasecradleRouter.WakeLock

/-! ## 1. The exceptions `_wake` foresees -/

/-- What `_wake` catches: a stop, and the end of the attempts. -/
def caught : Raised → Bool
  | .wakeStopped _ _ _ => true
  | .retryExhausted _ _ => true
  | _ => false

/-- The `i`-th attempt raises a failure or what `_wake` catches, if anything; and so does the
sleep, where one follows. -/
def Foreseen (r : Readings) (attempts i : ℕ) : Prop :=
  ∀ exc, (r.attempt i).outcome = .error exc →
    if (transient exc).isSome then i < attempts → ∀ exc' ∈ r.sleep i, caught exc' = true
    else caught exc = true

/-- The attempts come back with a result or with what `_wake` catches. -/
def Tries.Caught (t : Tries) : Prop := ∀ exc, t.result = .error exc → caught exc = true

/-- The attempts from the `k`-th on come back with nothing unforeseen iff every attempt that is
made raises nothing unforeseen. -/
theorem triesFrom_caught (agent : Agent) (event : Event) (r : Readings) (attempts : ℕ) :
    ∀ left k, attempts + 1 = k + left → left ≠ 0 →
      ((triesFrom agent event r attempts left k).Caught ↔
        ∀ i, k ≤ i → i ≤ attempts → (∀ j, k ≤ j → j < i → Retried r j) → Foreseen r attempts i)
  | 0, _, _, hleft => absurd rfl hleft
  | left + 1, k, hsum, _ => by
    -- where no attempt follows the `k`-th one, it alone decides
    have hlast : ∀ {P : Prop}, (Retried r k → attempts ≤ k) → (P ↔ Foreseen r attempts k) →
        (P ↔ ∀ i, k ≤ i → i ≤ attempts → (∀ j, k ≤ j → j < i → Retried r j) →
          Foreseen r attempts i) := by
      intro P hk hP
      refine hP.trans ⟨fun h i hki hi hbefore => ?_, fun h => h k le_rfl (by omega) (by omega)⟩
      obtain rfl : i = k := by
        by_contra hne
        have := hk (hbefore k le_rfl (by omega))
        omega
      exact h
    cases hout : (r.attempt k).outcome with
    | ok result =>
      refine hlast (by simp [Retried, hout]) ?_
      simp [triesFrom, hout, Tries.Caught, Foreseen]
    | error exc =>
      cases ht : transient exc with
      | none =>
        refine hlast (by simp [Retried, hout, ht]) ?_
        simp [triesFrom, hout, ht, Tries.Caught, Foreseen]
      | some message =>
        by_cases hend : attempts ≤ k
        · refine hlast (fun _ => hend) ?_
          have hmore : ¬ k < attempts := by omega
          simp [triesFrom, hout, ht, hend, Tries.Caught, Foreseen, caught, hmore]
        · have hmore : k < attempts := by omega
          cases hs : r.sleep k with
          | some exc' =>
            refine hlast (by simp [Retried, hs]) ?_
            simp [triesFrom, hout, ht, hend, hs, Tries.Caught, Foreseen, hmore]
          | none =>
            have hretried : Retried r k := ⟨⟨exc, hout, by simp [ht]⟩, hs⟩
            have hforeseen : Foreseen r attempts k := by simp [Foreseen, hout, ht, hs]
            have hrest : (triesFrom agent event r attempts (left + 1) k).result =
                (triesFrom agent event r attempts left (k + 1)).result := by
              simp [triesFrom, hout, ht, hend, hs]
            rw [Tries.Caught, hrest, ← Tries.Caught,
              triesFrom_caught agent event r attempts left (k + 1) (by omega) (by omega)]
            constructor
            · intro h i hki hi hbefore
              rcases Nat.eq_or_lt_of_le hki with rfl | hlt
              · exact hforeseen
              · exact h i hlt hi fun j hj hji => hbefore j (by omega) hji
            · intro h i hki hi hbefore
              refine h i (by omega) hi fun j hj hji => ?_
              rcases Nat.eq_or_lt_of_le hj with rfl | hlt
              · exact hretried
              · exact hbefore j hlt hji

/-- What has to hold of a delivery's attempts: there is one, and every attempt that is made, each
after the ones before it were retried, raises nothing unforeseen. -/
def ForeseenTries (p : Pipeline) (event : Event) (r : Readings) : Prop :=
  1 ≤ p.attempts event ∧ ∀ i, 1 ≤ i → i ≤ p.attempts event →
    (∀ j, 1 ≤ j → j < i → Retried r j) → Foreseen r (p.attempts event) i

theorem tries_caught (p : Pipeline) (agent : Agent) (event : Event) (r : Readings) :
    (tries p agent event r).Caught ↔ ForeseenTries p event r := by
  unfold tries ForeseenTries
  split
  · rename_i hzero
    have hnone : ¬ 1 ≤ p.attempts event := by omega
    simp [Tries.Caught, caught, hnone]
  · rename_i hpos
    rw [triesFrom_caught agent event r _ _ 1 (by omega) (by omega)]
    simp [Nat.le_of_not_lt hpos]

/-! ## 2. The exits by a foreseen way -/

/-- The execute did not fall through to its last-resort handler. -/
def Exit.foreseen : Exit → Bool
  | .unexpected _ _ => false
  | _ => true

/-- What has to hold of a delivery and the world it meets, for nothing unforeseen to come up: a
covered delivery's moment is representable in UTC, the guard reads the lock without raising, and
the attempts are as `ForeseenTries` asks. -/
structure ForeseenDelivery (p : Pipeline) (W : World) (d : Delivery) : Prop where
  rendered : duplicate d.event d.readings W = false → (covering d.agent d.event W).isSome →
    ∀ occurredAt, d.event.occurredAt = some occurredAt → occurredAt.astimezoneUtc.isSome
  read : reachesGuard d.agent d.event d.readings W = true →
    ∃ decision, d.readings.lock = .ok decision
  tried : reachesWake d.agent d.event d.readings W = true → ForeseenTries p d.event d.readings

theorem wakeExit_foreseen {p : Pipeline} {agent : Agent} {event : Event} {r : Readings}
    (hflush : r.flush.raised = none) :
    (wakeExit p agent event r).foreseen = true ↔ ForeseenTries p event r := by
  rw [← tries_caught p agent event r, Tries.Caught]
  cases hres : (tries p agent event r).result with
  | ok result => simp [wakeExit, hres, flushing_of_none hflush, Exit.foreseen]
  | error exc =>
    cases exc with
    | retryExhausted n cause =>
      simp [wakeExit, hres, flushing_of_none hflush, Exit.foreseen, caught]
    | _ => simp [wakeExit, hres, Exit.foreseen, caught]

theorem coveredExit_foreseen (event : Event) (into : Coverage) :
    (coveredExit event into).foreseen = true ↔
      ∀ occurredAt, event.occurredAt = some occurredAt → occurredAt.astimezoneUtc.isSome := by
  unfold coveredExit instant
  cases event.occurredAt with
  | none => simp [Exit.foreseen]
  | some occurredAt => cases h : occurredAt.astimezoneUtc <;> simp [Exit.foreseen, h]

/-- **The exit is a foreseen one iff nothing unforeseen comes up.** -/
theorem exit_foreseen {p : Pipeline} {W : World} {d : Delivery}
    (hflush : d.readings.flush.raised = none) :
    (W.exit p d).foreseen = true ↔ ForeseenDelivery p W d := by
  refine exitOf_cases (motive := fun x => x.foreseen = true ↔ ForeseenDelivery p W d)
    ?_ ?_ ?_ ?_ ?_ ?_ ?_
  · intro hdup
    have hguard : reachesGuard d.agent d.event d.readings W = false := by
      simp [reachesGuard, hdup]
    have hforeseen : ForeseenDelivery p W d := by
      constructor <;> simp [hdup, hguard, reachesWake, reachesBreaker]
    simp [flushing_of_none hflush, Exit.foreseen, hforeseen]
  · intro into hdup hcov
    have hguard : reachesGuard d.agent d.event d.readings W = false := by
      simp [reachesGuard, hcov]
    rw [flushing_of_none hflush, coveredExit_foreseen]
    constructor
    · exact fun h => ⟨fun _ _ => h, by simp [hguard], by simp [hguard, reachesWake, reachesBreaker]⟩
    · exact fun h => h.rendered hdup (by simp [hcov])
  · intro gone hdup hcov hgone
    have hguard : reachesGuard d.agent d.event d.readings W = false := by
      simp [reachesGuard, hgone]
    have hforeseen : ForeseenDelivery p W d := by
      constructor <;> simp [hcov, hguard, reachesWake, reachesBreaker]
    simp [Exit.foreseen, hforeseen]
  · intro exc hguard hlock
    simp only [Exit.foreseen, Bool.false_eq_true, false_iff]
    intro h
    obtain ⟨decision, hread⟩ := h.read hguard
    exact absurd (hlock.symm.trans hread) (by simp)
  · intro decision hguard hlock hheld
    have hcov := (reachesGuard_iff.mp hguard).2.1
    have hforeseen : ForeseenDelivery p W d := by
      constructor <;> simp [hcov, hlock, reachesWake, reachesBreaker, hheld]
    simp [flushing_of_none hflush, Exit.foreseen, hforeseen]
  · intro hbreaker hfull
    obtain ⟨hguard, decision, hlock, -⟩ := reachesBreaker_iff.mp hbreaker
    have hcov := (reachesGuard_iff.mp hguard).2.1
    have hforeseen : ForeseenDelivery p W d := by
      constructor <;> simp [hcov, hlock, reachesWake, hfull]
    simp [flushing_of_none hflush, Exit.foreseen, hforeseen]
  · intro hwake
    obtain ⟨hguard, decision, hlock, -⟩ := reachesBreaker_iff.mp (reachesWake_iff.mp hwake).1
    have hcov := (reachesGuard_iff.mp hguard).2.1
    rw [wakeExit_foreseen hflush]
    constructor
    · intro h
      constructor <;> simp [hcov, hlock, h]
    · exact fun h => h.tried hwake

/-- Where the flush returns, a failure counted is a failure foreseen. -/
theorem foreseen_of_failed {p : Pipeline} {W : World} {d : Delivery}
    (hflush : d.readings.flush.raised = none) (h : (W.exit p d).counter = some .failed) :
    (W.exit p d).foreseen = true := by
  revert h
  refine exitOf_cases (motive := fun x => x.counter = some .failed → x.foreseen = true)
    ?_ ?_ ?_ ?_ ?_ ?_ ?_
  · intro _ h
    exact absurd h (by simp [flushing_of_none hflush, Exit.counter])
  · intro into _ _ h
    rw [flushing_of_none hflush, coveredExit] at h
    split at h <;> exact absurd h (by simp [Exit.counter])
  · exact fun _ _ _ _ _ => rfl
  · intro exc _ _ h
    exact absurd h (by simp [Exit.counter])
  · intro decision _ _ _ _
    rw [flushing_of_none hflush]
    rfl
  · intro _ _ _
    rw [flushing_of_none hflush]
    rfl
  · intro _ h
    unfold wakeExit at h ⊢
    split at h
    · rfl
    · rw [flushing_of_none hflush]
      rfl
    · exact absurd h (by simp [Exit.counter])
    · rw [flushing_of_none hflush]
      rfl

/-! ## 3. What has to agree -/

section

variable (p : Pipeline) (W : World) (d : Delivery)

/-- The agent's count of `c` rose by one. -/
def AgentRose (c : Counter) : Prop :=
  (W.step p d).evidence.agentCount d.agent.harnessKey c =
    W.evidence.agentCount d.agent.harnessKey c + 1

/-- The count of `c` in the row of the agent and the delivery's route rose by one. -/
def RouteRose (c : Counter) : Prop :=
  (W.step p d).evidence.routeCount d.agent.harnessKey d.event.source c =
    W.evidence.routeCount d.agent.harnessKey d.event.source c + 1

/-- No counter changed. -/
def NoneRose : Prop :=
  ∀ agent c, (W.step p d).evidence.agentCount agent c = W.evidence.agentCount agent c ∧
    ∀ route, (W.step p d).evidence.routeCount agent route c = W.evidence.routeCount agent route c

/-- The outcome `c` is counted, at both granularities, exactly where `recorded` holds. -/
def CountedIff (recorded : Prop) (c : Counter) : Prop :=
  (recorded ↔ AgentRose p W d c) ∧ (recorded ↔ RouteRose p W d c)

/-- What a delivery's records, counters, caches and effects have to say about each other. -/
structure Agrees : Prop where
  /-- one terminal record follows the lock's -/
  records : ∃ terminal,
    (W.step p d).records = [.render .lock .ok (who d.agent d.event), terminal]
  ok : CountedIff p W d (W.ends p d = some (.wake, .ok)) .ok
  failed : CountedIff p W d (W.ends p d = some (.wake, .failed)) .failed
  refused : CountedIff p W d
    (W.ends p d = some (.wakeLock, .ignored) ∨ W.ends p d = some (.breaker, .ignored)) .refused
  deduped : CountedIff p W d
    (W.ends p d = some (.dedup, .ignored) ∨ W.ends p d = some (.coalesce, .ignored)) .deduped
  quiet : W.ends p d = some (.recheck, .ignored) ∨ W.ends p d = some (.wake, .stopped) →
    NoneRose p W d
  /-- the delivery is marked iff it is done -/
  marked : .marked d.event.dedupKey ∈ (W.step p d).effects ↔ W.Done p d
  deduper : (W.step p d).deduper =
    let looked := (W.deduper.seen d.event.dedupKey d.readings.seenAt).2
    if W.Done p d then looked.mark d.event.dedupKey d.readings.markAt else looked
  /-- coverage is recorded iff the delivery is done, from its last start -/
  covered : (∃ start, .covered start ∈ (W.step p d).effects) ↔ W.Done p d
  coverage : if W.Done p d then
      ∃ start, W.startedAt p d = some start ∧
        (W.step p d).coverage = W.coverage.record d.agent.harnessKey d.event start
    else (W.step p d).coverage = W.coverage
  /-- the breaker is asked behind the other gates only, and spends no budget unasked -/
  consulted : ∀ outcome, .consulted outcome ∈ (W.step p d).effects →
    (W.deduper.seen d.event.dedupKey d.readings.seenAt).1 = false ∧
      W.coverage.covering d.agent.harnessKey d.event = none ∧
      routeRecheck d.readings.recheck = none ∧
      ∃ decision, d.readings.lock = .ok decision ∧ decision.shouldWake = true
  unspent : (∀ outcome, .consulted outcome ∉ (W.step p d).effects) →
    (W.step p d).breaker = W.breaker

/-! ## 4. What agrees anyway -/

theorem countedIff_iff {recorded : Prop} {c : Counter} :
    CountedIff p W d recorded c ↔ (recorded ↔ (W.exit p d).counter = some c) := by
  have hagent : AgentRose p W d c ↔ (W.exit p d).counter = some c := by
    rw [AgentRose, step_agentCount]
    simp
  have hroute : RouteRose p W d c ↔ (W.exit p d).counter = some c := by
    rw [RouteRose, step_routeCount]
    simp
  rw [CountedIff, hagent, hroute, and_self_iff]

theorem step_effects {e : Effect} (he : e.ofAttempt = false) :
    e ∈ (W.step p d).effects ↔ e ∈ gateEffects d.agent d.event d.readings W ∨
      (W.Done p d ∧ (e = .covered (lastStart p d.agent d.event d.readings) ∨
        e = .marked d.event.dedupKey)) := by
  obtain ⟨effects, heff, hhappened⟩ := (step_left p W d).effects
  have hmem := hhappened.mem he
  rw [heff, done_iff]
  exact hmem

theorem not_mem_gateEffects {agent : Agent} {event : Event} {r : Readings} {e : Effect}
    (hread : ∀ decision, e ≠ .guardRead decision) (hasked : ∀ outcome, e ≠ .consulted outcome) :
    e ∉ gateEffects agent event r W := by
  unfold gateEffects
  split
  · split <;> simp [hread, hasked]
  · exact List.not_mem_nil

theorem consulted_mem {outcome : BreakerOutcome} :
    .consulted outcome ∈ (W.step p d).effects ↔
      reachesBreaker d.agent d.event d.readings W = true ∧
        outcome = admission d.agent d.event d.readings W := by
  rw [step_effects p W d rfl]
  unfold gateEffects
  cases hbreaker : reachesBreaker d.agent d.event d.readings W with
  | true =>
    have hguard := (reachesBreaker_iff.mp hbreaker).1
    simp [hguard]
  | false => cases reachesGuard d.agent d.event d.readings W <;> simp

/-- The counters of the foreseen exits are those of their records. -/
theorem Exit.counter_iff {x : Exit} (h : x.foreseen = true) :
    (x.terminal = (.wake, .ok) ↔ x.counter = some .ok) ∧
      (x.terminal = (.wake, .failed) ↔ x.counter = some .failed) ∧
      (x.terminal = (.wakeLock, .ignored) ∨ x.terminal = (.breaker, .ignored) ↔
        x.counter = some .refused) ∧
      (x.terminal = (.dedup, .ignored) ∨ x.terminal = (.coalesce, .ignored) ↔
        x.counter = some .deduped) ∧
      (x.terminal = (.recheck, .ignored) ∨ x.terminal = (.wake, .stopped) → x.counter = none) := by
  cases x with
  | unexpected point exc => exact absurd h (by simp [Exit.foreseen])
  | _ => simp [Exit.terminal, Exit.counter]

theorem noneRose_of_counter (h : (W.exit p d).counter = none) : NoneRose p W d := by
  intro agent c
  refine ⟨?_, fun route => ?_⟩
  · simp [step_agentCount, h]
  · simp [step_routeCount, h]

/-- **Outcome, evidence and stores agree iff nothing unforeseen comes up.** -/
theorem agrees_iff_foreseen (hflush : d.readings.flush.raised = none) :
    Agrees p W d ↔ ForeseenDelivery p W d := by
  rw [← exit_foreseen hflush]
  constructor
  · -- the last-resort record says failed, and no failure was counted
    intro hagrees
    by_contra hx
    have hends : W.ends p d = some (.wake, .failed) := by
      rw [ends_eq]
      cases hexit : W.exit p d with
      | unexpected point exc => rfl
      | _ => exact absurd (by simp [hexit, Exit.foreseen]) hx
    have hcount := ((countedIff_iff p W d).mp hagrees.failed).mp hends
    exact hx (foreseen_of_failed hflush hcount)
  · intro hx
    obtain ⟨hok, hfailed, hrefused, hdeduped, hquiet⟩ := Exit.counter_iff hx
    have hends : ∀ t, W.ends p d = some t ↔ (W.exit p d).terminal = t := by
      intro t
      rw [ends_eq, Option.some.injEq]
    refine ⟨⟨_, (step_left p W d).records⟩, ?_, ?_, ?_, ?_, ?_, ?_, step_deduper p W d, ?_, ?_, ?_,
      ?_⟩
    · exact (countedIff_iff p W d).mpr ((hends _).trans hok)
    · exact (countedIff_iff p W d).mpr ((hends _).trans hfailed)
    · exact (countedIff_iff p W d).mpr ((or_congr (hends _) (hends _)).trans hrefused)
    · exact (countedIff_iff p W d).mpr ((or_congr (hends _) (hends _)).trans hdeduped)
    · intro h
      exact noneRose_of_counter p W d (hquiet ((or_congr (hends _) (hends _)).mp h))
    · rw [step_effects p W d rfl]
      simp [not_mem_gateEffects]
    · simp only [fun start => step_effects p W d (e := .covered start) rfl]
      simp [not_mem_gateEffects]
    · split
      · rename_i hdone
        refine ⟨_, startedAt_of_done p W d hdone, ?_⟩
        rw [step_coverage, if_pos hdone]
      · rename_i hdone
        rw [step_coverage, if_neg hdone]
    · intro outcome hmem
      obtain ⟨hguard, hread⟩ := reachesBreaker_iff.mp ((consulted_mem p W d).mp hmem).1
      obtain ⟨hdup, hcov, hgone⟩ := reachesGuard_iff.mp hguard
      exact ⟨hdup, hcov, hgone, hread⟩
    · intro hnone
      have hunasked : (W.exit p d).consulted = false := by
        by_contra h
        have hasked : (exitOf p d.agent d.event d.readings W).consulted = true :=
          Bool.of_not_eq_false h
        exact hnone _ ((consulted_mem p W d).mpr ⟨reachesBreaker_of_consulted hasked, rfl⟩)
      have hbreaker := (step_left p W d).breaker
      rw [hunasked] at hbreaker
      exact hbreaker

end

/-- A good wake agrees. -/
theorem agrees_iff_foreseen_bob :
    Agrees ⟨3⟩ World.sample (.sample "1" (by decide) 5 (by decide) 0 (.ok ⟨0⟩)) := by
  refine (agrees_iff_foreseen ⟨3⟩ World.sample _ rfl).mpr ⟨?_, ?_, ?_⟩
  · exact fun _ h => absurd h (by decide)
  · exact fun _ => ⟨_, rfl⟩
  · refine fun _ => ⟨by decide, fun i _ _ _ exc h => ?_⟩
    exact absurd h (by simp [Delivery.sample, Readings.sample])

/-- Two executes that do not agree.  The waker raises something else than a `WakeError`: the
record says failed, and no failure is counted.  And a covered delivery's moment has no rendering
in UTC: the record says failed, and a dedup is counted. -/
theorem not_agrees_bob :
    (let d : Delivery := .sample "1" (by decide) 5 (by decide) 0 (.error (.other "no such process"))
     World.sample.ends ⟨3⟩ d = some (.wake, .failed) ∧
        (World.sample.step ⟨3⟩ d).evidence.agentCount "bob" .failed = 0 ∧
        ¬ Agrees ⟨3⟩ World.sample d) ∧
    (let first : Delivery := .sample "1" (by decide) 5 (by decide) 0 (.ok ⟨0⟩)
      let d : Delivery :=
        { agent := .builder "bob" (by decide)
          event := .message "bob" "2" (some ⟨0, 1, by decide, by decide⟩) (by decide) (by decide)
          readings := .sample 1 ⟨9, by decide⟩ (.ok ⟨0⟩) }
      let W := World.sample.step ⟨3⟩ first
      W.ends ⟨3⟩ d = some (.wake, .failed) ∧
        W.evidence.agentCount "bob" .deduped = 0 ∧
        (W.step ⟨3⟩ d).evidence.agentCount "bob" .deduped = 1 ∧ ¬ Agrees ⟨3⟩ W d) := by
  refine ⟨⟨by decide +kernel, by decide +kernel, fun h => ?_⟩,
    by decide +kernel, by decide +kernel, by decide +kernel, fun h => ?_⟩
  · have hrose := h.failed.1.mp (by decide +kernel)
    exact absurd hrose (by unfold AgentRose; decide +kernel)
  · have hrose := h.failed.1.mp (by decide +kernel)
    exact absurd hrose (by unfold AgentRose; decide +kernel)

end BasecradleRouter.Pipeline
