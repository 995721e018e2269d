/-
# Runs of `execute`

The router's slow half over time: deliveries meet `execute` one after another, each with the
stores as the ones before left them.  For one agent that is what the agent's lock makes of it.
Executes of different agents may overlap; they share only the stores, whose operations are
atomic and keyed by the agent.

What a delivery ends in is read off the record it leaves, `ends`.  `step_left` carries over what
an execute leaves (`execute_left`), and the statements below speak of records and effects only.
-/
import BasecradleRouter.Lib.Sequence
import BasecradleRouter.Pipeline.Leaves

namespace BasecradleRouter.Pipeline

open BasecradleRouter.Lib BasecradleRouter.Logfmt BasecradleRouter.Models BasecradleRouter.Wake
open BasecradleRouter.Breaker BasecradleRouter.Coalesce BasecradleRouter.Dedup
open BasecradleRouter.Evidence BasecradleRouter.WakeLock

/-- A delivery that reached `execute`, and what it met on the way through. -/
structure Delivery where
  agent : Agent
  event : Event
  readings : Readings

namespace World

/-- A delivery comes in: no records of its own yet, and nothing has happened. -/
def enter (W : World) : World :=
  { W with records := [], effects := [], locals := ⟨0, none, none⟩ }

/-- One execute. -/
def step (p : Pipeline) (W : World) (d : Delivery) : World :=
  ((execute p d.agent d.event d.readings).run W.enter).2

/-- The executes of a list of deliveries, one after another. -/
def run (p : Pipeline) (W : World) (ds : List Delivery) : World := after (step p) W ds

/-- On the run over `ds` the delivery `d` met the world `m`. -/
abbrev Meets (p : Pipeline) (W : World) (ds : List Delivery) (m : World) (d : Delivery) : Prop :=
  Met (step p) W ds m d

/-- The stage and outcome of a delivery's terminal record. -/
def ends (p : Pipeline) (W : World) (d : Delivery) : Option (Stage × Outcome) :=
  (W.step p d).records.getLast?.map fun rec => (rec.stage, rec.outcome)

/-- The delivery ended done: woken, or stopped. -/
def Done (p : Pipeline) (W : World) (d : Delivery) : Prop :=
  W.ends p d = some (.wake, .ok) ∨ W.ends p d = some (.wake, .stopped)

/-- The number of the last attempt to wake, if there was one. -/
def lastLaunch (p : Pipeline) (W : World) (d : Delivery) : Option ℕ :=
  (launches (W.step p d).effects).getLast?

/-- When the last attempt to wake started. -/
def startedAt (p : Pipeline) (W : World) (d : Delivery) : Option Utc :=
  (W.lastLaunch p d).map fun k => (d.readings.attempt k).now

/-- The stores of a router that has just started. -/
def fresh (ttl : PyFloat) (capacity : ℕ) (config : BreakerConfig) (ht : ttl.lt (.fin 0) = false)
    (hc : 1 ≤ capacity) : World where
  deduper := .new config.rounding ttl ht
  coverage := .new capacity hc
  breaker := .new config
  evidence := .new
  records := []
  effects := []
  locals := ⟨0, none, none⟩

end World

/-! ## Sample values

A started router, and what a delivery meets on a good day. -/

/-- Ten minutes of dedup, room for two streams. -/
def World.sample : World :=
  .fresh (.fin 600) 2 .default (by simp [PyFloat.lt]) (by omega)

/-- Nothing in the way of a wake that starts at `start` and ends as `outcome`, at the dedup clock
reading `now`. -/
def Readings.sample (now : ℚ) (start : Utc) (outcome : Except Raised WakeResult) : Readings where
  seenAt := now
  recheck := none
  lock := .ok .noLock
  admitAt := now
  attempt _ := ⟨start, now, outcome, now⟩
  sleep _ := none
  flush := ⟨start, start, none⟩
  markAt := now

/-- A message for bob on the timeline, stamped `micros` into the calendar, whose wake starts two
microseconds after a reading of the dedup clock and ends as `outcome`. -/
def Delivery.sample (id : String) (h : Required id) (micros : ℕ) (hm : micros + 2 < spanMicros)
    (now : ℚ) (outcome : Except Raised WakeResult) : Delivery where
  agent := .builder "bob" required_bob
  event := .message "bob" id (some ⟨micros, 0, by omega, no_offset_lt⟩) required_bob h
  readings := .sample now ⟨micros + 2, hm⟩ outcome

section

variable (p : Pipeline) (W : World) (d : Delivery)

theorem run_snoc (ds : List Delivery) :
    W.run p (ds ++ [d]) = (W.run p ds).step p d := after_snoc _ W ds d

theorem run_append (ds ds' : List Delivery) : W.run p (ds ++ ds') = (W.run p ds).run p ds' :=
  after_append _ W ds ds'

/-- The exit of a delivery. -/
def World.exit : Exit := exitOf p d.agent d.event d.readings W

/-- What one step leaves. -/
theorem step_left : Left p d.agent d.event d.readings (W.exit p d) W.enter (W.step p d) := by
  obtain ⟨W', hrun, hleft⟩ := execute_left p d.agent d.event d.readings W.enter
  rw [World.step, hrun]
  exact hleft

/-- The terminal record. -/
theorem step_terminal : (W.step p d).records.getLast? =
    some (terminalRecord p d.agent d.event d.readings (W.exit p d)) := by
  rw [(step_left p W d).records]
  simp

theorem ends_eq : W.ends p d = some (W.exit p d).terminal := by
  rw [World.ends, step_terminal]
  rfl

theorem done_iff : W.Done p d ↔ (W.exit p d).done = true := by
  rw [World.Done, ends_eq]
  cases W.exit p d <;> simp [Exit.terminal, Exit.done]

instance : Decidable (W.Done p d) := decidable_of_iff _ (done_iff p W d).symm

/-- The deduper, one delivery on. -/
theorem step_deduper : (W.step p d).deduper =
    if W.Done p d then
      (W.deduper.seen d.event.dedupKey d.readings.seenAt).2.mark d.event.dedupKey d.readings.markAt
    else
      (W.deduper.seen d.event.dedupKey d.readings.seenAt).2 := by
  simp only [(step_left p W d).deduper, done_iff]
  rfl

/-- The coverage, one delivery on. -/
theorem step_coverage : (W.step p d).coverage =
    if W.Done p d then
      W.coverage.record d.agent.harnessKey d.event (lastStart p d.agent d.event d.readings)
    else
      W.coverage := by
  simp only [(step_left p W d).coverage, done_iff]
  rfl

/-- An agent's counters, one delivery on. -/
theorem step_agentCount (agent : String) (c : Counter) :
    (W.step p d).evidence.agentCount agent c = W.evidence.agentCount agent c +
      if d.agent.harnessKey = agent ∧ (W.exit p d).counter = some c then 1 else 0 := by
  have h := (step_left p W d).evidence
  cases hc : (W.exit p d).counter with
  | none =>
    rw [hc] at h
    simp only at h
    rw [h]
    simp [World.enter]
  | some c' =>
    rw [hc] at h
    rw [h.1 agent c]
    simp [World.enter, eq_comm]

/-- A row's counters, one delivery on. -/
theorem step_routeCount (agent route : String) (c : Counter) :
    (W.step p d).evidence.routeCount agent route c = W.evidence.routeCount agent route c +
      if d.agent.harnessKey = agent ∧ d.event.source = route ∧
        (W.exit p d).counter = some c then 1 else 0 := by
  have h := (step_left p W d).evidence
  cases hc : (W.exit p d).counter with
  | none =>
    rw [hc] at h
    simp only at h
    rw [h]
    simp [World.enter]
  | some c' =>
    rw [hc] at h
    rw [h.2 agent route c]
    simp [World.enter, eq_comm]

/-- The attempts of a step. -/
theorem step_launches : launches (W.step p d).effects =
    if reachesWake d.agent d.event d.readings W then
      List.range' 1 (tries p d.agent d.event d.readings).launched
    else [] := by
  obtain ⟨effects, heff, hhappened⟩ := (step_left p W d).effects
  rw [heff]
  exact hhappened.launches

/-- A delivery that is done was last launched at the start its coverage is drawn from. -/
theorem startedAt_of_done (h : W.Done p d) :
    W.startedAt p d = some (lastStart p d.agent d.event d.readings) := by
  have hdone := (done_iff p W d).mp h
  have hwake := reachesWake_of_done hdone
  have hne : (tries p d.agent d.event d.readings).launched ≠ 0 := by
    rw [World.exit, exitOf_eq_wakeExit hwake] at hdone
    exact launched_of_done hdone
  have hlast : W.lastLaunch p d = some (tries p d.agent d.event d.readings).launched := by
    rw [World.lastLaunch, step_launches, if_pos hwake, List.getLast?_range']
    simp [hne]
  rw [World.startedAt, hlast]
  rfl

end

end BasecradleRouter.Pipeline
