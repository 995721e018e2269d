/-
# The router at work

Requests come in and deliveries are executed, in any order in which a delivery is executed after it
was accepted: when that happens is the scheduler's affair.  A `Router` is what they work on: what
the routes hold, the pipeline's stores, the deliveries that wait, and what every step left to be
seen.

Each request has a `Ticket`, and the delivery it leaves waits under it.  An execute is told by the
readings it meets, but for the recheck: that is the route's own answer.
-/
import BasecradleRouter.Pipeline.Accept
import BasecradleRouter.Pipeline.Recorded
import BasecradleRouter.Routes.Registered

namespace BasecradleRouter.Pipeline

open BasecradleRouter.Lib BasecradleRouter.Logfmt BasecradleRouter.Models BasecradleRouter.Routes
open BasecradleRouter.Breaker BasecradleRouter.Evidence

/-- One request, by the source it is posted to and a number. -/
structure Ticket where
  source : String
  number : ℕ
  deriving DecidableEq

/-- What happens at the router. -/
inductive RouterStep
  | accept (ticket : Ticket) (request : InboundRequest) (flushes : Flushes)
  | execute (ticket : Ticket) (readings : Readings)

/-- The ticket a step is for. -/
def RouterStep.ticket : RouterStep → Ticket
  | .accept ticket _ _ => ticket
  | .execute ticket _ => ticket

/-- What a step leaves to be seen: its records, the status of a request, and the calls of the waker
with the number of the attempt. -/
structure Report where
  ticket : Ticket
  records : List StageRecord
  status : Option ℕ
  wakes : List (Agent × Event × ℕ)

/-- The outcome of the last stage reached. -/
def Report.terminal (report : Report) : Option (Stage × Outcome) :=
  report.records.getLast?.map fun rec => (rec.stage, rec.outcome)

/-- The router's state. -/
structure Router where
  objects : Objects
  world : World
  pending : Ticket → Option (Agent × Event)
  reports : List Report

/-- One of the calls that an accept makes to the evidence. -/
def called (s : EvidenceStore) (call : Timed) : EvidenceStore :=
  match call.operation with
  | .deliveryAccepted route => s.recordDeliveryAccepted route ⟨call.now, call.stamp, none⟩
  | .deliveryRejected route reason =>
    s.recordDeliveryRejected route reason ⟨call.now, call.stamp, none⟩
  | .deliveryDecision route woke =>
    s.recordDeliveryDecision route woke ⟨call.now, call.stamp, none⟩
  | _ => s

namespace Router

variable (core : Core Objects) (p : Pipeline) (R : Router)

/-- A router that has just started, on what the routes hold and the evidence that was loaded. -/
def start (objects : Objects) (evidence : EvidenceStore) (ttl : PyFloat) (capacity : ℕ)
    (config : BreakerConfig) (ht : ttl.lt (.fin 0) = false) (hc : 1 ≤ capacity) : Router where
  objects := objects
  world := (World.fresh ttl capacity config ht hc).setEvidence evidence
  pending _ := none
  reports := []

/-- A request comes in. -/
def accept (ticket : Ticket) (request : InboundRequest) (f : Flushes) : Router :=
  let ended := (core.accept ticket.source request f).run (.enter R.objects)
  let pending := ended.1.toOption.join
  { objects := ended.2.object
    world := R.world.setEvidence (ended.2.calls.foldl called R.world.evidence)
    pending := Function.update R.pending ticket pending
    reports := R.reports ++
      [⟨ticket, ended.2.result.records, some (answer pending ended.2.result), []⟩] }

/-- The delivery that waits under a ticket, with what its execute meets. -/
def delivery (ticket : Ticket) (readings : Readings) : Option Delivery :=
  (R.pending ticket).map fun (agent, event) =>
    ⟨agent, event, { readings with recheck := core.registry.recheck event R.objects }⟩

/-- A delivery is executed. -/
def execute (ticket : Ticket) (d : Delivery) : Router :=
  let world := R.world.step p d
  { R with
    world := world
    pending := Function.update R.pending ticket none
    reports := R.reports ++ [⟨ticket, world.records, none,
      (launches world.effects).map fun k => (d.agent, d.event, k)⟩] }

/-- One step; there may be nothing to execute. -/
def step (R : Router) : RouterStep → Router
  | .accept ticket request f => R.accept core ticket request f
  | .execute ticket readings =>
    match R.delivery core ticket readings with
    | none => R
    | some d => R.execute p ticket d

section

variable {core p R} {ticket : Ticket} {readings : Readings}

theorem step_undelivered (h : R.delivery core ticket readings = none) :
    step core p R (.execute ticket readings) = R := by
  simp only [step, h]

theorem step_delivered {d : Delivery} (h : R.delivery core ticket readings = some d) :
    step core p R (.execute ticket readings) = R.execute p ticket d := by
  simp only [step, h]

end

/-- A run. -/
def run (steps : List RouterStep) : Router := after (step core p) R steps

/-- The delivery that a step executes. -/
def executed (R : Router) : RouterStep → Option Delivery
  | .accept _ _ _ => none
  | .execute ticket readings => R.delivery core ticket readings

/-- The readings of the dedup clock in a step: at the look-up, and at the mark where the delivery
was done. -/
def dedupReadings (R : Router) (step : RouterStep) : List ℚ :=
  match R.executed core step with
  | none => []
  | some d => d.readings.seenAt :: if R.world.Done p d then [d.readings.markAt] else []

/-- The reading of the breaker's clock in a step, where the breaker is asked. -/
def breakerReadings (R : Router) (step : RouterStep) : List ℚ :=
  match R.executed core step with
  | none => []
  | some d =>
    if reachesBreaker d.agent d.event d.readings R.world then [d.readings.admitAt] else []

/-- If the step asks the breaker, it is admitted. -/
def Admits (R : Router) (step : RouterStep) : Prop :=
  ∀ d, R.executed core step = some d → reachesBreaker d.agent d.event d.readings R.world = true →
    (admission d.agent d.event d.readings R.world).admitted = true

end Router

end BasecradleRouter.Pipeline
