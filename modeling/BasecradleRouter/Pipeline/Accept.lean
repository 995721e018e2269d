/-
# `Pipeline.accept`

The fast half of the pipeline, for one request: its source's route verifies it and makes an event of
it, and the event's recipient is resolved to an agent.  What the routes change is `σ`; the evidence
is not read here, so an `Intake` keeps the calls made to it in order.

`accept` never raises.  Its answer is what there is to wake for, and `statusFor` is the HTTP status
of a request that left nothing.
-/
import BasecradleRouter.Config.Registry
import BasecradleRouter.Evidence.Stored
import BasecradleRouter.Pipeline.Record
import BasecradleRouter.Routes.Registry

namespace BasecradleRouter.Pipeline

open BasecradleRouter.Lib BasecradleRouter.Logfmt BasecradleRouter.Models BasecradleRouter.Routes
open BasecradleRouter.Evidence

/-- What accept reads of the pipeline; `upper` is `str.upper`. -/
structure Core (σ : Type) where
  py : Runtime
  upper : String → String
  registry : RouteRegistry σ
  config : Config

/-- The flushes an accept may meet: the one when the signature is told, and the one when the route
has decided. -/
structure Flushes where
  verified : Flush
  decided : Flush

/-- One request's way in: what the routes hold, the calls to the evidence, and the records. -/
structure Intake (σ : Type) where
  object : σ
  calls : List Timed
  result : PipelineResult

/-- `PipelineResult()` -/
def PipelineResult.new : PipelineResult := ⟨[], none, none⟩

/-- A request before its first stage. -/
def Intake.enter {σ : Type} (object : σ) : Intake σ := ⟨object, [], .new⟩

namespace Intake

variable {σ α : Type}

/-- `_record` -/
def record (stage : Stage) (outcome : Outcome) (fields : List (String × Value)) :
    Py (Intake σ) Refusal Unit :=
  .change fun s => { s with
    result := { s.result with records := s.result.records ++ [.render stage outcome fields] } }

/-- A call to the evidence, and its flush. -/
def recordEvidence (operation : Operation) (f : Flush) : Py (Intake σ) Refusal Unit := do
  Py.change fun s => { s with calls := s.calls ++ [⟨operation, f.now, f.stamp⟩] }
  Py.ofExcept (f.raised.elim (.ok ()) fun exc => .error (.other exc.text))

/-- A call to a route. -/
def route (x : Py σ Refusal α) : Py (Intake σ) Refusal α :=
  x.within Intake.object fun s object => { s with object := object }

end Intake

namespace Core

open Intake

variable {σ : Type} (core : Core σ)

/-- `_route_secret` -/
def routeSecret (route : Route σ) (source : String) : Except Refusal (Option String) :=
  if route.requiresSecret then
    match core.config.webhookSecret core.py core.upper source with
    | .ok secret => .ok (some secret)
    | .error text => .error (.config text)
  else .ok (core.config.webhookSecrets.get source)

/-- `route.verify(request, self._route_secret(route, source))` -/
def verify (route : Route σ) (source : String) (request : InboundRequest) :
    Py (Intake σ) Refusal Unit := do
  let secret ← Py.ofExcept (core.routeSecret route source)
  Intake.route (route.verify request secret)

/-- The end of `_accept`: the agent that the event's recipient resolves to. -/
def resolve (source : String) (event : Event) : Py (Intake σ) Refusal (Option (Agent × Event)) :=
  match core.config.agents.agentForRecipient core.py event.recipient with
  | .error text => do
    Intake.record .resolve .failed [("source", .str source), ("delivery", .str event.deliveryId),
      ("error", .str text)]
    return none
  | .ok agent => do
    Py.change fun s => { s with result := { s.result with agent := some agent } }
    Intake.record .resolve .ok [("source", .str source), ("delivery", .str event.deliveryId),
      ("agent", .str agent.harnessKey)]
    return some (agent, event)

/-- `EventKind.value` -/
def kindValue : EventKind → String
  | .handoff => "handoff"
  | .platformEvent => "platform_event"
  | .syntheticProbe => "synthetic_probe"

/-- `_accept`, once the request has verified. -/
def read (source : String) (route : Route σ) (request : InboundRequest) (f : Flush) :
    Py (Intake σ) Refusal (Option (Agent × Event)) := do
  match ← (Intake.route (route.normalize request)).catching with
  | .error (.payload text) | .error (.untrusted text) => do
    Intake.record .normalize .rejected [("source", .str source), ("error", .str text)]
    return none
  | .error exc => Py.raise exc
  | .ok none => do
    Intake.recordEvidence (.deliveryDecision source false) f
    Intake.record .normalize .ignored [("source", .str source)]
    return none
  | .ok (some event) => do
    Intake.recordEvidence (.deliveryDecision source true) f
    Py.change fun s => { s with result := { s.result with event := some event } }
    Intake.record .normalize .ok [("source", .str source), ("delivery", .str event.deliveryId),
      ("kind", .str (kindValue event.kind))]
    core.resolve source event

/-- `_accept` -/
def acceptBody (source : String) (request : InboundRequest) (f : Flushes) :
    Py (Intake σ) Refusal (Option (Agent × Event)) :=
  match core.registry.get core.py source with
  | .error text => do
    Intake.record .route .rejected [("source", .str source), ("error", .str text)]
    return none
  | .ok route => do
    Intake.record .route .ok [("source", .str source)]
    match ← (core.verify route source request).catching with
    | .error (.signature text) => do
      Intake.recordEvidence (.deliveryRejected source text) f.verified
      Intake.record .verify .rejected [("source", .str source), ("error", .str text)]
      return none
    | .error (.config text) => do
      Intake.recordEvidence (.deliveryRejected source ("no secret configured: " ++ text)) f.verified
      Intake.record .verify .failed [("source", .str source), ("error", .str text)]
      return none
    | .error exc => Py.raise exc
    | .ok () => do
      Intake.recordEvidence (.deliveryAccepted source) f.verified
      Intake.record .verify .ok [("source", .str source)]
      core.read source route request f.decided

/-- `accept`; whatever a stage raises becomes a `ROUTE`/`FAILED` record. -/
def accept (source : String) (request : InboundRequest) (f : Flushes) :
    Py (Intake σ) Refusal (Option (Agent × Event)) :=
  (core.acceptBody source request f).handle fun exc => do
    Intake.record .route .failed [("source", .str source),
      ("error", .str ("unexpected: " ++ exc.text))]
    return none

end Core

/-- `_status_for` -/
def statusFor (result : PipelineResult) : ℕ :=
  match result.records.getLast? with
  | none => 500
  | some last =>
    match last.outcome, last.stage with
    | .rejected, .verify => 401
    | .rejected, .route => 404
    | .rejected, _ => 400
    | _, _ => 200

/-- The status a request is answered with. -/
def answer (pending : Option (Agent × Event)) (result : PipelineResult) : ℕ :=
  if pending.isSome then 202 else statusFor result

end BasecradleRouter.Pipeline
