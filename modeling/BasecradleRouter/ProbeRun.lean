/-
# The synthetic wake probe

`WakeProbe.run` fires one signed test delivery at the daemon and reads the daemon's evidence until
it says how that delivery ended.  A success is told by the delivery's id.  The other three outcomes
leave no id, and are told by a counter of the agent's row for the probe's route that has moved since
the first reading.

The run waits as long as it is told to; what it meets on the way, the daemon's answer, the documents
it reads and its clocks, is its `Surroundings`.
-/
import BasecradleRouter.Evidence
import BasecradleRouter.Routes.Probe
import Mathlib.Algebra.Order.Ring.Unbundled.Rat
import Mathlib.Data.List.Infix

namespace BasecradleRouter.ProbeRun

open BasecradleRouter.Lib BasecradleRouter.Logfmt BasecradleRouter.Evidence BasecradleRouter.Routes

/-! ## 1. What a probe is told -/

/-- What the daemon's front end said of the delivery. -/
structure Injection where
  status : ℤ
  stages : List (String × String)
  body : String

/-- `Injection.accepted` -/
def Injection.accepted (i : Injection) : Bool := i.status == 202

/-- `Injection.terminal` -/
def Injection.terminal (i : Injection) : String :=
  match i.stages.getLast? with
  | some (stage, outcome) => stage ++ "/" ++ outcome
  | none => "none"

/-- One reading of the evidence for the agent and the route. -/
structure WakeProof where
  agentLastOkAt : Option String
  agentLastOkRoute : Option String
  agentLastOkSynthetic : Option Bool
  routeOk : ℤ
  routeLastOkAt : Option String
  routeLastOkDelivery : Option String
  routeFailed : ℤ
  routeLastFailedAt : Option String
  routeLastFailedReason : Option String
  routeRefused : ℤ
  routeLastRefusedAt : Option String
  routeLastRefusedReason : Option String
  routeDeduped : ℤ
  queued : ℤ
  deriving DecidableEq

/-- `WakeProof.read` -/
def WakeProof.read (document : EvidenceDocument) (harnessKey route : String) : WakeProof :=
  let wake := document.wake harnessKey
  let perRoute := wake.row route
  { agentLastOkAt := wake.lastOkAt
    agentLastOkRoute := wake.lastOkRoute
    agentLastOkSynthetic := wake.lastOkSynthetic
    routeOk := perRoute.ok
    routeLastOkAt := perRoute.lastOkAt
    routeLastOkDelivery := perRoute.lastOkDelivery
    routeFailed := perRoute.failed
    routeLastFailedAt := perRoute.lastFailedAt
    routeLastFailedReason := perRoute.lastFailedReason
    routeRefused := perRoute.refused
    routeLastRefusedAt := perRoute.lastRefusedAt
    routeLastRefusedReason := perRoute.lastRefusedReason
    routeDeduped := perRoute.deduped
    queued := wake.queued }

/-! ## 2. Verdicts -/

/-- The three verdicts a ledger reads. -/
inductive Status
  | proven
  | broken
  | unprovable
  deriving DecidableEq, Repr

/-- `EXIT_CODES` -/
def Status.exitCode : Status → ℤ
  | .proven => 0
  | .broken => 1
  | .unprovable => 75

/-- What a run found: the first three from the daemon's answer, the others from its evidence. -/
inductive Verdict
  | unserved
  | unsigned
  | declined (status : ℤ) (terminal : String)
  | answered (delivery : String) (time : Option String)
  | incomplete (reason : String)
  | failed (reason : String)
  | refused (reason : Option String)
  | deduped
  | expired (delivery timeout : String) (queued : ℤ) (evidencePath : Option String)
  deriving DecidableEq, Repr

namespace Verdict

def status : Verdict → Status
  | unserved => .unprovable
  | unsigned => .broken
  | declined _ _ => .broken
  | answered _ _ => .proven
  | incomplete _ => .unprovable
  | failed _ => .broken
  | refused _ => .unprovable
  | deduped => .unprovable
  | expired _ _ _ _ => .unprovable

def detail : Verdict → String
  | unserved => "the daemon does not serve this route: add it to " ++
      "BASECRADLE_ROUTER_ENABLED_ROUTES (with its webhook secret) and restart"
  | unsigned => "the daemon rejected the probe's signature — the secret this run signed with " ++
      "is not the one the daemon holds for this route"
  | declined status terminal => "the daemon accepted no wake for this delivery (HTTP " ++
      toString status ++ ", terminal " ++ terminal ++ ") — most often an unregistered recipient"
  | answered delivery time =>
    "the wake edge answered: the daemon recorded stage=wake outcome=ok " ++
      "for delivery " ++ delivery ++ " at " ++ time.getD "None"
  | incomplete reason => "the probe could not be completed: " ++ reason
  | failed reason => "the wake was dispatched and failed: " ++ reason
  | refused reason => "the router refused the wake, so nothing was proven either way: " ++
      reason.getD "None"
  | deduped => "the router collapsed the injection as a duplicate delivery, so no " ++
      "wake ran and nothing was proven either way"
  | expired delivery timeout queued evidencePath => "no outcome recorded for delivery " ++
      delivery ++ " within " ++ timeout ++ "s" ++
      (if queued = 0 then "" else ", " ++ toString queued ++ " wake(s) queued for this agent") ++
      "; the wake may still be in flight — re-read the evidence at " ++
      ((evidencePath.filter (· ≠ "")).getD "(in-memory)") ++ " before treating this as a finding"

end Verdict

/-- `_injection_verdict` -/
def injectionVerdict (i : Injection) : Verdict :=
  if i.status = 404 then .unserved
  else if i.status = 401 then .unsigned
  else .declined i.status i.terminal

/-- `UNPROVABLE_MARKER` -/
def unprovableMarker : String := "could not prove:"

/-- What a reading says of the delivery, if anything: a success by its id, then the counters that
have moved. -/
def decided (delivery : String) (before after : WakeProof) : Option Verdict :=
  if after.routeLastOkDelivery = some delivery then some (.answered delivery after.routeLastOkAt)
  else if after.routeFailed ≠ before.routeFailed then
    let reason := after.routeLastFailedReason.getD ""
    if unprovableMarker.toList <:+: reason.toList then some (.incomplete reason)
    else some (.failed reason)
  else if after.routeRefused ≠ before.routeRefused then some (.refused after.routeLastRefusedReason)
  else if after.routeDeduped ≠ before.routeDeduped then some .deduped
  else none

/-! ## 3. A run -/

/-- `WakeProbe`, as far as it is data. -/
structure WakeProbe where
  secret : String
  evidencePath : Option String
  selfUrl : String
  route : String
  timeout : ℚ

/-- What a run meets: the id it mints, the documents it reads, the daemon's answer or that it could
not be reached, its clock at the start of the run and of the wait, after each reading and at the
end, and the date; and how digests, JSON objects of texts and whole seconds are written. -/
structure Surroundings where
  mint : String
  read : ℕ → EvidenceDocument
  post : String → List UInt8 → List (String × String) → Except String Injection
  started : ℚ
  waiting : ℚ
  polled : ℕ → ℚ
  ended : ℚ
  now : Utc
  hmac : String → List UInt8 → String
  dumps : List (String × String) → List UInt8
  whole : ℚ → String

/-- `ProbeResult`, with the number of the document the verdict was read from. -/
structure ProbeResult where
  verdict : Verdict
  harnessKey : String
  route : String
  deliveryId : String
  nonce : Option String
  checkedAt : String
  waited : ℚ
  injection : Injection
  before : WakeProof
  after : WakeProof
  lastRead : ℕ
  journal : String

def ProbeResult.status (result : ProbeResult) : Status := result.verdict.status

def ProbeResult.detail (result : ProbeResult) : String := result.verdict.detail

/-- `ProbeResult.exit_code` -/
def ProbeResult.exitCode (result : ProbeResult) : ℤ := result.status.exitCode

/-- `nonce_of`: the marker's second word. -/
def nonceOf (marker : String) : Option String :=
  if Wake.isMarker marker then ((marker.toList.splitOn ' ')[1]?).map String.ofList else none

namespace WakeProbe

variable (probe : WakeProbe) (around : Surroundings) (harnessKey : String)

/-- `body_for` -/
def bodyFor (marker : String) : List UInt8 :=
  around.dumps [("harness_key", harnessKey), ("marker", marker)]

/-- `headers_for` -/
def headersFor (body : List UInt8) (delivery : String) : List (String × String) :=
  [("Content-Type", "application/json"), ("Content-Length", toString body.length),
    (Routes.Probe.signatureHeader, hmacSha256Prefix ++ around.hmac probe.secret body),
    (Routes.Probe.deliveryHeader, delivery), (Routes.Probe.eventHeader, Routes.Probe.wakeEvent)]

/-- `_inject` -/
def inject (marker delivery : String) : Except String Injection :=
  let body := bodyFor around harnessKey marker
  around.post (probe.selfUrl ++ "/webhooks/" ++ probe.route) body
    (probe.headersFor around body delivery)

/-- `_proof`, for the `k`-th time. -/
def proof (k : ℕ) : WakeProof := .read (around.read k) harnessKey probe.route

/-- The loop of `_await_outcome`, of at most so many turns, at the `k`-th reading: the verdict, the
reading it was read from, and that reading's number. -/
def await (delivery : String) (before : WakeProof) (deadline : ℚ) :
    ℕ → ℕ → Option (Verdict × WakeProof × ℕ)
  | 0, _ => none
  | turns + 1, k =>
    let after := probe.proof around harnessKey k
    match decided delivery before after with
    | some verdict => some (verdict, after, k)
    | none =>
      if deadline ≤ around.polled k then
        some (.expired delivery (around.whole probe.timeout) after.queued probe.evidencePath,
          after, k)
      else await delivery before deadline turns (k + 1)

/-- `_await_outcome`: the document is read for the first time in the loop as number one. -/
def awaitOutcome (delivery : String) (before : WakeProof) (injection : Injection) (turns : ℕ) :
    Option (Verdict × WakeProof × ℕ) :=
  if injection.accepted then
    probe.await around harnessKey delivery before (around.waiting + probe.timeout) turns 1
  else some (injectionVerdict injection, before, 0)

/-- `run`, of at most so many turns of the loop; a `ProbeError` by its text. -/
def run (marker : String) (turns : ℕ) : Option (Except String ProbeResult) :=
  if !Wake.isMarker marker then some (.error ("marker is not a well-formed BCNOC1 probe marker " ++
    "(expected 'BCNOC1 <nonce> <64-hex-hmac>'); mint it with the NOC's " ++
    "per-agent probe secret and pipe it in on stdin"))
  else
    let before := probe.proof around harnessKey 0
    match probe.inject around harnessKey marker around.mint with
    | .error text => some (.error text)
    | .ok injection =>
      (probe.awaitOutcome around harnessKey around.mint before injection turns).map
        fun (verdict, after, lastRead) => .ok {
          verdict := verdict
          harnessKey := harnessKey
          route := probe.route
          deliveryId := around.mint
          nonce := nonceOf marker
          checkedAt := around.now.isoformat
          waited := around.ended - around.started
          injection := injection
          before := before
          after := after
          lastRead := lastRead
          journal := "event=probe_injected " ++ logFields [("agent", .str harnessKey),
            ("route", .str probe.route), ("delivery", .str around.mint),
            ("status", .int injection.status), ("terminal", .str injection.terminal)] }

end WakeProbe

end BasecradleRouter.ProbeRun
