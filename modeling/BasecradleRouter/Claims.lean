/-
# The claims manifests of the agents

The router claims, for every OS user it serves, what could wake that agent from now on and what each
path has proven: one manifest, with the agent-wide claim first, a claim for each armed route, and a
claim for each armed route of manufactured traffic.

The manifest is computed for one entry of the registry, the first with the OS user; a route is armed
when it is registered, enabled, and delivers by a kind that entry is addressed by.  The box's own
manifest is left out.
-/
import BasecradleRouter.Config.Resolving
import BasecradleRouter.Evidence
import BasecradleRouter.Routes.Registry
import BasecradleRouter.WakeLock.Inspect

namespace BasecradleRouter.Claims

open BasecradleRouter.Lib BasecradleRouter.Models BasecradleRouter.Routes BasecradleRouter.Evidence
open BasecradleRouter.Config BasecradleRouter.WakeLock

/-- `CONTRACT_VERSION` -/
def contractVersion : ℕ := 1

/-- `COMPONENT` -/
def component : String := "basecradle-router"

/-- `WAKE_EDGE_TTL_HOURS` -/
def wakeEdgeTtlHours : ℕ := 168

/-- One way an agent could be woken.  `proof` stands for the keys of `_route_scalars`. -/
inductive Edge
  | webhookRoute (source resolvesBy : String) (proof : RouteWakeEvidence)
  | queuedWake (pending : ℤ)
  deriving DecidableEq

/-- `_wake_lock_detail` -/
structure WakeLockDetail where
  state : WakeLockState
  path : String
  expiresAt : Option String
  lockReason : Option String
  wouldWake : Bool
  detail : Option String
  deriving DecidableEq

/-- The detail of the agent-wide claim.  `wake` stands for the scalars of `_wake_scalars`, and
`byRoute` for its rows, in the order of the routes' names. -/
structure WakeEdgeDetail where
  registryKey : String
  harnessKey : String
  osUser : String
  edges : List Edge
  edgeCount : ℕ
  wakeLock : WakeLockDetail
  wake : AgentWakeEvidence
  byRoute : List (String × RouteWakeEvidence)

/-- The detail of one armed route's claim. -/
structure RouteEdgeDetail where
  harnessKey : String
  route : String
  resolvesBy : String
  proof : RouteWakeEvidence
  deriving DecidableEq

/-- The detail of a synthetic route's claim. -/
structure SyntheticDetail where
  harnessKey : String
  route : String
  resolvesBy : String
  synthetic : Bool
  proves : List String
  stopsBefore : String
  proof : RouteWakeEvidence
  deriving DecidableEq

inductive Detail
  | wakeEdge (d : WakeEdgeDetail)
  | routeEdge (d : RouteEdgeDetail)
  | synthetic (d : SyntheticDetail)

/-- A claim of class `rare`, proved by the evidence its `source` points to. -/
structure Claim where
  claim : String
  source : String
  evidence : Option String
  ttlHours : ℕ
  detail : Detail

structure Manifest where
  contract : ℕ
  subject : String
  component : String
  claims : List Claim

/-! ## 1. Claims -/

/-- `_pointer` -/
def pointer (evidencePath : Option String) (container field : String) : String :=
  evidencePath.getD "(in-memory evidence, not persisted)" ++ "#" ++ container ++ "." ++ field

/-- `_manifest` -/
def manifest (subject : String) (claims : List Claim) : Manifest :=
  ⟨contractVersion, subject, component, claims⟩

/-- `value or None` -/
def orNone (value : String) : Option String := if value = "" then none else some value

/-- `_wake_lock_detail`, of a decision on the file at `path`. -/
def wakeLockDetail (path : String) (decision : WakeLockDecision) : WakeLockDetail :=
  ⟨decision.state, path, orNone decision.expiresAt, orNone decision.lockReason,
    decision.shouldWake, orNone decision.reason⟩

/-- `_route_scalars` -/
def routeScalars (proof : Option RouteWakeEvidence) : RouteWakeEvidence := proof.getD .empty

/-- The rows of `_wake_scalars`. -/
def sortedRows (wake : AgentWakeEvidence) : List (String × RouteWakeEvidence) :=
  (PyStr.sorted wake.byRoute.keys).map fun route =>
    (route, routeScalars (wake.byRoute.lookup route))

/-- What is said of a last success, if there was one: `what` it was, and where it came `via`. -/
def okText (what : String) (lastOkAt lastOkDelivery : Option String) (via : String) :
    Option String :=
  (lastOkAt.filter (· ≠ "")).map fun time =>
    what ++ " at " ++ time ++ " delivery=" ++ lastOkDelivery.getD "None" ++ via

/-- What is said of a route's last success. -/
def routeOkText (what route : String) (proof : Option RouteWakeEvidence) : Option String :=
  proof.bind fun row => okText what row.lastOkAt row.lastOkDelivery (" route=" ++ route)

/-- `_wake_edge_claim` -/
def wakeEdgeClaim (agent : Agent) (wake : AgentWakeEvidence) (edges : List Edge)
    (lock : WakeLockDetail) (evidencePath : Option String) : Claim where
  claim := "wake-edge:webhook-route"
  source := pointer evidencePath ("agent_wakes." ++ agent.harnessKey) "last_ok_at"
  evidence := okText "stage=wake outcome=ok" wake.lastOkAt wake.lastOkDelivery
    (((wake.lastOkRoute.filter (· ≠ "")).map (" route=" ++ ·)).getD "")
  ttlHours := wakeEdgeTtlHours
  detail := .wakeEdge ⟨agent.key, agent.harnessKey, agent.osUser, edges, edges.length, lock, wake,
    sortedRows wake⟩

/-- `_route_wake_edge_claim`, of an edge's source and what it resolves by. -/
def routeWakeEdgeClaim (agent : Agent) (wake : AgentWakeEvidence) (evidencePath : Option String)
    (route resolvesBy : String) : Claim where
  claim := "wake-edge:webhook-route:" ++ route
  source := pointer evidencePath
    ("agent_wakes." ++ agent.harnessKey ++ ".by_route." ++ route) "last_ok_at"
  evidence := routeOkText "stage=wake outcome=ok" route (wake.byRoute.lookup route)
  ttlHours := wakeEdgeTtlHours
  detail := .routeEdge ⟨agent.harnessKey, route, resolvesBy,
    routeScalars (wake.byRoute.lookup route)⟩

/-- `_PROBE_PROVES` -/
def probeProves : List String :=
  ["http_accept", "signature_verify", "normalize", "resolve", "agent_lock", "delivery_dedup",
    "noc_wake_lock", "wake_rate_breaker", "sudo_wake_runner", "registry_pin", "privilege_drop",
    "agent_env_loaded", "clone_cwd", "probe_secret_match"]

/-- `_would_exec` -/
def wouldExec (agent : Agent) : String :=
  match agent.wakeKind with
  | .harness => agent.wakeBin.getD "None"
  | .claude => "claude"

/-- `_synthetic_claim`, of a route's name and the kind it delivers by. -/
def syntheticClaim (agent : Agent) (wake : AgentWakeEvidence) (evidencePath : Option String)
    (route recipientKind : String) : Claim where
  claim := "wake-edge:synthetic:" ++ route
  source := pointer evidencePath
    ("agent_wakes." ++ agent.harnessKey ++ ".by_route." ++ route) "last_ok_at"
  evidence := routeOkText "synthetic wake acked" route (wake.byRoute.lookup route)
  ttlHours := wakeEdgeTtlHours
  detail := .synthetic ⟨agent.harnessKey, route, recipientKind, true, probeProves,
    "exec " ++ wouldExec agent, routeScalars (wake.byRoute.lookup route)⟩

/-! ## 2. Edges -/

/-- `_unique_agents` -/
def uniqueAgents (config : Config) : List Agent :=
  (OrderedDict.firstBy Agent.harnessKey config.agents.agents.values).values

variable {σ : Type} (config : Config) (registry : RouteRegistry σ)

/-- `_armed_routes` -/
def armedRoutes (agent : Agent) (synthetic : Bool) : List (Route σ) :=
  registry.list.filter fun route =>
    route.synthetic == synthetic && decide (route.name ∈ config.enabledRoutes) &&
      decide (route.recipientKind ∈ config.agents.resolvableBy agent)

/-- `_edges` -/
def edges (agent : Agent) (wake : AgentWakeEvidence) : List Edge :=
  (armedRoutes config registry agent false).map (fun route =>
      .webhookRoute route.name route.recipientKind
        (routeScalars (wake.byRoute.lookup route.name))) ++
    if 0 < wake.queued then [.queuedWake wake.queued] else []

/-- `edge["source"]` and `edge["resolves_by"]` of a webhook route's edge. -/
def Edge.webhook : Edge → Option (String × String)
  | webhookRoute source resolvesBy _ => some (source, resolvesBy)
  | queuedWake _ => none

/-! ## 3. Manifests -/

/-- What there is to read of the wake locks: the file and the clock at each slug. -/
structure Locks where
  guard : WakeLockGuard
  reader : TextReader
  file : String → FileRead
  clock : String → Utc

variable (py : Runtime) (evidence : EvidenceDocument) (locks : Locks)
  (evidencePath : Option String)

/-- `_agent_manifest` -/
def agentManifest (agent : Agent) : Except Wake.Raised Manifest := do
  let wake := evidence.wake agent.harnessKey
  let paths := edges config registry agent wake
  let decision ← locks.guard.inspect py locks.reader agent.harnessKey
    (locks.file agent.harnessKey) (locks.clock agent.harnessKey)
  let lock := wakeLockDetail (locks.guard.pathFor agent.harnessKey) decision
  return manifest ("agent:" ++ agent.harnessKey)
    (wakeEdgeClaim agent wake paths lock evidencePath ::
      (paths.filterMap Edge.webhook).map
        (fun (source, resolvesBy) =>
          routeWakeEdgeClaim agent wake evidencePath source resolvesBy) ++
      (armedRoutes config registry agent true).map
        fun route => syntheticClaim agent wake evidencePath route.name route.recipientKind)

/-- `build_manifests`, after the box's own. -/
def buildManifests : Except Wake.Raised (List Manifest) :=
  ((uniqueAgents config).mergeSort fun a b => decide (a.harnessKey ≤ b.harnessKey)).mapM
    (agentManifest config registry py evidence locks evidencePath)

end BasecradleRouter.Claims
