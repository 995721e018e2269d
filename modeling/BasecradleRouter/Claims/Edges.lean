/-
# Which edges are claimed

A webhook route can wake an agent if a recipient of its kind resolves to an entry of the agent's OS
user (`Reaches`), and every wake over a route of real traffic is such a route's (`woken_reaches`).
The manifest of an OS user lists the armed routes of one entry, the first, and so misses a route
that reaches the agent only through another: a builder and a harness agent that share an OS user are
each addressed by one kind.

`manifests_exact_iff`: a manifest's list is exactly the routes that reach the agent unless that
happens.
-/
import BasecradleRouter.Claims
import BasecradleRouter.Lib.Checked
import BasecradleRouter.Pipeline.Fates
import BasecradleRouter.Routes.Binding
import BasecradleRouter.Routes.Declared

namespace BasecradleRouter.Claims

open BasecradleRouter.Lib BasecradleRouter.Models BasecradleRouter.Routes BasecradleRouter.Evidence
open BasecradleRouter.Config BasecradleRouter.Pipeline

variable {σ : Type}

/-! ## 1. What a manifest lists -/

def Claim.wakeEdge (c : Claim) : Option WakeEdgeDetail :=
  match c.detail with
  | .wakeEdge d => some d
  | _ => none

def Claim.routeEdge (c : Claim) : Option RouteEdgeDetail :=
  match c.detail with
  | .routeEdge d => some d
  | _ => none

/-- The routes of the webhook-route edges. -/
def WakeEdgeDetail.sources (d : WakeEdgeDetail) : List String :=
  (d.edges.filterMap Edge.webhook).map Prod.fst

/-- Some recipient of the route's kind resolves to a registered agent of the OS user, and the route
is enabled and carries real traffic. -/
def Reaches (py : Runtime) (config : Config) (osUser : String) (route : Route σ) : Prop :=
  route.synthetic = false ∧ route.name ∈ config.enabledRoutes ∧
    ∃ recipient agent, Addresses route.recipientKind recipient ∧
      config.agents.agentForRecipient py recipient = .ok agent ∧
      agent ∈ config.agents.agents.values ∧ agent.harnessKey = osUser

/-- The agent-wide claim and the routes' own, against the routes that reach the agent. -/
structure Lists (py : Runtime) (config : Config) (registry : RouteRegistry σ) (queued : ℤ)
    (osUser : String) (d : WakeEdgeDetail) (routeEdges : List RouteEdgeDetail) : Prop where
  listed : ∀ name, name ∈ d.sources ↔
    ∃ route, registry.routes.get name = some route ∧ Reaches py config osUser route
  count : d.edgeCount = 0 ↔
    (∀ name route, registry.routes.get name = some route → ¬ Reaches py config osUser route) ∧
      ¬ 0 < queued
  claimed : routeEdges.map RouteEdgeDetail.route = d.sources
  once : d.sources.Nodup

/-- **A manifest is exact**: its agent-wide claim lists the routes that reach the agent and counts
what could wake it, and the routes' own claims are one for each that is listed. -/
def Exact (py : Runtime) (config : Config) (registry : RouteRegistry σ)
    (evidence : EvidenceDocument) (osUser : String) (m : Manifest) : Prop :=
  ∃ d, m.claims.filterMap Claim.wakeEdge = [d] ∧
    Lists py config registry (evidence.wake osUser).queued osUser d
      (m.claims.filterMap Claim.routeEdge)

/-- No route reaches the agent only through an entry that is not the first of its OS user: the
others' kinds are the first's, or no enabled route of real traffic delivers by them. -/
def Aligned (config : Config) (registry : RouteRegistry σ) (osUser : String) : Prop :=
  ∀ first other, config.agents.agents.values.find? (·.harnessKey = osUser) = some first →
    other ∈ config.agents.agents.values → other.harnessKey = osUser →
    other.wakeKind ≠ first.wakeKind →
    ∀ name route, registry.routes.get name = some route → route.synthetic = false →
      name ∈ config.enabledRoutes → route.recipientKind ≠ addressKind other.wakeKind

/-- The events of the daemon's routes carry recipients of their route's kind, as the core can
resolve them. -/
theorem addresses_emitted {py : Runtime} {hmac : String → List UInt8 → String} {config : Config}
    {source : String} {route : Route Objects} (h : Registered py hmac config source route)
    (request : InboundRequest) : Py.Returns
      (fun event => ∀ e ∈ event, Addresses route.recipientKind e.recipient)
      (route.normalize request) := by
  cases h with
  | github r hsource hpy hbots =>
    have hbuilt := ((GithubRoute.returns_normalize (r := r) request).mapError Raised.refusal).within
      Objects.github fun s github => { s with github := github }
    exact fun s event s' hrun e he =>
      ⟨(hbuilt s event s' hrun e he).tag, fun _ => (hbuilt s event s' hrun e he).repo⟩
  | basecradle keyring hsource =>
    refine returns_logged fun event line hmade e he => ?_
    rw [Option.mem_def.mp he] at hmade
    obtain ⟨_, _, -, -, -, -, htag, -⟩ := Basecradle.normalize_ok hmade
    exact ⟨htag, fun hrepo => absurd hrepo (show ¬ "recipient_uuid" = "repo" by decide)⟩
  | probe hsource =>
    refine returns_logged fun event line hmade e he => ?_
    cases hnormalize : Probe.normalize py request with
    | error text =>
      rw [hnormalize] at hmade
      cases hmade
    | ok made =>
      rw [hnormalize] at hmade
      cases hmade
      cases he
      obtain ⟨-, -, -, -, htag⟩ := Probe.normalize_ok hnormalize
      exact ⟨htag, fun hrepo => absurd hrepo (show ¬ "harness_key" = "repo" by decide)⟩

/-- An agent that a recipient resolves to is registered. -/
theorem mem_values_of_resolves {py : Runtime} {r : Config.Registry} (hr : Loaded r)
    {recipient : Recipient} {agent : Agent} (h : r.agentForRecipient py recipient = .ok agent) :
    agent ∈ r.agents.values := by
  rcases agentForRecipient_ok.mp h with ⟨-, hget⟩ | ⟨-, hget⟩ | ⟨-, hget⟩
  · exact OrderedDict.mem_values.mpr ⟨_, OrderedDict.mem_items.mpr hget⟩
  · exact OrderedDict.mem_values.mpr
      ⟨_, OrderedDict.mem_items.mpr ((hr.indexed _ _).mp hget).1⟩
  · rw [hr.first, OrderedDict.get_firstBy] at hget
    exact List.mem_of_find?_eq_some hget

/-- **What wakes an agent reaches it**: a wake that a request leaves pending over a route of real
traffic is the agent's over a route that its OS user's manifest is to list. -/
theorem woken_reaches {core : Core Objects} {hmac : String → List UInt8 → String}
    {upper : String → String} {env : OrderedDict String String} {source : String}
    {request : InboundRequest} {f : Flushes} {object : Objects} {agent : Agent} {event : Event}
    (hr : Loaded core.config.agents)
    (hbuilt : buildRegistry core.py hmac upper core.config env = .ok core.registry)
    (h : left core source request f object = some (agent, event)) :
    ∃ route, core.registry.routes.get source = some route ∧
      (route.synthetic = false → Reaches core.py core.config agent.harnessKey route) := by
  obtain ⟨route, hmade, -, hagent⟩ := left_eq_some.mp h
  obtain ⟨object', htold, hnormalize⟩ := hmade.told
  obtain ⟨hregistered, henabled⟩ := registered hbuilt htold.found
  refine ⟨route, htold.found, fun hreal => ⟨hreal, ?_, event.recipient, agent, ?_, hagent,
    mem_values_of_resolves hr hagent, rfl⟩⟩
  · rw [core.registry.named source route htold.found]
    exact henabled
  · exact addresses_emitted hregistered request object' (some event) _
      (Prod.ext hnormalize rfl) event rfl

/-! ## 2. One entry's edges -/

variable {py : Runtime} {config : Config} {registry : RouteRegistry σ} {agent first : Agent}
  {osUser : String} {wake : AgentWakeEvidence}

theorem mem_armedRoutes {route : Route σ} {synthetic : Bool} :
    route ∈ armedRoutes config registry agent synthetic ↔
      registry.routes.get route.name = some route ∧ route.synthetic = synthetic ∧
        route.name ∈ config.enabledRoutes ∧
        route.recipientKind ∈ config.agents.resolvableBy agent := by
  unfold armedRoutes
  rw [List.mem_filter, RouteRegistry.mem_list]
  simp [and_assoc]

/-- The webhook edges of an entry are its armed routes of real traffic. -/
theorem edges_webhook : (edges config registry agent wake).filterMap Edge.webhook =
    (armedRoutes config registry agent false).map fun route =>
      (route.name, route.recipientKind) := by
  unfold edges
  rw [List.filterMap_append, List.filterMap_map]
  have hqueued : (if 0 < wake.queued then [Edge.queuedWake wake.queued] else []).filterMap
      Edge.webhook = [] := by
    split
    · rfl
    · rfl
  rw [hqueued, List.append_nil]
  exact congrFun List.filterMap_eq_map _

theorem edges_length : (edges config registry agent wake).length = 0 ↔
    armedRoutes config registry agent false = [] ∧ ¬ 0 < wake.queued := by
  unfold edges
  rw [List.length_append, List.length_map, Nat.add_eq_zero_iff, List.length_eq_zero_iff]
  split
  · next hqueued => simp [hqueued]
  · next hqueued => simp [hqueued]

theorem addressKind_inj {kind kind' : WakeKind} (h : addressKind kind = addressKind kind') :
    kind = kind' := by
  cases kind <;> cases kind'
  · rfl
  · exact absurd h (by decide)
  · exact absurd h (by decide)
  · rfl

theorem addressKind_ne_harnessKey (kind : WakeKind) : addressKind kind ≠ "harness_key" := by
  cases kind with
  | claude => decide
  | harness => decide

theorem mem_values (hr : Loaded config.agents) :
    agent ∈ config.agents.agents.values ↔ config.agents.agents.get agent.key = some agent := by
  rw [OrderedDict.mem_values]
  constructor
  · rintro ⟨key, hitem⟩
    have hget := OrderedDict.mem_items.mp hitem
    rw [hr.keyed key agent hget, hget]
  · exact fun hget => ⟨agent.key, OrderedDict.mem_items.mpr hget⟩

/-- What reaches an agent is what one of its entries is addressed by. -/
theorem reaches_iff (hr : Loaded config.agents) {route : Route σ} :
    Reaches py config osUser route ↔
      route.synthetic = false ∧ route.name ∈ config.enabledRoutes ∧
        ∃ other ∈ config.agents.agents.values, other.harnessKey = osUser ∧
          route.recipientKind ∈ config.agents.resolvableBy other := by
  unfold Reaches
  refine and_congr_right fun _ => and_congr_right fun _ => ?_
  constructor
  · rintro ⟨recipient, other, haddresses, hresolves, hmem, huser⟩
    exact ⟨other, hmem, huser,
      (mem_resolvableBy hr ((mem_values hr).mp hmem)).mpr ⟨recipient, haddresses, hresolves⟩⟩
  · rintro ⟨other, hmem, huser, hkind⟩
    rw [mem_resolvableBy hr ((mem_values hr).mp hmem)] at hkind
    obtain ⟨recipient, haddresses, hresolves⟩ := hkind
    exact ⟨recipient, other, haddresses, hresolves, hmem, huser⟩

/-- The OS user's index holds its first entry. -/
theorem harnessIndex_first (hr : Loaded config.agents)
    (hfirst : config.agents.agents.values.find? (·.harnessKey = osUser) = some first) :
    first ∈ config.agents.agents.values ∧ first.harnessKey = osUser ∧
      config.agents.harnessIndex.get first.harnessKey = some first := by
  have huser : first.harnessKey = osUser := by simpa using List.find?_some hfirst
  refine ⟨List.mem_of_find?_eq_some hfirst, huser, ?_⟩
  rw [huser, hr.harnessIndex_get, hfirst]

/-- **Where the entries are aligned**, what reaches the agent is what the first is addressed by. -/
theorem reaches_iff_first (hr : Loaded config.agents)
    (hfirst : config.agents.agents.values.find? (·.harnessKey = osUser) = some first)
    (haligned : Aligned config registry osUser) {route : Route σ}
    (hroute : registry.routes.get route.name = some route) :
    Reaches py config osUser route ↔ route ∈ armedRoutes config registry first false := by
  obtain ⟨hmem, huser, hindex⟩ := harnessIndex_first hr hfirst
  have hget := (mem_values hr).mp hmem
  rw [reaches_iff hr, mem_armedRoutes]
  constructor
  · rintro ⟨hsynthetic, henabled, other, hother, hotherUser, hkind⟩
    refine ⟨hroute, hsynthetic, henabled, ?_⟩
    rw [resolvableBy_iff hr hget]
    rcases (resolvableBy_iff hr ((mem_values hr).mp hother)).mp hkind with hkind | ⟨hkind, -⟩
    · by_cases hsame : other.wakeKind = first.wakeKind
      · exact Or.inl (by rw [← hsame, hkind])
      · exact absurd hkind
          (haligned first other hfirst hother hotherUser hsame _ route hroute hsynthetic henabled)
    · exact Or.inr ⟨hkind, hindex⟩
  · rintro ⟨-, hsynthetic, henabled, hkind⟩
    exact ⟨hsynthetic, henabled, first, hmem, huser, hkind⟩

/-- **Where they are not**, some route reaches the agent and is not the first entry's. -/
theorem reaches_not_first (hr : Loaded config.agents)
    (hfirst : config.agents.agents.values.find? (·.harnessKey = osUser) = some first)
    (haligned : ¬ Aligned config registry osUser) :
    ∃ route, registry.routes.get route.name = some route ∧ Reaches py config osUser route ∧
      route ∉ armedRoutes config registry first false := by
  unfold Aligned at haligned
  push Not at haligned
  obtain ⟨first', other, hfirst', hother, huser, hkinds, name, route, hroute, hsynthetic, henabled,
    hkind⟩ := haligned
  rw [hfirst] at hfirst'
  cases hfirst'
  have hname := registry.named name route hroute
  subst hname
  refine ⟨route, hroute, (reaches_iff hr).mpr ⟨hsynthetic, henabled, other, hother, huser, ?_⟩,
    fun harmed => ?_⟩
  · exact (resolvableBy_iff hr ((mem_values hr).mp hother)).mpr (Or.inl hkind)
  · have hget := (mem_values hr).mp (harnessIndex_first hr hfirst).1
    have hresolvable := (mem_armedRoutes.mp harmed).2.2.2
    rw [hkind, resolvableBy_iff hr hget] at hresolvable
    rcases hresolvable with hkind | ⟨hkind, -⟩
    · exact hkinds (addressKind_inj hkind)
    · exact addressKind_ne_harnessKey _ hkind

/-! ## 3. One manifest -/

variable {evidence : EvidenceDocument} {locks : Locks} {evidencePath : Option String}
  {m : Manifest}

section Claims

variable (agent wake evidencePath) (paths : List Edge) (lock : WakeLockDetail)
  (route resolvesBy : String)

@[simp] theorem wakeEdge_wakeEdgeClaim :
    (wakeEdgeClaim agent wake paths lock evidencePath).wakeEdge = some ⟨agent.key,
      agent.harnessKey, agent.osUser, paths, paths.length, lock, wake, sortedRows wake⟩ := rfl

@[simp] theorem wakeEdge_routeWakeEdgeClaim :
    (routeWakeEdgeClaim agent wake evidencePath route resolvesBy).wakeEdge = none := rfl

@[simp] theorem wakeEdge_syntheticClaim :
    (syntheticClaim agent wake evidencePath route resolvesBy).wakeEdge = none := rfl

@[simp] theorem routeEdge_wakeEdgeClaim :
    (wakeEdgeClaim agent wake paths lock evidencePath).routeEdge = none := rfl

@[simp] theorem routeEdge_routeWakeEdgeClaim :
    (routeWakeEdgeClaim agent wake evidencePath route resolvesBy).routeEdge =
      some ⟨agent.harnessKey, route, resolvesBy, routeScalars (wake.byRoute.lookup route)⟩ := rfl

@[simp] theorem routeEdge_syntheticClaim :
    (syntheticClaim agent wake evidencePath route resolvesBy).routeEdge = none := rfl

/-- The claims of a manifest, by the kind of their detail. -/
theorem claims_by_detail (paths' : List (String × String)) (routes : List (Route σ)) :
    let claims := wakeEdgeClaim agent wake paths lock evidencePath ::
      paths'.map (fun (source, resolvesBy) =>
        routeWakeEdgeClaim agent wake evidencePath source resolvesBy) ++
      routes.map fun route =>
        syntheticClaim agent wake evidencePath route.name route.recipientKind
    claims.filterMap Claim.wakeEdge = [⟨agent.key, agent.harnessKey, agent.osUser, paths,
      paths.length, lock, wake, sortedRows wake⟩] ∧
    (claims.filterMap Claim.routeEdge).map RouteEdgeDetail.route = paths'.map Prod.fst := by
  intro claims
  constructor
  · simp [claims, List.filterMap_eq_nil_iff]
  · simp [claims, List.filterMap_cons, Function.comp_def]

end Claims

/-- What a manifest says of its edges. -/
theorem agentManifest_ok
    (h : agentManifest config registry py evidence locks evidencePath agent = .ok m) :
    m.subject = "agent:" ++ agent.harnessKey ∧
      ∃ d, m.claims.filterMap Claim.wakeEdge = [d] ∧
        d.edges = edges config registry agent (evidence.wake agent.harnessKey) ∧
        d.edgeCount = d.edges.length ∧
        (m.claims.filterMap Claim.routeEdge).map RouteEdgeDetail.route = d.sources := by
  unfold agentManifest at h
  obtain ⟨decision, -, h⟩ := bind_eq_ok.mp h
  cases h
  obtain ⟨hwake, hroutes⟩ := claims_by_detail agent (evidence.wake agent.harnessKey) evidencePath
    (edges config registry agent (evidence.wake agent.harnessKey))
    (wakeLockDetail (locks.guard.pathFor agent.harnessKey) decision)
    ((edges config registry agent (evidence.wake agent.harnessKey)).filterMap Edge.webhook)
    (armedRoutes config registry agent true)
  exact ⟨rfl, _, hwake, rfl, rfl, hroutes⟩

/-- The routes of an agent's edges, and that each is there once. -/
theorem sources_of_edges {d : WakeEdgeDetail}
    (h : d.edges = edges config registry agent wake) :
    d.sources = (armedRoutes config registry agent false).map Route.name ∧ d.sources.Nodup := by
  have hsources : d.sources = (armedRoutes config registry agent false).map Route.name := by
    unfold WakeEdgeDetail.sources
    rw [h, edges_webhook, List.map_map]
    rfl
  refine ⟨hsources, ?_⟩
  rw [hsources]
  exact RouteRegistry.list_names_nodup.sublist (List.filter_sublist.map _)

/-- **The manifest of an OS user's first entry is exact if and only if the entries are aligned.** -/
theorem exact_iff (hr : Loaded config.agents)
    (hfirst : config.agents.agents.values.find? (·.harnessKey = osUser) = some first)
    (h : agentManifest config registry py evidence locks evidencePath first = .ok m) :
    Exact py config registry evidence osUser m ↔ Aligned config registry osUser := by
  obtain ⟨-, d, hwake, hedges, hcount, hclaimed⟩ := agentManifest_ok h
  obtain ⟨-, huser, -⟩ := harnessIndex_first hr hfirst
  rw [huser] at hedges
  obtain ⟨hsources, honce⟩ := sources_of_edges hedges
  have hmem : ∀ name, name ∈ d.sources ↔
      ∃ route ∈ armedRoutes config registry first false, route.name = name := by
    rw [hsources]
    exact fun name => List.mem_map
  constructor
  · rintro ⟨d', hwake', hlists⟩
    rw [hwake] at hwake'
    cases hwake'
    by_contra haligned
    obtain ⟨route, hroute, hreaches, hnot⟩ := reaches_not_first hr hfirst haligned
    obtain ⟨route', harmed, hname⟩ :=
      (hmem _).mp ((hlists.listed route.name).mpr ⟨route, hroute, hreaches⟩)
    have hroute' := (mem_armedRoutes.mp harmed).1
    rw [hname, hroute] at hroute'
    cases hroute'
    exact hnot harmed
  · intro haligned
    have hreaches : ∀ name route, registry.routes.get name = some route →
        (Reaches py config osUser route ↔
          route ∈ armedRoutes config registry first false) := by
      intro name route hroute
      have hname := registry.named name route hroute
      subst hname
      exact reaches_iff_first hr hfirst haligned hroute
    refine ⟨d, hwake, ⟨fun name => ?_, ?_, hclaimed, honce⟩⟩
    · rw [hmem]
      constructor
      · rintro ⟨route, harmed, rfl⟩
        have hroute := (mem_armedRoutes.mp harmed).1
        exact ⟨route, hroute, (hreaches _ _ hroute).mpr harmed⟩
      · rintro ⟨route, hroute, hreach⟩
        exact ⟨route, (hreaches _ _ hroute).mp hreach, registry.named _ _ hroute⟩
    · rw [hcount, hedges, edges_length, List.eq_nil_iff_forall_not_mem]
      refine and_congr_left fun _ =>
        ⟨fun hnone name route hroute hreach => ?_, fun hnone route harmed => ?_⟩
      · exact hnone route ((hreaches _ _ hroute).mp hreach)
      · have hroute := (mem_armedRoutes.mp harmed).1
        exact hnone _ route hroute ((hreaches _ _ hroute).mpr harmed)

/-! ## 4. The manifests of a registry -/

/-- The agents that manifests are for, one for each OS user: its first entry. -/
theorem mem_uniqueAgents : agent ∈ uniqueAgents config ↔
    config.agents.agents.values.find? (·.harnessKey = agent.harnessKey) = some agent := by
  unfold uniqueAgents
  rw [OrderedDict.mem_values]
  constructor
  · rintro ⟨osUser, hitem⟩
    have hfind := (OrderedDict.get_firstBy _ _ _).symm.trans (OrderedDict.mem_items.mp hitem)
    have huser : agent.harnessKey = osUser := by simpa using List.find?_some hfind
    rw [huser, hfind]
  · intro hfind
    exact ⟨agent.harnessKey,
      OrderedDict.mem_items.mpr ((OrderedDict.get_firstBy _ _ _).trans hfind)⟩

/-- No OS user has two. -/
theorem uniqueAgents_nodup : ((uniqueAgents config).map Agent.harnessKey).Nodup := by
  unfold uniqueAgents
  have hkeys : ∀ item ∈ (OrderedDict.firstBy Agent.harnessKey config.agents.agents.values).items,
      item.2.harnessKey = item.1 := by
    rintro ⟨osUser, agent⟩ hitem
    have hfind := (OrderedDict.get_firstBy _ _ _).symm.trans (OrderedDict.mem_items.mp hitem)
    simpa using List.find?_some hfind
  have hmap := List.map_congr_left hkeys
  unfold OrderedDict.values
  rw [List.map_map]
  exact (congrArg List.Nodup hmap).mpr (OrderedDict.firstBy _ _).nodup

/-- No two manifests are of one OS user. -/
theorem subjects_nodup {ms : List Manifest}
    (hms : buildManifests config registry py evidence locks evidencePath = .ok ms) :
    (ms.map Manifest.subject).Nodup := by
  have hsubjects : ((uniqueAgents config).mergeSort fun a b =>
      decide (a.harnessKey ≤ b.harnessKey)).map (fun a => "agent:" ++ a.harnessKey) =
        ms.map Manifest.subject := by
    rw [← List.forall₂_eq_eq_eq, List.forall₂_map_left_iff, List.forall₂_map_right_iff]
    exact (mapM_ok hms).imp fun a m hm => (agentManifest_ok hm).1.symm
  have hinjective : Function.Injective ("agent:" ++ · : String → String) :=
    fun _ _ h => String.append_right_inj _ |>.mp h
  have hnodup : (((uniqueAgents config).map Agent.harnessKey).map ("agent:" ++ ·)).Nodup :=
    uniqueAgents_nodup.map hinjective
  rw [List.map_map] at hnodup
  rw [← hsubjects]
  exact ((List.mergeSort_perm _ _).map _).nodup_iff.mpr hnodup

/-- **What a registry's manifests list**: for each OS user there is one manifest, and it is exact if
and only if the OS user's entries are aligned. -/
theorem manifests_exact_iff {reprValue : Json → String} {path : String} {entries : Fields}
    {ms : List Manifest} (hobject : (entries.map Prod.fst).Nodup)
    (hload : loadAgents py reprValue path (some (.ok (.obj entries))) = .ok config.agents)
    (hms : buildManifests config registry py evidence locks evidencePath = .ok ms) :
    (ms.map Manifest.subject).Nodup ∧
      ∀ agent ∈ config.agents.agents.values, ∃ m ∈ ms, m.subject = "agent:" ++ agent.harnessKey ∧
        (Exact py config registry evidence agent.harnessKey m ↔
          Aligned config registry agent.harnessKey) := by
  have hr := loadAgents_loaded hobject hload
  constructor
  · exact subjects_nodup hms
  · intro agent hagent
    have hsome : (config.agents.agents.values.find?
        (·.harnessKey = agent.harnessKey)).isSome = true :=
      List.find?_isSome.mpr ⟨agent, hagent, by simp⟩
    obtain ⟨first, hfirst⟩ := Option.isSome_iff_exists.mp hsome
    have huser : first.harnessKey = agent.harnessKey := by simpa using List.find?_some hfirst
    have hunique : first ∈ uniqueAgents config := mem_uniqueAgents.mpr (by rw [huser, hfirst])
    obtain ⟨m, hmem, hm⟩ := mapM_ok_mem hms (List.mem_mergeSort.mpr hunique)
    refine ⟨m, hmem, ?_, exact_iff hr hfirst hm⟩
    rw [(agentManifest_ok hm).1, huser]

/-! ## 5. A builder before its harness agent -/

/-- A builder that runs as `nova`, and the agent of that OS user. -/
def sharedFile : Fields := [("basecradle/nova", .obj [("os_user", .str "nova"),
    ("clone_path", .str "/home/nova"), ("bot_slug", .str "nova")]),
  ("nova", .obj [("kind", .str "harness"), ("os_user", .str "nova"),
    ("clone_path", .str "/home/nova"), ("recipient_uuid", .str "u-1"),
    ("wake_bin", .str "/home/nova/.local/bin/wake")])]

theorem required_basecradleNova : Required "basecradle/nova" := by decide

theorem required_uuid : Required "u-1" := by decide

def novaCaptain : Agent where
  key := "basecradle/nova"
  osUser := "nova"
  clonePath := "/home/nova"
  wakeKind := .claude
  botSlug := some "nova"
  recipientUuid := none
  wakeBin := none
  key_ok := required_basecradleNova
  osUser_ok := Basecradle.required_nova
  clonePath_ok := Basecradle.required_novaHome
  claude_ok _ := ⟨_, rfl, Basecradle.required_nova⟩
  harness_ok := no_harness

def sharedRegistry : Config.Registry :=
  { Registry.empty.add "basecradle/nova" novaCaptain with
    recipientIndex := OrderedDict.empty.set "u-1" (Basecradle.novaAgent "u-1" required_uuid) }.add
    "nova" (Basecradle.novaAgent "u-1" required_uuid)

/-- One route, of the kind harness agents are addressed by. -/
def platformRoutes : RouteRegistry Objects :=
  ⟨OrderedDict.empty.set "basecradle"
    (basecradleRoute Basecradle.novaRuntime Basecradle.novaHmac ⟨.empty, true⟩),
    RouteRegistry.empty.named_set
      (basecradleRoute Basecradle.novaRuntime Basecradle.novaHmac ⟨.empty, true⟩)⟩

/-- No agent has a lock file. -/
def noLocks : Locks where
  guard := ⟨"/run/noc/locks"⟩
  reader := ⟨fun _ => .error (.other "RecursionError"), fun _ => ""⟩
  file _ := .missing
  clock _ := ⟨0, span_pos⟩

/-- The configuration of a registry with the platform's route enabled. -/
def platformConfig (agents : Config.Registry) : Config := ⟨{"basecradle"}, .empty, agents⟩

theorem buildManifests_single (hunique : uniqueAgents config = [agent])
    (hm : agentManifest config registry py evidence locks evidencePath agent = .ok m) :
    buildManifests config registry py evidence locks evidencePath = .ok [m] := by
  unfold buildManifests
  rw [hunique, List.mergeSort_singleton, List.mapM_cons, hm]
  rfl

theorem manifests_exact_iff_nova : ∃ ms,
    buildManifests (platformConfig (Basecradle.novaRegistry "u-1" required_uuid)) platformRoutes
      Basecradle.novaRuntime .empty noLocks none = .ok ms ∧
    ∃ m ∈ ms, m.subject = "agent:nova" ∧
      Exact Basecradle.novaRuntime (platformConfig (Basecradle.novaRegistry "u-1" required_uuid))
        platformRoutes .empty "nova" m := by
  have hunique : uniqueAgents (platformConfig (Basecradle.novaRegistry "u-1" required_uuid)) =
      [Basecradle.novaAgent "u-1" required_uuid] := rfl
  obtain ⟨m, hm⟩ : ∃ m, agentManifest
      (platformConfig (Basecradle.novaRegistry "u-1" required_uuid)) platformRoutes
      Basecradle.novaRuntime .empty noLocks none (Basecradle.novaAgent "u-1" required_uuid) =
        .ok m := ⟨_, rfl⟩
  have hms := buildManifests_single hunique hm
  have hload : loadAgents Basecradle.novaRuntime (fun _ => "") "agents.json"
      (some (.ok (Basecradle.novaFile "u-1"))) =
        .ok (platformConfig (Basecradle.novaRegistry "u-1" required_uuid)).agents := rfl
  obtain ⟨-, hexact⟩ := manifests_exact_iff (by decide) hload hms
  obtain ⟨m', hmem, hsubject, hiff⟩ :=
    hexact (Basecradle.novaAgent "u-1" required_uuid) List.mem_cons_self
  refine ⟨[m], hms, m', hmem, hsubject, hiff.mpr fun first other hfirst hother _ hkinds => ?_⟩
  rcases List.mem_cons.mp (List.mem_of_find?_eq_some hfirst) with rfl | hnil
  · rcases List.mem_cons.mp hother with rfl | hnil
    · exact absurd rfl hkinds
    · cases hnil
  · cases hnil

/-- **The agent that the platform's route reaches** is reported as reached by none. -/
theorem not_exact_shared : ∃ agents ms,
    loadAgents Basecradle.novaRuntime (fun _ => "") "agents.json" (some (.ok (.obj sharedFile))) =
      .ok agents ∧
    buildManifests (platformConfig agents) platformRoutes Basecradle.novaRuntime .empty noLocks
      none = .ok ms ∧
    ∃ m ∈ ms, m.subject = "agent:nova" ∧
      ¬ Exact Basecradle.novaRuntime (platformConfig agents) platformRoutes .empty "nova" m := by
  have hload : loadAgents Basecradle.novaRuntime (fun _ => "") "agents.json"
      (some (.ok (.obj sharedFile))) = .ok sharedRegistry := rfl
  have hunique : uniqueAgents (platformConfig sharedRegistry) = [novaCaptain] := rfl
  obtain ⟨m, hm⟩ : ∃ m, agentManifest (platformConfig sharedRegistry) platformRoutes
      Basecradle.novaRuntime .empty noLocks none novaCaptain = .ok m := by
    refine ⟨_, rfl⟩
  have hfirst : (platformConfig sharedRegistry).agents.agents.values.find?
      (·.harnessKey = "nova") = some novaCaptain := rfl
  refine ⟨sharedRegistry, [m], hload, buildManifests_single hunique hm, m, List.mem_cons_self,
    (agentManifest_ok hm).1, fun hexact => ?_⟩
  have haligned := (exact_iff (loadAgents_loaded (by decide) hload) hfirst hm).mp hexact
  exact haligned _ (Basecradle.novaAgent "u-1" required_uuid) hfirst
    (List.mem_cons_of_mem _ List.mem_cons_self) rfl (by decide)
    "basecradle" _ rfl rfl (by decide) rfl

end BasecradleRouter.Claims
