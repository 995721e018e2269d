/-
# After the signature

A request that has verified is its sender's, and `accept` owes it an outcome: a wake, an ignore, or
a rejection that is answered as one.  What a route raises and does not declare ends as
`ROUTE`/`FAILED` instead, and is answered with 200.

`verified_declared` says of the three routes the daemon runs exactly when that happens.
-/
import BasecradleRouter.Pipeline.Accept
import BasecradleRouter.Routes.Declared

namespace BasecradleRouter.Pipeline

open BasecradleRouter.Lib BasecradleRouter.Logfmt BasecradleRouter.Models BasecradleRouter.Routes
open BasecradleRouter.Evidence

/-! ## 1. An accept past its signature -/

/-- The flushes return. -/
structure Flushes.Return (f : Flushes) : Prop where
  verified : f.verified.raised = none
  decided : f.decided.raised = none

namespace Core

variable {σ : Type} (core : Core σ)

/-- The route's `verify` returns, with the secret the core has for it, and leaves its object so. -/
def Verifies (route : Route σ) (source : String) (request : InboundRequest) (object object' : σ) :
    Prop :=
  ∃ secret, core.routeSecret route source = .ok secret ∧
    (route.verify request secret).run object = (.ok (), object')

variable {core} {route : Route σ} {source : String} {request : InboundRequest}
  {object object' : σ} {f : Flushes}

/-- The records of an accept, without their fields. -/
def stagesOf (core : Core σ) (source : String) (request : InboundRequest) (f : Flushes)
    (object : σ) : List (Stage × Outcome) :=
  ((core.accept source request f).run (.enter object)).2.result.stages

/-- A request as it stands when its signature has held. -/
def past (source : String) (f : Flushes) (object' : σ) : Intake σ where
  object := object'
  calls := [⟨.deliveryAccepted source, f.verified.now, f.verified.stamp⟩]
  result := { PipelineResult.new with records := [
    .render .route .ok [("source", .str source)], .render .verify .ok [("source", .str source)]] }

/-- **An accept whose signature held** goes on with what the route makes of the request. -/
theorem acceptBody_verified (hroute : core.registry.routes.get source = some route)
    (hverified : core.Verifies route source request object object') (hf : f.Return) :
    (core.acceptBody source request f).run (.enter object) =
      (core.read source route request f.decided).run (past source f object') := by
  obtain ⟨secret, hsecret, hverify⟩ := hverified
  have hget : core.registry.get core.py source = .ok route := RouteRegistry.get_ok.mpr hroute
  unfold acceptBody
  rw [hget]
  dsimp only
  rw [Py.run_bind]
  simp only [Intake.record, Py.run_change]
  rw [Py.run_bind, Py.run_catching]
  unfold verify Intake.route
  rw [Py.run_bind, Py.run_ofExcept, hsecret]
  dsimp only [Intake.enter]
  rw [Py.run_within, hverify]
  dsimp only
  rw [Py.run_bind]
  unfold Intake.recordEvidence
  rw [Py.run_bind, Py.run_change]
  dsimp only
  rw [Py.run_ofExcept, hf.verified]
  rfl

/-- The stages after an event was made, or none. -/
def restStages : List (List (Stage × Outcome)) :=
  [[(.normalize, .ignored)], [(.normalize, .ok), (.resolve, .failed)],
    [(.normalize, .ok), (.resolve, .ok)]]

/-- An outcome that the route declares is what the accept ends with. -/
theorem accept_ends (hroute : core.registry.routes.get source = some route)
    (hverified : core.Verifies route source request object object') (hf : f.Return) :
    (∀ e s', (route.normalize request).run object' = (.error e, s') → e.Declared →
      core.stagesOf source request f object =
          [(.route, .ok), (.verify, .ok), (.normalize, .rejected)] ∧
        ((core.accept source request f).run (.enter object)).1 = .ok none) ∧
    (∀ event s', (route.normalize request).run object' = (.ok event, s') →
      ∃ rest ∈ restStages, core.stagesOf source request f object =
        (.route, .ok) :: (.verify, .ok) :: rest) := by
  unfold stagesOf accept
  rw [Py.run_handle, acceptBody_verified hroute hverified hf]
  unfold read
  rw [Py.run_bind, Py.run_catching]
  unfold Intake.route
  rw [Py.run_within]
  dsimp only [past]
  constructor
  · intro e s' hrun hdeclared
    rw [hrun]
    cases e with
    | payload text => exact ⟨rfl, rfl⟩
    | untrusted text => exact ⟨rfl, rfl⟩
    | signature text => cases hdeclared
    | config text => cases hdeclared
    | other text => cases hdeclared
  · intro event s' hrun
    rw [hrun]
    unfold Intake.recordEvidence
    cases event with
    | none =>
      dsimp only
      rw [Py.run_bind, Py.run_bind, Py.run_change]
      dsimp only
      rw [Py.run_ofExcept, hf.decided]
      exact ⟨[(.normalize, .ignored)], by decide, rfl⟩
    | some event =>
      dsimp only
      rw [Py.run_bind, Py.run_bind, Py.run_change]
      dsimp only
      rw [Py.run_ofExcept, hf.decided]
      dsimp only [Option.elim_none]
      unfold resolve
      cases core.config.agents.agentForRecipient core.py event.recipient with
      | error text => exact ⟨[(.normalize, .ok), (.resolve, .failed)], by decide, rfl⟩
      | ok agent => exact ⟨[(.normalize, .ok), (.resolve, .ok)], by decide, rfl⟩

end Core

/-- A rejected body is answered with 400. -/
theorem answer_rejected {result : PipelineResult}
    (h : result.stages.getLast? = some (.normalize, .rejected)) : answer none result = 400 := by
  unfold PipelineResult.stages at h
  rw [List.getLast?_map, Option.map_eq_some_iff] at h
  obtain ⟨last, hlast, heq⟩ := h
  rw [Prod.mk.injEq] at heq
  unfold answer statusFor
  rw [Option.isSome_none, if_neg Bool.false_ne_true, hlast]
  dsimp only
  rw [heq.1, heq.2]

/-! ## 2. The routes of the daemon -/

/-- What is owed to a request that verified: the route declares what it raises, the accept does not
end as a failure of the route, and a body that is no JSON object is rejected with 400 where the
event is one that is parsed. -/
structure Answered (core : Core Objects) (route : Route Objects) (source : String)
    (request : InboundRequest) (object object' : Objects) : Prop where
  declared : ∀ e s', (route.normalize request).run object' = (.error e, s') → e.Declared
  unfailed : ∀ f : Flushes, f.Return → (.verify, .ok) ∈ core.stagesOf source request f object →
    (core.stagesOf source request f object).getLast? ≠ some (.route, .failed)
  rejected : Parses core.py source request →
    (∀ data, core.py.loads request.body ≠ .ok (.obj data)) → ∀ f : Flushes, f.Return →
      (core.stagesOf source request f object).getLast? = some (.normalize, .rejected) ∧
        ∃ pending s', (core.accept source request f).run (.enter object) = (.ok pending, s') ∧
          answer pending s'.result = 400

/-- **A verified delivery ends in a declared outcome** exactly if its route can read it. -/
theorem verified_declared (py : Runtime) (hmac : String → List UInt8 → String)
    (upper : String → String) (config : Config) (env : OrderedDict String String)
    (registry : RouteRegistry Objects) (source : String) (route : Route Objects)
    (request : InboundRequest) (object object' : Objects)
    (hbuilt : buildRegistry py hmac upper config env = .ok registry)
    (hroute : registry.routes.get source = some route)
    (hverified : (⟨py, upper, registry, config⟩ : Core Objects).Verifies route source request
      object object') :
    Answered ⟨py, upper, registry, config⟩ route source request object object' ↔
      ¬ Unreadable py (botLoginForRepo config.agents) source request := by
  have hregistered := (registered hbuilt hroute).1
  constructor
  · rintro ⟨hdeclared, -, -⟩ hunreadable
    obtain ⟨e, s', hrun, hnot⟩ := (hregistered.escapes (s := object')).mpr hunreadable
    exact hnot (hdeclared e s' hrun)
  · intro hreadable
    have hdeclared : ∀ e s', (route.normalize request).run object' = (.error e, s') →
        e.Declared := by
      intro e s' hrun
      by_contra hnot
      exact hreadable (hregistered.escapes.mp ⟨e, s', hrun, hnot⟩)
    refine ⟨hdeclared, fun f hf _ => ?_, fun hparses hbody f hf => ?_⟩
    · obtain ⟨hraised, hmade⟩ := Core.accept_ends (f := f) hroute hverified hf
      rcases hrun : (route.normalize request).run object' with ⟨e | event, s'⟩
      · obtain ⟨hstages, -⟩ := hraised e s' hrun (hdeclared e s' hrun)
        rw [hstages]
        decide
      · obtain ⟨rest, hrest, hstages⟩ := hmade event s' hrun
        have hlast : ∀ rest ∈ Core.restStages, ((.route, .ok) :: (.verify, .ok) :: rest :
            List (Stage × Outcome)).getLast? ≠ some (.route, .failed) := by decide
        rw [hstages]
        exact hlast rest hrest
    · have hload : ¬ Unloadable py request.body := fun h => hreadable ⟨hparses, Or.inl h⟩
      obtain ⟨text, s', hrun⟩ := hregistered.rejects (s := object') hparses hload hbody
      obtain ⟨hstages, hnone⟩ :=
        (Core.accept_ends (f := f) hroute hverified hf).1 _ s' hrun trivial
      have hlast : (Core.stagesOf ⟨py, upper, registry, config⟩ source request f object).getLast? =
          some (.normalize, .rejected) := by rw [hstages]; rfl
      refine ⟨hlast, none, _, Prod.ext hnone rfl, answer_rejected hlast⟩

/-! ## 3. Two `issues` deliveries -/

/-- A daemon that runs the github route alone. -/
def githubConfig : Config where
  enabledRoutes := {"github"}
  webhookSecrets := OrderedDict.empty.set "github" "key"
  agents := .empty

def githubEnv : OrderedDict String String :=
  OrderedDict.empty.set Config.githubTrustedActorsVar "drawkkwast"

/-- An `issues` delivery that verifies, where every digest is `digest`. -/
def issuesRequest : InboundRequest where
  headers := [(githubSignatureHeader, "sha256=digest"), (eventHeader, issuesEvent),
    (deliveryHeader, "d-1")]
  body := [0]

/-- No state yet. -/
def newObjects : Objects := ⟨⟨.empty, .empty, []⟩, []⟩

/-- An interpreter that reads every body so. -/
def loading (read : Except LoadsError Json) : Runtime := .ascii (fun _ => read) fun _ => none

/-- The route of that daemon, where every digest is `digest`. -/
def hookRoute (read : Except LoadsError Json) : Route Objects :=
  githubRoute (fun _ _ => "digest")
    (.init (loading read) {"drawkkwast"} (botLoginForRepo githubConfig.agents))

def hookRegistry (read : Except LoadsError Json) : RouteRegistry Objects :=
  ⟨OrderedDict.empty.set "github" (hookRoute read), RouteRegistry.empty.named_set (hookRoute read)⟩

theorem built_hookRegistry (read : Except LoadsError Json) :
    buildRegistry (loading read) (fun _ _ => "digest") id githubConfig githubEnv =
      .ok (hookRegistry read) := by
  have hactors : Config.loadGithubTrustedActors githubEnv.get = .ok {"drawkkwast"} := rfl
  have hnames : PyStr.sorted githubConfig.enabledRoutes = ["github"] := Finset.sort_singleton _ _
  refine bind_eq_ok.mpr ⟨hookRegistry read, ?_, bind_eq_ok.mpr ⟨hookRegistry read, ?_,
    bind_eq_ok.mpr ⟨hookRegistry read, ?_, bind_eq_ok.mpr ⟨(), ?_, rfl⟩⟩⟩⟩
  · unfold registerEnabled
    rw [if_pos (by decide), hactors]
    rfl
  · exact if_neg (by decide)
  · exact if_neg (by decide)
  · unfold requireRouteSecrets
    rw [hnames]
    rfl

/-- The request verifies there. -/
theorem verifies_hookRoute (read : Except LoadsError Json) :
    (⟨loading read, id, hookRegistry read, githubConfig⟩ : Core Objects).Verifies (hookRoute read)
      "github" issuesRequest newObjects newObjects :=
  ⟨some "key", rfl, rfl⟩

/-- What is loaded of a body whose action is a list. -/
def listAction : Except LoadsError Json := .ok (.obj [("action", .arr [])])

/-- What is loaded of a body that is no JSON. -/
def noJson : Except LoadsError Json := .error (.decode "Expecting value")

/-- **An action that is a list** escapes `normalize`, though the delivery verified. -/
theorem not_answered_action :
    buildRegistry (loading listAction) (fun _ _ => "digest") id githubConfig githubEnv =
      .ok (hookRegistry listAction) ∧
    (⟨loading listAction, id, hookRegistry listAction, githubConfig⟩ : Core Objects).Verifies
      (hookRoute listAction) "github" issuesRequest newObjects newObjects ∧
    ¬ Answered ⟨loading listAction, id, hookRegistry listAction, githubConfig⟩
      (hookRoute listAction) "github" issuesRequest newObjects newObjects := by
  refine ⟨built_hookRegistry _, verifies_hookRoute _, fun h => ?_⟩
  refine h.declared (.other "unhashable type: 'list'") newObjects ?_
  rfl

/-- A body that is no JSON is answered. -/
theorem verified_declared_malformed :
    Answered ⟨loading noJson, id, hookRegistry noJson, githubConfig⟩ (hookRoute noJson) "github"
      issuesRequest newObjects newObjects := by
  refine (verified_declared _ (fun _ _ => "digest") id githubConfig githubEnv _ "github" _
    issuesRequest newObjects newObjects (built_hookRegistry _) rfl (verifies_hookRoute _)).mpr ?_
  rintro ⟨-, ⟨name, hload⟩ | ⟨-, data, hload, -⟩⟩
  · cases hload
  · cases hload

end BasecradleRouter.Pipeline
