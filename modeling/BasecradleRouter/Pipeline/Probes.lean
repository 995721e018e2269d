/-
# Probes do not disturb real traffic

The router with its probes and the router without them run side by side.  A step of real traffic
does the same at both, and a probe's step moves nothing that real traffic can see: its marks lie
under keys of its own, it is stamped with no time and so neither covers nor is covered, it writes
its own rows, and it only makes the breaker count more.

`probes_undisturbing` is about whole runs, by the unwinding rule.
-/
import BasecradleRouter.Breaker.Thinning
import BasecradleRouter.Dedup.Live
import BasecradleRouter.Pipeline.Dedup
import BasecradleRouter.Pipeline.Router
import BasecradleRouter.Pipeline.Sinks
import BasecradleRouter.Routes.Binding
import BasecradleRouter.Routes.Declared

namespace BasecradleRouter.Pipeline

open BasecradleRouter.Lib BasecradleRouter.Logfmt BasecradleRouter.Models BasecradleRouter.Routes
open BasecradleRouter.Breaker BasecradleRouter.Coalesce BasecradleRouter.Dedup
open BasecradleRouter.Evidence
open BasecradleRouter.Routes.Basecradle (novaUuid novaRegistry novaAgent required_nova)

/-! ## 1. What the routes see of each other -/

/-- A relation of what the routes hold that does not look at their journal. -/
def Unjournaled (S : Objects → Objects → Prop) : Prop :=
  ∀ s t line, S s t →
    S { s with journal := s.journal ++ [line] } { t with journal := t.journal ++ [line] }

/-- What the routes hold, but for their journal. -/
def SameObjects (s t : Objects) : Prop := s.github = t.github

/-- The github route holds this, on both sides. -/
def Holding (github : GithubRoute.State) (s t : Objects) : Prop :=
  s.github = github ∧ t.github = github

theorem sameObjects_unjournaled : Unjournaled SameObjects := fun _ _ _ h => h

theorem holding_unjournaled (github : GithubRoute.State) : Unjournaled (Holding github) :=
  fun _ _ _ h => h

/-- A route whose methods see no more of what the routes hold than `S` relates. -/
structure Blind (S : Objects → Objects → Prop) (route : Route Objects) : Prop where
  verify : ∀ request secret, Py.Respects S (route.verify request secret)
  normalize : ∀ request, Py.Respects S (route.normalize request)

section

variable {py : Runtime} {hmac : String → List UInt8 → String} {upper : String → String}
  {config : Config} {source : String} {route : Route Objects}
  {S : Objects → Objects → Prop}

theorem respects_logged (hS : Unjournaled S) {α : Type} (made : Except Routes.Raised (α × String)) :
    Py.Respects S (logged made) :=
  (Py.respects_ofExcept _).bind fun _ =>
    (Py.respects_change fun _ _ h => hS _ _ _ h).bind fun _ => Py.respects_pure _

theorem respects_githubMethod {α : Type} (x : GithubRoute.Method α) :
    Py.Respects SameObjects (githubMethod x) := by
  intro s t hst
  unfold githubMethod
  rw [Py.run_within, Py.run_within, show s.github = t.github from hst]
  exact ⟨rfl, rfl⟩

theorem blind_probeRoute (hS : Unjournaled S) : Blind S (probeRoute py hmac) :=
  ⟨fun _ _ => Py.respects_ofExcept _, fun _ => respects_logged hS _⟩

/-- No route sees the journal. -/
theorem blind_of_registered (h : Registered py hmac config source route) :
    Blind SameObjects route := by
  cases h with
  | github r => exact ⟨fun _ _ => Py.respects_ofExcept _, fun _ => respects_githubMethod _⟩
  | basecradle keyring =>
    refine ⟨fun request secret => ?_, fun _ => respects_logged sameObjects_unjournaled _⟩
    exact (Py.respects_ofExcept _).bind fun _ => Py.respects_change fun _ _ h => h
  | probe => exact blind_probeRoute sameObjects_unjournaled

/-- Nor does a recheck. -/
theorem recheck_congr {core : Core Objects}
    (hregistered : ∀ source route, core.registry.routes.get source = some route →
      Registered py hmac config source route) (event : Event) {s t : Objects}
    (h : SameObjects s t) : core.registry.recheck event s = core.registry.recheck event t := by
  unfold RouteRegistry.recheck
  cases hget : core.registry.routes.get event.source with
  | none => rfl
  | some route =>
    cases hregistered event.source route hget with
    | github r =>
      dsimp only [githubRoute]
      rw [show s.github = t.github from h]
    | basecradle keyring => rfl
    | probe => rfl

end

/-! ## 2. A request -/

/-- Two requests on their way in, with the same answer so far. -/
structure SameIntake (S : Objects → Objects → Prop) (I J : Intake Objects) : Prop where
  object : S I.object J.object
  calls : I.calls = J.calls
  result : I.result = J.result

section

variable {S : Objects → Objects → Prop} {core : Core Objects} {source : String}
  {request : InboundRequest}

theorem respects_record (stage : Stage) (outcome : Outcome) (fields : List (String × Value)) :
    Py.Respects (SameIntake S) (Intake.record stage outcome fields) := by
  refine Py.respects_change fun I J h => ⟨h.object, h.calls, ?_⟩
  dsimp only
  rw [h.result]

theorem respects_recordEvidence (operation : Operation) (f : Flush) :
    Py.Respects (SameIntake S) (Intake.recordEvidence operation f) := by
  refine (Py.respects_change fun I J h => ⟨h.object, ?_, h.result⟩).bind fun _ =>
    Py.respects_ofExcept _
  dsimp only
  rw [h.calls]

theorem respects_route {α : Type} {x : Py Objects Refusal α} (h : Py.Respects S x) :
    Py.Respects (SameIntake S) (Intake.route x) :=
  h.within (fun _ _ hst => hst.object) fun _ _ _ _ hst hab => ⟨hab, hst.calls, hst.result⟩

theorem respects_resolve (event : Event) :
    Py.Respects (SameIntake S) (core.resolve source event) := by
  unfold Core.resolve
  split
  · exact (respects_record _ _ _).bind fun _ => Py.respects_pure _
  · refine (Py.respects_change fun I J h => ⟨h.object, h.calls, ?_⟩).bind fun _ =>
      (respects_record _ _ _).bind fun _ => Py.respects_pure _
    dsimp only
    rw [h.result]

theorem respects_read {route : Route Objects} (hroute : Blind S route) (f : Flush) :
    Py.Respects (SameIntake S) (core.read source route request f) := by
  unfold Core.read
  refine (respects_route (hroute.normalize request)).catching.bind fun made => ?_
  split
  · exact (respects_record _ _ _).bind fun _ => Py.respects_pure _
  · exact (respects_record _ _ _).bind fun _ => Py.respects_pure _
  · exact Py.respects_raise _
  · exact (respects_recordEvidence _ _).bind fun _ =>
      (respects_record _ _ _).bind fun _ => Py.respects_pure _
  · next event =>
    refine (respects_recordEvidence _ _).bind fun _ =>
      (Py.respects_change fun I J h => ⟨h.object, h.calls, ?_⟩).bind fun _ =>
        (respects_record _ _ _).bind fun _ => respects_resolve event
    dsimp only
    rw [h.result]

/-- An accept sees no more than its route. -/
theorem respects_accept (hblind : ∀ route, core.registry.routes.get source = some route →
    Blind S route) (f : Flushes) : Py.Respects (SameIntake S) (core.accept source request f) := by
  have hbody : Py.Respects (SameIntake S) (core.acceptBody source request f) := by
    unfold Core.acceptBody
    split
    · exact (respects_record _ _ _).bind fun _ => Py.respects_pure _
    · next route hget =>
      have hroute := hblind route (RouteRegistry.get_ok.mp hget)
      have hverify : Py.Respects (SameIntake S) (core.verify route source request) :=
        (Py.respects_ofExcept _).bind fun _ => respects_route (hroute.verify request _)
      refine (respects_record _ _ _).bind fun _ => hverify.catching.bind fun verified => ?_
      split
      · exact (respects_recordEvidence _ _).bind fun _ =>
          (respects_record _ _ _).bind fun _ => Py.respects_pure _
      · exact (respects_recordEvidence _ _).bind fun _ =>
          (respects_record _ _ _).bind fun _ => Py.respects_pure _
      · exact Py.respects_raise _
      · exact (respects_recordEvidence _ _).bind fun _ =>
          (respects_record _ _ _).bind fun _ => respects_read hroute _
  exact hbody.handle fun _ => (respects_record _ _ _).bind fun _ => Py.respects_pure _

end

/-! ## 3. The events of a source -/

/-- A delivery key of real traffic. -/
def RealKey (key : String) : Prop := ¬ "probe:".toList <+: key.toList

/-- An event as the route of a source makes it. -/
structure Sourced (source : String) (event : Event) : Prop where
  named : event.source = source
  unstamped : source = Probe.routeName → event.occurredAt = none
  realKey : source ≠ Probe.routeName → RealKey event.dedupKey

theorem dedupKey_toList (event : Event) : event.dedupKey.toList =
    event.source.toList ++
      ':' :: (event.recipient.value.toList ++ ':' :: event.deliveryId.toList) := by
  simp [Event.dedupKey]

/-- A probe's key is its own. -/
theorem Sourced.not_realKey {event : Event} (h : Sourced Probe.routeName event) :
    ¬ RealKey event.dedupKey := by
  intro hreal
  apply hreal
  rw [dedupKey_toList, h.named]
  exact ⟨_, rfl⟩

section

variable {py : Runtime} {hmac : String → List UInt8 → String} {config : Config}
  {source : String} {route : Route Objects}

/-- What a route makes of a request. -/
theorem returns_normalize (h : Registered py hmac config source route) (request : InboundRequest) :
    Py.Returns (fun event => ∀ e ∈ event, Sourced source e) (route.normalize request) := by
  intro s event s' hrun e he
  have hstamped : e.source = route.name := route.stamps request s event s' hrun e he
  cases h with
  | github r hsource =>
    refine ⟨hstamped.trans hsource.symm, fun h => ?_, fun _ => ?_⟩
    · exact absurd (hsource.symm.trans h) (by decide)
    · rintro ⟨rest, hrest⟩
      rw [dedupKey_toList, show e.source = "github" from hstamped] at hrest
      cases hrest
  | basecradle keyring hsource =>
    refine ⟨hstamped.trans hsource.symm, fun h => ?_, fun _ => ?_⟩
    · exact absurd (hsource.symm.trans h) (by decide)
    · rintro ⟨rest, hrest⟩
      rw [dedupKey_toList, show e.source = "basecradle" from hstamped] at hrest
      cases hrest
  | probe hsource =>
    refine ⟨hstamped.trans hsource.symm, fun _ => ?_, fun hne => absurd hsource hne⟩
    have hlogged : (logged ((Probe.normalize py request).map fun made =>
        (some made.1, made.2))).run s = (.ok event, s') := hrun
    rw [run_logged] at hlogged
    cases hmade : Probe.normalize py request with
    | error exc =>
      rw [hmade] at hlogged
      cases hlogged
    | ok made =>
      rw [hmade] at hlogged
      cases hlogged
      cases he
      exact (Probe.normalize_ok hmade).2.2.2.1

end

/-- What an accept leaves to be executed. -/
theorem returns_accept {core : Core Objects} {source : String} {request : InboundRequest}
    (hroute : ∀ route, core.registry.routes.get source = some route →
      Py.Returns (fun event => ∀ e ∈ event, Sourced source e) (route.normalize request))
    (f : Flushes) :
    Py.Returns (fun pending => ∀ made ∈ pending, Sourced source made.2)
      (core.accept source request f) := by
  have hnone : ∀ {σ ε : Type}, Py.Returns (fun pending : Option (Agent × Event) =>
      ∀ made ∈ pending, Sourced source made.2) (pure none : Py σ ε _) :=
    Py.returns_pure fun _ h => by cases h
  have hresolve : ∀ event, Sourced source event →
    Py.Returns (fun pending : Option (Agent × Event) =>
      ∀ made ∈ pending, Sourced source made.2) (core.resolve source event) := by
    intro event hevent
    unfold Core.resolve
    split
    · exact Py.returns_bind fun _ => hnone
    · refine Py.returns_bind fun _ => Py.returns_bind fun _ => Py.returns_pure ?_
      intro made hmade
      cases hmade
      exact hevent
  have hread : ∀ route, core.registry.routes.get source = some route →
      Py.Returns (fun pending : Option (Agent × Event) =>
        ∀ made ∈ pending, Sourced source made.2) (core.read source route request f.decided) := by
    intro route hget
    unfold Core.read
    refine (((hroute route hget).within _ _).catching).bind fun made hmade => ?_
    split
    · exact Py.returns_bind fun _ => hnone
    · exact Py.returns_bind fun _ => hnone
    · exact Py.returns_raise _
    · exact Py.returns_bind fun _ => Py.returns_bind fun _ => hnone
    · next event =>
      exact Py.returns_bind fun _ => Py.returns_bind fun _ => Py.returns_bind fun _ =>
        hresolve event (hmade (some event) rfl event rfl)
  have hbody : Py.Returns (fun pending => ∀ made ∈ pending, Sourced source made.2)
      (core.acceptBody source request f) := by
    unfold Core.acceptBody
    split
    · exact Py.returns_bind fun _ => hnone
    · next route hget =>
      refine Py.returns_bind fun _ => Py.returns_bind fun verified => ?_
      split
      · exact Py.returns_bind fun _ => Py.returns_bind fun _ => hnone
      · exact Py.returns_bind fun _ => Py.returns_bind fun _ => hnone
      · exact Py.returns_raise _
      · exact Py.returns_bind fun _ => Py.returns_bind fun _ =>
          hread route (RouteRegistry.get_ok.mp hget)
  exact hbody.handle fun _ => Py.returns_bind fun _ => hnone

/-! ## 4. The evidence -/

section

variable {P : String → Prop} {s s' : EvidenceStore}

theorem sameRows_called (h : EvidenceStore.SameRows P s s') (calls : List Timed) :
    EvidenceStore.SameRows P (calls.foldl called s) (calls.foldl called s') := by
  induction calls generalizing s s' with
  | nil => exact h
  | cons call calls ih =>
    refine ih ?_
    unfold called
    split
    · exact h.amendSink _ _ _
    · exact h.amendSink _ _ _
    · exact h.amendSink _ _ _
    · exact h

/-- An accept writes its source's sink. -/
theorem sameRows_called_left (h : EvidenceStore.SameRows P s s') {source : String}
    (hsource : ¬ P source) {calls : List Timed} (hcalls : AcceptCalls source calls) :
    EvidenceStore.SameRows P (calls.foldl called s) s' := by
  cases hcalls with
  | none => exact h
  | rejected reason f =>
    show EvidenceStore.SameRows P (s.recordDeliveryRejected source reason _) s'
    exact h.amendSink_left hsource _ _
  | accepted f =>
    show EvidenceStore.SameRows P (s.recordDeliveryAccepted source _) s'
    exact h.amendSink_left hsource _ _
  | decided woke f f' =>
    show EvidenceStore.SameRows P
      ((s.recordDeliveryAccepted source _).recordDeliveryDecision source woke _) s'
    exact (h.amendSink_left hsource _ _).amendSink_left hsource _ _

variable {agent : Agent} {event : Event} {f : Flush}

theorem sameRows_recorded (h : EvidenceStore.SameRows P s s') (x : Exit) :
    EvidenceStore.SameRows P (x.recorded agent event f s) (x.recorded agent event f s') := by
  rcases x.recorded_cases agent event f with hsame | ⟨onWake, onRow, hamend⟩
  · rw [hsame, hsame]
    exact h
  · rw [hamend, hamend]
    exact h.amend _ _ _ _ _

/-- An execute writes its event's row. -/
theorem sameRows_recorded_left (h : EvidenceStore.SameRows P s s') (hsource : ¬ P event.source)
    (x : Exit) : EvidenceStore.SameRows P (x.recorded agent event f s) s' := by
  rcases x.recorded_cases agent event f with hsame | ⟨onWake, onRow, hamend⟩
  · rw [hsame]
    exact h
  · rw [hamend]
    exact h.amend_left _ hsource _ _ _

end

/-! ## 5. An execute -/

section

variable {p : Pipeline} {W W' : World} {d : Delivery}

/-- The breaker, one delivery on. -/
theorem step_breaker : (W.step p d).breaker =
    if (W.exit p d).consulted then
      (W.breaker.admitWake d.agent.harnessKey (some d.event.streamKey) d.readings.admitAt).2
    else W.breaker := (step_left p W d).breaker

/-- A delivery that does not get to it leaves it as it was. -/
theorem step_breaker_unreached (h : reachesBreaker d.agent d.event d.readings W = false) :
    (W.step p d).breaker = W.breaker := by
  have hnot : ¬ (W.exit p d).consulted = true := by
    intro hconsulted
    rw [reachesBreaker_of_consulted hconsulted] at h
    cases h
  rw [step_breaker, if_neg hnot]

/-- Two worlds whose gates answer a delivery alike. -/
structure SameGates (d : Delivery) (W W' : World) : Prop where
  duplicate : duplicate d.event d.readings W = duplicate d.event d.readings W'
  covering : covering d.agent d.event W = covering d.agent d.event W'
  admission : reachesBreaker d.agent d.event d.readings W = true →
    admission d.agent d.event d.readings W = admission d.agent d.event d.readings W'

theorem SameGates.reachesBreaker (h : SameGates d W W') :
    reachesBreaker d.agent d.event d.readings W = reachesBreaker d.agent d.event d.readings W' := by
  unfold Pipeline.reachesBreaker reachesGuard
  rw [h.duplicate, h.covering]

theorem SameGates.reachesWake (h : SameGates d W W') :
    reachesWake d.agent d.event d.readings W = reachesWake d.agent d.event d.readings W' := by
  unfold Pipeline.reachesWake
  rw [← h.reachesBreaker]
  cases hbreaker : Pipeline.reachesBreaker d.agent d.event d.readings W with
  | true => rw [h.admission hbreaker]
  | false => rfl

/-- **The gates decide the exit.** -/
theorem exitOf_congr (h : SameGates d W W') :
    exitOf p d.agent d.event d.readings W = exitOf p d.agent d.event d.readings W' := by
  unfold exitOf
  rw [← h.duplicate, ← h.covering]
  cases hdup : duplicate d.event d.readings W with
  | true => rfl
  | false =>
    cases hcov : covering d.agent d.event W with
    | some into => rfl
    | none =>
      cases hgone : routeRecheck d.readings.recheck with
      | some gone => rfl
      | none =>
        cases hlock : d.readings.lock with
        | error exc => rfl
        | ok decision =>
          cases hfree : decision.shouldWake with
          | false => simp only [hfree, Bool.not_false, if_true]
          | true =>
            -- the breaker is asked, and answers alike
            have hguard : reachesGuard d.agent d.event d.readings W = true :=
              reachesGuard_iff.mpr ⟨hdup, hcov, hgone⟩
            rw [h.admission (reachesBreaker_iff.mpr ⟨hguard, decision, hlock, hfree⟩)]

/-- The stores with the probes, and the stores without them. -/
structure Beside (clock clock' : ℚ) (W W' : World) : Prop where
  deduper : W.deduper.Alike RealKey clock W'.deduper
  breaker : W.breaker.Thinner clock' W'.breaker
  coverage : W.coverage = W'.coverage
  evidence : EvidenceStore.SameRows (· ≠ Probe.routeName) W.evidence W'.evidence

variable {clock clock' : ℚ}

/-- No sweep takes a mark of real traffic that a look-up would find. -/
def SparesReal (p : Pipeline) (W : World) (d : Delivery) : Prop :=
  ∀ k, RealKey k → SweptExpired p W d k

/-- What a delivery's clocks have to be like. -/
structure InTime (p : Pipeline) (clock clock' : ℚ) (W : World) (d : Delivery) : Prop where
  seenAt : clock ≤ d.readings.seenAt
  markAt : W.Done p d → d.readings.seenAt ≤ d.readings.markAt
  admitAt : reachesBreaker d.agent d.event d.readings W = true → clock' ≤ d.readings.admitAt
  admits : reachesBreaker d.agent d.event d.readings W = true →
    (admission d.agent d.event d.readings W).admitted = true
  spares : SparesReal p W d

/-- Real traffic meets gates that answer alike. -/
theorem Beside.gates (h : Beside clock clock' W W') (htime : InTime p clock clock' W d)
    (hkey : RealKey d.event.dedupKey) : SameGates d W W' where
  duplicate := (h.deduper.later htime.seenAt).answer hkey
  covering := by
    unfold Pipeline.covering
    rw [h.coverage]
  admission hbreaker := by
    obtain ⟨hclear, hclear', -⟩ :=
      (h.breaker.later (htime.admitAt hbreaker)).admitWake (htime.admits hbreaker)
    exact hclear.trans hclear'.symm

/-- **A delivery of real traffic**, executed at both. -/
theorem Beside.real (h : Beside clock clock' W W') (htime : InTime p clock clock' W d)
    (hspares : SparesReal p W' d) (hkey : RealKey d.event.dedupKey) :
    Beside (if W.Done p d then d.readings.markAt else d.readings.seenAt)
      (if reachesBreaker d.agent d.event d.readings W then d.readings.admitAt else clock')
      (W.step p d) (W'.step p d) := by
  have hgates := h.gates htime hkey
  have hexit : W.exit p d = W'.exit p d := exitOf_congr hgates
  have hdone : W'.Done p d ↔ W.Done p d := by rw [done_iff, done_iff, hexit]
  have hlooked := (h.deduper.later htime.seenAt).seen d.event.dedupKey
  constructor
  case deduper =>
    rw [step_deduper, step_deduper]
    simp only [hdone]
    split
    · next hd =>
      exact (hlooked.later (htime.markAt hd)).mark (fun k hk => htime.spares k hk hd)
        fun k hk => hspares k hk (hdone.mpr hd)
    · exact hlooked
  case coverage =>
    rw [step_coverage, step_coverage, h.coverage]
    simp only [hdone]
  case breaker =>
    cases hbreaker : reachesBreaker d.agent d.event d.readings W with
    | true =>
      rw [step_breaker, step_breaker, ← hexit, if_pos rfl]
      have hthinner := h.breaker.later (htime.admitAt hbreaker)
      split
      · exact (hthinner.admitWake (htime.admits hbreaker)).2.2
      · exact hthinner
    | false =>
      have hbreaker' := hgates.reachesBreaker.symm.trans hbreaker
      rw [step_breaker_unreached hbreaker, step_breaker_unreached hbreaker', if_neg (by decide)]
      exact h.breaker
  case evidence =>
    have hcalm : SameGates ⟨d.agent, d.event, d.readings.calm⟩ W W' :=
      ⟨hgates.duplicate, hgates.covering, hgates.admission⟩
    rw [step_evidence, step_evidence, ← exitOf_congr hcalm]
    exact sameRows_recorded h.evidence _

/-- **A probe**, executed at the one that has it. -/
theorem Beside.probe (h : Beside clock clock' W W') (htime : InTime p clock clock' W d)
    (hprobe : Sourced Probe.routeName d.event) :
    Beside (if W.Done p d then d.readings.markAt else d.readings.seenAt)
      (if reachesBreaker d.agent d.event d.readings W then d.readings.admitAt else clock')
      (W.step p d) W' := by
  have hlooked := (h.deduper.later htime.seenAt).seen_left d.event.dedupKey
  constructor
  case deduper =>
    rw [step_deduper]
    split
    · next hd =>
      exact (hlooked.later (htime.markAt hd)).mark_left hprobe.not_realKey
        fun k hk => htime.spares k hk hd
    · exact hlooked
  case coverage =>
    rw [step_coverage, WakeCoverage.record_unstamped (hprobe.unstamped rfl), ite_self]
    exact h.coverage
  case breaker =>
    cases hbreaker : reachesBreaker d.agent d.event d.readings W with
    | true =>
      rw [step_breaker, if_pos rfl]
      have hthinner := h.breaker.later (htime.admitAt hbreaker)
      split
      · exact hthinner.admitWake_left (htime.admits hbreaker)
      · exact hthinner
    | false =>
      rw [step_breaker_unreached hbreaker, if_neg (by decide)]
      exact h.breaker
  case evidence =>
    rw [step_evidence]
    exact sameRows_recorded_left h.evidence (by rw [hprobe.named]; simp) _

/-- What a delivery of real traffic leaves to be seen. -/
theorem SameGates.report (h : SameGates d W W') :
    (W.step p d).records = (W'.step p d).records ∧
      launches (W.step p d).effects = launches (W'.step p d).effects := by
  constructor
  · rw [(step_left p W d).records, (step_left p W' d).records]
    show [] ++ [_, terminalRecord p _ _ _ (exitOf _ _ _ _ W)] = _
    rw [exitOf_congr h]
    rfl
  · rw [step_launches, step_launches, h.reachesWake]

end

/-! ## 6. Side by side -/

/-- A request of real traffic. -/
def Ticket.real (ticket : Ticket) : Bool := decide (ticket.source ≠ Probe.routeName)

/-- A clock that does not run backwards, one step on: what was read in the step is a first reading,
and where there was one also a second. -/
theorem pairwise_second {clock a b : ℚ} {rest : List ℚ} {c : Prop} [Decidable c]
    (h : (clock :: ((a :: if c then [b] else []) ++ rest)).Pairwise (· ≤ ·)) :
    clock ≤ a ∧ (c → a ≤ b) ∧ ((if c then b else a) :: rest).Pairwise (· ≤ ·) := by
  obtain ⟨hclock, htail⟩ := List.pairwise_cons.mp h
  refine ⟨hclock a (by simp), fun hc => ?_, ?_⟩
  · rw [if_pos hc] at htail
    exact (List.pairwise_cons.mp htail).1 b (by simp)
  · split at htail
    · next hc =>
      rw [if_pos hc]
      exact (List.pairwise_cons.mp htail).2
    · next hc =>
      rw [if_neg hc]
      exact htail

/-- The same of a clock that is read at most once. -/
theorem pairwise_only {clock a : ℚ} {rest : List ℚ} {c : Bool}
    (h : (clock :: ((if c then [a] else []) ++ rest)).Pairwise (· ≤ ·)) :
    (c = true → clock ≤ a) ∧ ((if c then a else clock) :: rest).Pairwise (· ≤ ·) := by
  cases c with
  | true =>
    obtain ⟨hclock, htail⟩ := List.pairwise_cons.mp h
    exact ⟨fun _ => hclock a (by simp), htail⟩
  | false => exact ⟨fun hc => Bool.noConfusion hc, h⟩

/-- There is an instant before all readings of such a clock. -/
theorem exists_start {readings : List ℚ} (h : readings.Pairwise (· ≤ ·)) :
    ∃ clock, (clock :: readings).Pairwise (· ≤ ·) := by
  cases readings with
  | nil => exact ⟨0, List.pairwise_singleton _ _⟩
  | cons a rest =>
    refine ⟨a, List.pairwise_cons.mpr ⟨fun b hb => ?_, h⟩⟩
    rcases List.mem_cons.mp hb with rfl | hb
    · exact le_rfl
    · exact (List.pairwise_cons.mp h).1 b hb

/-- If the step executes a delivery, no sweep takes a mark of real traffic. -/
def Router.Spares (core : Core Objects) (p : Pipeline) (R : Router) (step : RouterStep) : Prop :=
  ∀ d, R.executed core step = some d → SparesReal p R.world d

/-- The router with its probes and the router without them, before the steps still to come at the
first. -/
structure Alongside (core : Core Objects) (p : Pipeline) (steps : List RouterStep) (R R' : Router) :
    Prop where
  objects : SameObjects R.objects R'.objects
  stores : ∃ clock clock', Beside clock clock' R.world R'.world ∧
    (clock :: gathered (Router.step core p) (Router.dedupReadings core p) R steps).Pairwise
      (· ≤ ·) ∧
    (clock' :: gathered (Router.step core p) (Router.breakerReadings core) R steps).Pairwise (· ≤ ·)
  admits : ∀ m step, Met (Router.step core p) R steps m step →
    m.Admits core step ∧ m.Spares core p step
  spares : ∀ m step, Met (Router.step core p) R' (steps.filter fun step => step.ticket.real) m
    step → m.Spares core p step
  pending : ∀ ticket : Ticket, ticket.real = true → R.pending ticket = R'.pending ticket
  sourced : ∀ ticket, ∀ made ∈ R.pending ticket, Sourced ticket.source made.2
  reports : R.reports.filter (fun report => report.ticket.real) = R'.reports

section

variable {py : Runtime} {hmac : String → List UInt8 → String} {config : Config}
  {core : Core Objects} {p : Pipeline} {R R' : Router} {steps : List RouterStep}

/-- The registered routes. -/
def AllRegistered (py : Runtime) (hmac : String → List UInt8 → String) (config : Config)
    (core : Core Objects) : Prop :=
  ∀ source route, core.registry.routes.get source = some route →
    Registered py hmac config source route

/-- What waits comes from the source of its ticket. -/
theorem accept_sourced (hroutes : AllRegistered py hmac config core)
    (h : ∀ ticket, ∀ made ∈ R.pending ticket, Sourced ticket.source made.2) (ticket : Ticket)
    (request : InboundRequest) (f : Flushes) (ticket' : Ticket) :
    ∀ made ∈ (R.accept core ticket request f).pending ticket', Sourced ticket'.source made.2 := by
  intro made hmade
  simp only [Router.accept, Function.update_apply] at hmade
  split at hmade
  · next heq =>
    subst heq
    cases hrun : (core.accept ticket'.source request f).run (.enter R.objects) with
    | mk value ended =>
      rw [hrun] at hmade
      cases value with
      | error e => cases hmade
      | ok pending =>
        exact returns_accept
          (fun route hget => returns_normalize (hroutes ticket'.source route hget) request) f
          _ _ _ hrun made hmade
  · exact h ticket' made hmade

theorem execute_sourced (h : ∀ ticket, ∀ made ∈ R.pending ticket, Sourced ticket.source made.2)
    (ticket : Ticket) (d : Delivery) (ticket' : Ticket) :
    ∀ made ∈ (R.execute p ticket d).pending ticket', Sourced ticket'.source made.2 := by
  intro made hmade
  simp only [Router.execute, Function.update_apply] at hmade
  split at hmade
  · cases hmade
  · exact h ticket' made hmade

/-- What sweeps spare at the router without probes, after a step of real traffic. -/
theorem Alongside.spares_real {step : RouterStep} (h : Alongside core p (step :: steps) R R')
    (hreal : step.ticket.real = true) : R'.Spares core p step ∧
      ∀ m next, Met (Router.step core p) (Router.step core p R' step)
        (steps.filter fun step => step.ticket.real) m next → m.Spares core p next := by
  have hcons : (step :: steps).filter (fun step => step.ticket.real) =
      step :: steps.filter fun step => step.ticket.real := List.filter_cons_of_pos hreal
  have hspares := h.spares
  rw [hcons] at hspares
  exact ⟨hspares R' step (met_first _ _), fun m next hmet => hspares m next hmet.cons⟩

/-- A probe's step is none there. -/
theorem Alongside.spares_probe {step : RouterStep} (h : Alongside core p (step :: steps) R R')
    (hnot : step.ticket.real = false) : ∀ m next, Met (Router.step core p) R'
      (steps.filter fun step => step.ticket.real) m next →
      m.Spares core p next := by
  have hcons : (step :: steps).filter (fun step => step.ticket.real) =
      steps.filter fun step => step.ticket.real := List.filter_cons_of_neg (by simp [hnot])
  have hspares := h.spares
  rwa [hcons] at hspares

/-- The delivery of a ticket comes from its source. -/
theorem Alongside.delivery_sourced {ticket : Ticket} {readings : Readings} {d : Delivery}
    (h : Alongside core p steps R R') (hd : R.delivery core ticket readings = some d) :
    Sourced ticket.source d.event := by
  unfold Router.delivery at hd
  cases hpending : R.pending ticket with
  | none =>
    rw [hpending] at hd
    cases hd
  | some made =>
    rw [hpending] at hd
    cases hd
    exact h.sourced ticket made hpending

/-- It is the same delivery at both. -/
theorem Alongside.delivery_eq (hroutes : AllRegistered py hmac config core) {ticket : Ticket}
    (h : Alongside core p steps R R') (hreal : ticket.real = true) (readings : Readings) :
    R.delivery core ticket readings = R'.delivery core ticket readings := by
  unfold Router.delivery
  rw [h.pending ticket hreal]
  simp only [recheck_congr hroutes _ h.objects]

/-- A request of real traffic comes in at both. -/
theorem Alongside.accept_real (hroutes : AllRegistered py hmac config core) {ticket : Ticket}
    {request : InboundRequest} {f : Flushes} (hreal : ticket.real = true)
    (h : Alongside core p (.accept ticket request f :: steps) R R') :
    Alongside core p steps (R.accept core ticket request f) (R'.accept core ticket request f) := by
  obtain ⟨hsame, hleft⟩ := respects_accept
    (fun route hget => blind_of_registered (hroutes ticket.source route hget)) f
    (.enter R.objects) (.enter R'.objects) ⟨h.objects, rfl, rfl⟩
  obtain ⟨clock, clock', hbeside, hdedup, hbreaker⟩ := h.stores
  refine ⟨hleft.object, ⟨clock, clock', ⟨hbeside.deduper, hbeside.breaker, hbeside.coverage, ?_⟩,
    hdedup, hbreaker⟩, fun m step hmet => h.admits m step hmet.cons, (h.spares_real hreal).2,
    fun ticket' hreal' => ?_, accept_sourced hroutes h.sourced ticket request f, ?_⟩
  · show EvidenceStore.SameRows _ (List.foldl _ _ _) (List.foldl _ _ _)
    rw [hleft.calls]
    exact sameRows_called hbeside.evidence _
  · simp only [Router.accept, hsame, Function.update_apply, h.pending ticket' hreal']
  · simp only [Router.accept, List.filter_append, h.reports, hsame, hleft.result]
    simp [hreal]

/-- A probe comes in. -/
theorem Alongside.accept_probe (hroutes : AllRegistered py hmac config core) {ticket : Ticket}
    {request : InboundRequest} {f : Flushes} (hprobe : ticket.source = Probe.routeName)
    (h : Alongside core p (.accept ticket request f :: steps) R R') :
    Alongside core p steps (R.accept core ticket request f) R' := by
  have hnot : ticket.real = false := by simp [Ticket.real, hprobe]
  have hblind : ∀ route, core.registry.routes.get ticket.source = some route →
      Blind (Holding R.objects.github) route := by
    intro route hget
    cases hroutes ticket.source route hget with
    | github r hsource => exact absurd (hsource.symm.trans hprobe) (by decide)
    | basecradle keyring hsource => exact absurd (hsource.symm.trans hprobe) (by decide)
    | probe => exact blind_probeRoute (holding_unjournaled _)
  obtain ⟨-, hleft⟩ := respects_accept hblind f (.enter R.objects) (.enter R.objects)
    ⟨⟨rfl, rfl⟩, rfl, rfl⟩
  obtain ⟨clock, clock', hbeside, hdedup, hbreaker⟩ := h.stores
  refine ⟨hleft.object.1.trans h.objects, ⟨clock, clock',
    ⟨hbeside.deduper, hbeside.breaker, hbeside.coverage, ?_⟩, hdedup, hbreaker⟩,
    fun m step hmet => h.admits m step hmet.cons, h.spares_probe hnot, fun ticket' hreal' => ?_,
    accept_sourced hroutes h.sourced ticket request f, ?_⟩
  · exact sameRows_called_left hbeside.evidence (by simp [hprobe])
      (accept_calls core ticket.source request f R.objects)
  · have hne : ticket' ≠ ticket := by
      rintro rfl
      rw [hnot] at hreal'
      cases hreal'
    show Function.update R.pending ticket _ ticket' = _
    rw [Function.update_of_ne hne]
    exact h.pending ticket' hreal'
  · simp only [Router.accept, List.filter_append, h.reports]
    simp [hnot]

/-- What a delivery's clocks are like, and the clocks one step on. -/
theorem Alongside.inTime {ticket : Ticket} {readings : Readings} {d : Delivery}
    (h : Alongside core p (.execute ticket readings :: steps) R R')
    (hd : R.delivery core ticket readings = some d) :
    ∃ clock clock', Beside clock clock' R.world R'.world ∧ InTime p clock clock' R.world d ∧
      ((if R.world.Done p d then d.readings.markAt else d.readings.seenAt) ::
        gathered (Router.step core p) (Router.dedupReadings core p) (R.execute p ticket d)
          steps).Pairwise (· ≤ ·) ∧
      ((if reachesBreaker d.agent d.event d.readings R.world then d.readings.admitAt else clock') ::
        gathered (Router.step core p) (Router.breakerReadings core) (R.execute p ticket d)
          steps).Pairwise (· ≤ ·) := by
  obtain ⟨clock, clock', hbeside, hdedup, hbreaker⟩ := h.stores
  have hstep := Router.step_delivered (p := p) hd
  simp only [gathered, Router.dedupReadings, Router.executed, hd, hstep] at hdedup
  simp only [gathered, Router.breakerReadings, Router.executed, hd, hstep] at hbreaker
  obtain ⟨hseen, hmark, hdedup'⟩ := pairwise_second hdedup
  obtain ⟨hpass, hbreaker'⟩ := pairwise_only hbreaker
  obtain ⟨hadmits, hspares⟩ := h.admits R _ (met_first _ _)
  exact ⟨clock, clock', hbeside, ⟨hseen, hmark, hpass, hadmits d hd, hspares d hd⟩,
    hdedup', hbreaker'⟩

/-- A delivery of real traffic is executed at both. -/
theorem Alongside.execute_real {ticket : Ticket} {readings : Readings} {d : Delivery}
    (hreal : ticket.real = true) (h : Alongside core p (.execute ticket readings :: steps) R R')
    (hd : R.delivery core ticket readings = some d)
    (hd' : R'.delivery core ticket readings = some d) :
    Alongside core p steps (R.execute p ticket d) (R'.execute p ticket d) := by
  obtain ⟨clock, clock', hbeside, htime, hdedup, hbreaker⟩ := h.inTime hd
  have hkey := (h.delivery_sourced hd).realKey (by simpa [Ticket.real] using hreal)
  have hstep := Router.step_delivered (p := p) hd
  obtain ⟨hrecords, hlaunches⟩ := (hbeside.gates htime hkey).report (p := p)
  obtain ⟨hnow, hspares⟩ := h.spares_real hreal
  rw [Router.step_delivered hd'] at hspares
  refine ⟨h.objects, ⟨_, _, hbeside.real htime (hnow d hd') hkey, hdedup, hbreaker⟩,
    fun m step hmet => h.admits m step (Met.cons (hstep ▸ hmet)), hspares,
    fun ticket' hreal' => ?_, execute_sourced h.sourced ticket d, ?_⟩
  · simp only [Router.execute, Function.update_apply, h.pending ticket' hreal']
  · simp only [Router.execute, List.filter_append, h.reports, hrecords, hlaunches]
    simp [hreal]

/-- A probe is executed. -/
theorem Alongside.execute_probe {ticket : Ticket} {readings : Readings} {d : Delivery}
    (hprobe : ticket.source = Probe.routeName)
    (h : Alongside core p (.execute ticket readings :: steps) R R')
    (hd : R.delivery core ticket readings = some d) :
    Alongside core p steps (R.execute p ticket d) R' := by
  have hnot : ticket.real = false := by simp [Ticket.real, hprobe]
  obtain ⟨clock, clock', hbeside, htime, hdedup, hbreaker⟩ := h.inTime hd
  have hsourced := h.delivery_sourced hd
  rw [hprobe] at hsourced
  have hstep := Router.step_delivered (p := p) hd
  refine ⟨h.objects, ⟨_, _, hbeside.probe htime hsourced, hdedup, hbreaker⟩,
    fun m step hmet => h.admits m step (Met.cons (hstep ▸ hmet)), h.spares_probe hnot,
    fun ticket' hreal' => ?_, execute_sourced h.sourced ticket d, ?_⟩
  · have hne : ticket' ≠ ticket := by
      rintro rfl
      rw [hnot] at hreal'
      cases hreal'
    show Function.update R.pending ticket none ticket' = _
    rw [Function.update_of_ne hne]
    exact h.pending ticket' hreal'
  · simp only [Router.execute, List.filter_append, h.reports]
    simp [hnot]

/-- Nothing to execute. -/
theorem Alongside.skip {ticket : Ticket} {readings : Readings}
    (h : Alongside core p (.execute ticket readings :: steps) R R')
    (hd : R.delivery core ticket readings = none)
    (hd' : ticket.real = true → R'.delivery core ticket readings = none) :
    Alongside core p steps R R' := by
  have hspares : ∀ m next, Met (Router.step core p) R'
      (steps.filter fun step => step.ticket.real) m next → m.Spares core p next := by
    cases hreal : ticket.real with
    | true =>
      have hspares := (h.spares_real hreal).2
      rwa [Router.step_undelivered (hd' hreal)] at hspares
    | false => exact h.spares_probe hreal
  have hstep := Router.step_undelivered (p := p) hd
  obtain ⟨clock, clock', hbeside, hdedup, hbreaker⟩ := h.stores
  simp only [gathered, Router.dedupReadings, Router.executed, hd, hstep] at hdedup
  simp only [gathered, Router.breakerReadings, Router.executed, hd, hstep] at hbreaker
  exact ⟨h.objects, ⟨clock, clock', hbeside, hdedup, hbreaker⟩,
    fun m step hmet => h.admits m step (Met.cons (hstep.symm ▸ hmet)), hspares, h.pending,
    h.sourced, h.reports⟩

/-- **A step of real traffic**, at both. -/
theorem Alongside.step_real (hroutes : AllRegistered py hmac config core) {step : RouterStep}
    (hreal : step.ticket.real = true) (h : Alongside core p (step :: steps) R R') :
    Alongside core p steps (Router.step core p R step) (Router.step core p R' step) := by
  cases step with
  | accept ticket request f => exact h.accept_real hroutes hreal
  | execute ticket readings =>
    have hsame := h.delivery_eq hroutes hreal readings
    cases hd : R.delivery core ticket readings with
    | none =>
      rw [Router.step_undelivered hd, Router.step_undelivered (hsame ▸ hd)]
      exact h.skip hd fun _ => hsame ▸ hd
    | some d =>
      rw [Router.step_delivered hd, Router.step_delivered (hsame ▸ hd)]
      exact h.execute_real hreal hd (hsame ▸ hd)

/-- **A probe's step**, at the one that has it. -/
theorem Alongside.step_probe (hroutes : AllRegistered py hmac config core) {step : RouterStep}
    (hnot : step.ticket.real = false) (h : Alongside core p (step :: steps) R R') :
    Alongside core p steps (Router.step core p R step) R' := by
  have hprobe : step.ticket.source = Probe.routeName := by simpa [Ticket.real] using hnot
  cases step with
  | accept ticket request f => exact h.accept_probe hroutes hprobe
  | execute ticket readings =>
    cases hd : R.delivery core ticket readings with
    | none =>
      rw [Router.step_undelivered hd]
      exact h.skip hd fun hreal => absurd (hnot.symm.trans hreal) (by decide)
    | some d =>
      rw [Router.step_delivered hd]
      exact h.execute_probe hprobe hd

/-- At the start there is no difference. -/
theorem alongside_start {objects : Objects} {evidence : EvidenceStore} {ttl : PyFloat}
    {capacity : ℕ}
    {breaker : BreakerConfig} {ht : ttl.lt (.fin 0) = false} {hc : 1 ≤ capacity}
    (hR : R = Router.start objects evidence ttl capacity breaker ht hc)
    (hdedup : (gathered (Router.step core p) (Router.dedupReadings core p) R steps).Pairwise
      (· ≤ ·))
    (hbreaker : (gathered (Router.step core p) (Router.breakerReadings core) R steps).Pairwise
      (· ≤ ·))
    (hadmits : ∀ m step, Met (Router.step core p) R steps m step →
      m.Admits core step ∧ m.Spares core p step)
    (hspares : ∀ m step, Met (Router.step core p) R
      (steps.filter fun step => step.ticket.real) m step → m.Spares core p step) :
    Alongside core p steps R R := by
  obtain ⟨clock, hclock⟩ := exists_start hdedup
  obtain ⟨clock', hclock'⟩ := exists_start hbreaker
  subst hR
  refine ⟨rfl, ⟨clock, clock',
    ⟨.refl _ _ _, WakeRateBreaker.thinner_new breaker clock', rfl, .refl _ _⟩, hclock,
    hclock'⟩, hadmits, hspares, fun _ _ => rfl, fun _ made hmade => ?_, rfl⟩
  cases hmade

/-- What real traffic leaves to be seen of a router is what it leaves of another. -/
structure Undisturbed (R R' : Router) : Prop where
  outcomes : (R.reports.filter fun report => report.ticket.real).map
      (fun report => (report.ticket, report.terminal)) =
    R'.reports.map fun report => (report.ticket, report.terminal)
  wakes : (R.reports.filter fun report => report.ticket.real).flatMap Report.wakes =
    R'.reports.flatMap Report.wakes
  sinks : ∀ route, route ≠ Probe.routeName →
    R.world.evidence.sinkRow route = R'.world.evidence.sinkRow route
  rows : ∀ agent route, route ≠ Probe.routeName →
    R.world.evidence.wakeRow agent route = R'.world.evidence.wakeRow agent route

end

/-- **Probes do not disturb real traffic**: with clocks that do not run backwards and a breaker that
admits every call, taking every probe out of a run changes nothing that real traffic leaves. -/
theorem probes_undisturbing (py : Runtime) (hmac : String → List UInt8 → String)
    (upper : String → String) (config : Config) (env : OrderedDict String String)
    (registry : RouteRegistry Objects)
    (hbuilt : buildRegistry py hmac upper config env = .ok registry) (p : Pipeline)
    (objects : Objects) (evidence : EvidenceStore) (ttl : PyFloat) (capacity : ℕ)
    (breaker : BreakerConfig) (ht : ttl.lt (.fin 0) = false) (hc : 1 ≤ capacity)
    (core : Core Objects) (hcore : core = ⟨py, upper, registry, config⟩)
    (started : Router) (hstart : started = .start objects evidence ttl capacity breaker ht hc)
    (steps : List RouterStep)
    (hdedup : (gathered (Router.step core p) (Router.dedupReadings core p) started steps).Pairwise
      (· ≤ ·))
    (hbreaker : (gathered (Router.step core p) (Router.breakerReadings core) started steps).Pairwise
      (· ≤ ·))
    (hadmits : ∀ m step, Met (Router.step core p) started steps m step → m.Admits core step)
    (hspares : ∀ m step, Met (Router.step core p) started steps m step → m.Spares core p step)
    (hspares' : ∀ m step, Met (Router.step core p) started
      (steps.filter fun step => step.ticket.real) m step → m.Spares core p step) :
    Undisturbed (started.run core p steps)
      (started.run core p (steps.filter fun step => step.ticket.real)) := by
  have hroutes : AllRegistered py hmac config core := by
    intro source route hget
    rw [hcore] at hget
    exact (registered hbuilt hget).1
  have hreal : ∀ step steps R R', step.ticket.real = true → Alongside core p (step :: steps) R R' →
      Alongside core p steps (Router.step core p R step) (Router.step core p R' step) :=
    fun _ _ _ _ hreal h => h.step_real hroutes hreal
  have hprobe : ∀ step steps R R', step.ticket.real = false →
      Alongside core p (step :: steps) R R' →
        Alongside core p steps (Router.step core p R step) R' :=
    fun _ _ _ _ hnot h => h.step_probe hroutes hnot
  have h := unwinding hreal hprobe steps (alongside_start hstart hdedup hbreaker
    (fun m step hmet => ⟨hadmits m step hmet, hspares m step hmet⟩) hspares')
  obtain ⟨clock, clock', hbeside, -, -⟩ := h.stores
  exact ⟨congrArg _ h.reports, congrArg _ h.reports, hbeside.evidence.sink, hbeside.evidence.wake⟩

/-- Where nothing is rounded no sweep takes a mark that a look-up would find. -/
theorem spares_exact {core : Core Objects} {p : Pipeline} {R : Router}
    (h : R.world.deduper.rounding = .exact) {steps : List RouterStep} {m : Router}
    {step : RouterStep} (hmet : Met (Router.step core p) R steps m step) :
    m.Spares core p step := by
  have hsame : ∀ (m : Router) (step : RouterStep),
      (Router.step core p m step).world.deduper.rounding = m.world.deduper.rounding := by
    intro m step
    cases step with
    | accept ticket request f => rfl
    | execute ticket readings =>
      unfold Router.step
      dsimp only
      split
      · rfl
      · next d _ => exact (step_same p m.world d).rounding
  obtain ⟨earlier, later, -, rfl⟩ := hmet
  have hexact : (after (Router.step core p) R earlier).world.deduper.rounding = .exact :=
    after_invariant (I := fun _ (m : Router) => m.world.deduper.rounding = .exact) h
      (fun _ _ ih => (hsame _ _).trans ih) earlier
  exact fun d _ k _ => sweptExpired_exact p _ hexact d k

/-! ## 7. Requests that are executed at once -/

/-- A request, and the reading of every clock in its execute. -/
structure Posted where
  ticket : Ticket
  request : InboundRequest
  now : ℚ

/-- A flush at the start of the calendar. -/
def firstFlush : Flush := ⟨⟨0, span_pos⟩, ⟨0, span_pos⟩, none⟩

/-- It comes in, and what it left is executed; the waker ends well. -/
def Posted.steps (x : Posted) : List RouterStep :=
  [.accept x.ticket x.request ⟨firstFlush, firstFlush⟩,
    .execute x.ticket (.sample x.now .earliest (.ok ⟨0⟩))]

/-- Whatever the routes hold, the request leaves a delivery that only the stores can hold up. -/
structure Accepts (core : Core Objects) (source : String) (request : InboundRequest)
    (made : Agent × Event) : Prop where
  left : ∀ o, ((core.accept source request ⟨firstFlush, firstFlush⟩).run (.enter o)).1 =
    .ok (some made)
  recheck : ∀ o, core.registry.recheck made.2 o = none
  unstamped : made.2.occurredAt = none
  woken : ∀ now, (wakeExit ⟨3⟩ made.1 made.2 (.sample now .earliest (.ok ⟨0⟩))).done = true

/-- What is executed of it. -/
def delivered (made : Agent × Event) (now : ℚ) : Delivery :=
  ⟨made.1, made.2, .sample now .earliest (.ok ⟨0⟩)⟩

section

variable {core : Core Objects} {p : Pipeline} {R : Router} {x : Posted} {made : Agent × Event}

theorem Accepts.quiet {source : String} {request : InboundRequest}
    (h : Accepts core source request made) (now : ℚ) : Quiet ⟨3⟩ (delivered made now) now where
  unstamped := h.unstamped
  recheck := rfl
  lock := rfl
  seenAt := rfl
  admitAt := rfl
  markAt := rfl
  woken := h.woken now

theorem Accepts.delivery (h : Accepts core x.ticket.source x.request made) :
    (R.accept core x.ticket x.request ⟨firstFlush, firstFlush⟩).delivery core x.ticket
      (.sample x.now .earliest (.ok ⟨0⟩)) = some (delivered made x.now) := by
  unfold Router.delivery Router.accept
  dsimp only
  rw [Function.update_self, h.left]
  show some (Delivery.mk made.1 made.2 _) = _
  rw [h.recheck]
  rfl

theorem Accepts.run (h : Accepts core x.ticket.source x.request made) :
    R.run core p x.steps = (R.accept core x.ticket x.request ⟨firstFlush, firstFlush⟩).execute p
      x.ticket (delivered made x.now) := by
  unfold Router.run Posted.steps
  rw [after_cons, after_cons, after_nil]
  exact Router.step_delivered h.delivery

theorem Accepts.world (h : Accepts core x.ticket.source x.request made) :
    ∃ e, (R.run core p x.steps).world = (R.world.setEvidence e).step p (delivered made x.now) := by
  rw [h.run]
  exact ⟨_, rfl⟩

/-- How the execute ends is the last that is reported. -/
theorem Accepts.terminal (h : Accepts core x.ticket.source x.request made) :
    ∃ e, (R.run core p x.steps).reports.getLast?.map
        (fun report => (report.ticket, report.terminal)) =
      some (x.ticket, (R.world.setEvidence e).ends p (delivered made x.now)) := by
  rw [h.run]
  exact ⟨_, by rw [Router.execute, List.getLast?_append]; rfl⟩

/-- The breaker admits what it is asked. -/
theorem Accepts.admits (h : Accepts core x.ticket.source x.request made)
    (hadmitted : (R.world.breaker.admitWake made.1.harnessKey (some made.2.streamKey)
      x.now).1.admitted = true) {m : Router} {step : RouterStep}
    (hmet : Met (Router.step core p) R x.steps m step) : m.Admits core step := by
  intro d hd _
  rcases hmet.of_cons with ⟨rfl, rfl⟩ | hmet
  · cases hd
  rcases hmet.of_cons with ⟨rfl, rfl⟩ | hmet
  · obtain rfl : delivered made x.now = d := Option.some.inj (h.delivery.symm.trans hd)
    exact hadmitted
  · exact absurd hmet not_met_nil

/-- **One request more**, far from the next. -/
theorem Accepts.apart (h : Accepts core x.ticket.source x.request made) {n : ℕ} {later : ℚ}
    (hapart : Apart R.world n x.now) (hn : n + 1 < Dedup.gcInterval)
    (hfar : Far R.world x.now later) :
    Apart (R.run core ⟨3⟩ x.steps).world (n + 1) later ∧
      R.world.SameClocks (R.run core ⟨3⟩ x.steps).world ∧
      ∀ m step, Met (Router.step core ⟨3⟩) R x.steps m step → m.Admits core step := by
  obtain ⟨e, hrun⟩ := h.world (p := ⟨3⟩) (R := R)
  have hsame : R.world.SameClocks (R.world.setEvidence e) := ⟨⟨rfl, rfl⟩, rfl⟩
  obtain ⟨hstep, hsame'⟩ := (hapart.evidence e).step (h.quiet x.now) hn (hfar.of_same hsame)
  rw [hrun]
  exact ⟨hstep, hsame.trans hsame', fun m step hmet => h.admits
    (WakeRateBreaker.admitWake_resting hapart.resting.ordered hapart.resting.standing).1 hmet⟩

/-- Readings that are the executes' own are in order. -/
theorem posted_ordered {f : Router → RouterStep → List ℚ}
    (haccept : ∀ m ticket request flushes, f m (.accept ticket request flushes) = [])
    (hexecute : ∀ m ticket now, ∀ t ∈ f m (.execute ticket (.sample now .earliest (.ok ⟨0⟩))),
      t = now) {xs : List Posted} (hxs : xs.Pairwise (·.now ≤ ·.now)) :
    (gathered (Router.step core p) f R (xs.flatMap Posted.steps)).Pairwise (· ≤ ·) := by
  have hnow : ∀ (x : Posted), ∀ step ∈ x.steps, ∀ m, ∀ t ∈ f m step, t = x.now := by
    intro x step hstep m t ht
    rcases List.mem_cons.mp hstep with rfl | hstep
    · rw [haccept] at ht
      cases ht
    · obtain rfl := List.mem_singleton.mp hstep
      exact hexecute m _ _ t ht
  have hself : ∀ x : Posted, ∀ step ∈ x.steps, ∀ step' ∈ x.steps, ∀ m m', ∀ a ∈ f m step,
      ∀ b ∈ f m' step', a ≤ b := by
    intro x step hstep step' hstep' m m' a ha b hb
    rw [hnow x step hstep m a ha, hnow x step' hstep' m' b hb]
  refine gathered_pairwise (fun m step hstep => ?_) (List.pairwise_flatMap.mpr ⟨fun x _ => ?_, ?_⟩)
  · obtain ⟨x, -, hstep⟩ := List.mem_flatMap.mp hstep
    exact List.pairwise_of_forall_mem_list fun a ha b hb =>
      hself x step hstep step hstep m m a ha b hb
  · exact List.pairwise_of_forall_mem_list fun step hstep step' hstep' =>
      hself x step hstep step' hstep'
  · refine hxs.imp fun {x y} hle step hstep step' hstep' m m' a ha b hb => ?_
    rw [hnow x step hstep m a ha, hnow y step' hstep' m' b hb]
    exact hle

theorem filter_posted (xs : List Posted) :
    (xs.flatMap Posted.steps).filter (fun step => step.ticket.real) =
      (xs.filter fun x => x.ticket.real).flatMap Posted.steps := by
  induction xs with
  | nil => rfl
  | cons x xs ih =>
    rw [List.flatMap_cons, List.filter_append, ih]
    cases hreal : x.ticket.real <;>
      simp [Posted.steps, RouterStep.ticket, hreal]

end

/-! ## 8. Messages and probes of nova's -/

theorem required_novaUuid : Required novaUuid := by decide

/-- A daemon that runs the platform's route and the probe's, for nova. -/
def novaConfig : Config where
  enabledRoutes := {"basecradle", "probe"}
  webhookSecrets := (OrderedDict.empty.set "basecradle" "shared").set "probe" "key"
  agents := novaRegistry novaUuid required_novaUuid

/-- The marker of nova's probe. -/
def novaMarker : String := "BCNOC1 own " ++ String.ofList (List.replicate 64 '0')

/-- An interpreter that reads the body of one zero as nova's probe, and another as her message. -/
def novaPy : Runtime := .ascii
  (fun body => .ok (.obj (if body = [0] then
      [("harness_key", .str "nova"),
        ("marker", .str novaMarker)]
    else [("recipient_uuid", .str novaUuid), ("timeline_uuid", .str "t1")])))
  fun _ => none

/-- The route of the platform, with the shared secret alone. -/
def novaRoute : Route Objects := basecradleRoute novaPy (fun _ _ => "digest") ⟨.empty, true⟩

def novaRoutes : RouteRegistry Objects :=
  let first : RouteRegistry Objects :=
    ⟨OrderedDict.empty.set "basecradle" novaRoute, RouteRegistry.empty.named_set novaRoute⟩
  ⟨first.routes.set "probe" (probeRoute novaPy fun _ _ => "digest"),
    first.named_set (probeRoute novaPy fun _ _ => "digest")⟩

theorem built_novaRoutes :
    buildRegistry novaPy (fun _ _ => "digest") id novaConfig .empty = .ok novaRoutes := by
  have hnames : PyStr.sorted novaConfig.enabledRoutes = ["basecradle", "probe"] := by
    refine (Finset.sort_insert _ (fun b hb => ?_) (by decide)).trans
      (congrArg _ (Finset.sort_singleton _ _))
    rw [Finset.mem_singleton.mp hb]
    decide
  refine bind_eq_ok.mpr ⟨.empty, if_neg (by decide), bind_eq_ok.mpr
    ⟨⟨OrderedDict.empty.set "basecradle" novaRoute, RouteRegistry.empty.named_set novaRoute⟩, ?_,
      bind_eq_ok.mpr ⟨novaRoutes, ?_, bind_eq_ok.mpr ⟨(), ?_, rfl⟩⟩⟩⟩
  · unfold registerEnabled
    rw [if_pos (by decide)]
    rfl
  · unfold registerEnabled
    rw [if_pos (by decide)]
    rfl
  · unfold requireRouteSecrets
    rw [hnames]
    rfl

def novaCore : Core Objects := ⟨novaPy, id, novaRoutes, novaConfig⟩

/-- A probe of nova's. -/
def Posted.probe (number : ℕ) (now : ℚ) : Posted where
  ticket := ⟨"probe", number⟩
  request := ⟨[(Probe.signatureHeader, "sha256=digest"), (Probe.deliveryHeader, "p")], [0]⟩
  now := now

/-- The same message of hers each time. -/
def Posted.message (number : ℕ) (now : ℚ) : Posted where
  ticket := ⟨"basecradle", number⟩
  request := ⟨[(Basecradle.signatureHeader, "sha256=digest"),
    (Basecradle.eventHeader, "message.created"), (Basecradle.deliveryHeader, "m")], [1]⟩
  now := now

theorem novaProbed_ok : Required "probe" ∧ Required "harness_key" ∧ Required novaMarker ∧
    Required "p" := by decide

theorem required_basecradle : Required "basecradle" := by decide

theorem required_recipientUuid : Required "recipient_uuid" := by decide

theorem required_t1 : Required "t1" := by decide

theorem required_m : Required "m" := by decide

theorem novaProbed_type : ∀ t ∈ (none : Option String), Required t := by
  intro t ht
  cases ht

theorem novaMessaged_type : ∀ t ∈ some "message.created", Required t := by
  intro t ht
  cases ht
  decide

/-- What is made of a probe of hers. -/
def novaProbed : Event where
  source := "probe"
  kind := .syntheticProbe
  recipient := ⟨"harness_key", "nova", novaProbed_ok.2.1, required_nova⟩
  wakeArg := novaMarker
  deliveryId := "p"
  origin := none
  occurredAt := none
  eventType := none
  source_ok := novaProbed_ok.1
  wakeArg_ok := novaProbed_ok.2.2.1
  deliveryId_ok := novaProbed_ok.2.2.2
  eventType_ok := novaProbed_type

/-- What is made of her message. -/
def novaMessaged : Event where
  source := "basecradle"
  kind := .platformEvent
  recipient := ⟨"recipient_uuid", novaUuid, required_recipientUuid, required_novaUuid⟩
  wakeArg := "t1"
  deliveryId := "m"
  origin := none
  occurredAt := none
  eventType := some "message.created"
  source_ok := required_basecradle
  wakeArg_ok := required_t1
  deliveryId_ok := required_m
  eventType_ok := novaMessaged_type

theorem accepts_probe (number : ℕ) (now : ℚ) :
    Accepts novaCore (Posted.probe number now).ticket.source (Posted.probe number now).request
      (novaAgent novaUuid required_novaUuid, novaProbed) :=
  ⟨fun _ => rfl, fun _ => rfl, rfl, fun _ => rfl⟩

theorem accepts_message (number : ℕ) (now : ℚ) :
    Accepts novaCore (Posted.message number now).ticket.source (Posted.message number now).request
      (novaAgent novaUuid required_novaUuid, novaMessaged) :=
  ⟨fun _ => rfl, fun _ => rfl, rfl, fun _ => rfl⟩

theorem dedupReadings_sampled {core : Core Objects} {p : Pipeline} (m : Router) (ticket : Ticket)
    (now : ℚ) : ∀ t ∈ m.dedupReadings core p (.execute ticket (.sample now .earliest (.ok ⟨0⟩))),
      t = now := by
  intro t ht
  unfold Router.dedupReadings at ht
  cases hd : m.executed core (.execute ticket (.sample now .earliest (.ok ⟨0⟩))) with
  | none =>
    rw [hd] at ht
    cases ht
  | some d =>
    rw [hd] at ht
    obtain ⟨made, -, rfl⟩ := Option.map_eq_some_iff.mp hd
    rcases List.mem_cons.mp ht with rfl | ht
    · rfl
    · exact List.mem_singleton.mp (List.mem_ite_nil_right.mp ht).2

theorem breakerReadings_sampled {core : Core Objects} (m : Router) (ticket : Ticket) (now : ℚ) :
    ∀ t ∈ m.breakerReadings core (.execute ticket (.sample now .earliest (.ok ⟨0⟩))), t = now := by
  intro t ht
  unfold Router.breakerReadings at ht
  cases hd : m.executed core (.execute ticket (.sample now .earliest (.ok ⟨0⟩))) with
  | none =>
    rw [hd] at ht
    cases ht
  | some d =>
    rw [hd] at ht
    obtain ⟨made, -, rfl⟩ := Option.map_eq_some_iff.mp hd
    exact List.mem_singleton.mp (List.mem_ite_nil_right.mp ht).2

theorem defaultTtl_ok : (PyFloat.fin 600).lt (.fin 0) = false := by
  simp [PyFloat.lt]

/-- A router that has just started, in the arithmetic of doubles. -/
def Router.rounded : Router :=
  .start ⟨⟨.empty, .empty, []⟩, []⟩ .new (.fin roundedTtl) 2 binary64Config roundedTtl_ok
    twoSlots_ok

/-- A probe every thousand seconds. -/
def probing (n : ℕ) : List Posted := (List.range n).map fun i : ℕ => .probe i (1000 * i)

theorem probing_apart (n : ℕ) (hn : n ≤ 1022) :
    let R := Router.rounded.run novaCore ⟨3⟩ ((probing n).flatMap Posted.steps)
    Apart R.world n (1000 * n) ∧ World.rounded.SameClocks R.world ∧
      ∀ m step, Met (Router.step novaCore ⟨3⟩) .rounded ((probing n).flatMap Posted.steps) m step →
        m.Admits novaCore step := by
  induction n with
  | zero =>
    exact ⟨⟨⟨WakeRateBreaker.new_ordered _ _, rfl⟩, by decide +kernel, rfl, nofun⟩,
      ⟨⟨rfl, rfl⟩, rfl⟩, fun m step hmet => absurd hmet not_met_nil⟩
  | succ n ih =>
    obtain ⟨hapart, hsame, hadmits⟩ := ih (by omega)
    have hprobing : (probing (n + 1)).flatMap Posted.steps =
        (probing n).flatMap Posted.steps ++ (Posted.probe n (1000 * n)).steps := by
      simp [probing, List.range_succ]
    rw [hprobing, Router.run, after_append]
    obtain ⟨hapart', hsame', hadmits'⟩ := (accepts_probe n (1000 * n)).apart hapart
      (Nat.lt_of_le_of_lt hn (by decide)) ((thousands_far n (by omega)).of_same hsame)
    exact ⟨hapart', hsame.trans hsame', fun m step hmet =>
      hmet.of_append.elim (hadmits m step) (hadmits' m step)⟩

/-- After the probes nova has a message, a probe whose mark completes the interval, and the message
again. -/
def interposed : List Posted :=
  [.message 0 (1000 * 1022), .probe 1022 roundedDuplicate, .message 1 roundedDuplicate]

/-- A last report of real traffic is the last at both. -/
theorem Undisturbed.last {R R' : Router} {ticket : Ticket} {terminal : Option (Stage × Outcome)}
    (h : Undisturbed R R') (hlast : R.reports.getLast?.map
      (fun report => (report.ticket, report.terminal)) = some (ticket, terminal))
    (hreal : ticket.real = true) :
    R'.reports.getLast?.map (fun report => (report.ticket, report.terminal)) =
      some (ticket, terminal) := by
  obtain ⟨report, hget, heq⟩ := Option.map_eq_some_iff.mp hlast
  obtain ⟨earlier, hreports⟩ := List.getLast?_eq_some_iff.mp hget
  obtain ⟨rfl, rfl⟩ := Prod.mk.inj heq
  have hfilter : R.reports.filter (fun report => report.ticket.real) =
      earlier.filter (fun report => report.ticket.real) ++ [report] := by
    rw [hreports, List.filter_append, List.filter_singleton, hreal]
    rfl
  rw [← List.getLast?_map, ← h.outcomes, hfilter, List.map_append, List.map_singleton,
    List.getLast?_concat]

theorem interposed_ordered (n : ℕ) (hn : n ≤ 1022) :
    (probing n ++ interposed).Pairwise (·.now ≤ ·.now) := by
  have hlast : (1000 * 1022 : ℚ) ≤ roundedDuplicate := by decide +kernel
  refine List.pairwise_append.mpr ⟨?_, ?_, fun x hx y hy => ?_⟩
  · refine List.pairwise_map.mpr (List.pairwise_lt_range.imp fun {i j} hij => ?_)
    have hij' : (i : ℚ) ≤ j := by exact_mod_cast hij.le
    show (1000 * i : ℚ) ≤ 1000 * j
    linarith
  · simpa [interposed, Posted.message, Posted.probe] using hlast
  · obtain ⟨i, hi, rfl⟩ := List.mem_map.mp hx
    have hi' : (i : ℚ) ≤ 1022 := by exact_mod_cast (List.mem_range.mp hi).le.trans hn
    have hfirst : (1000 * i : ℚ) ≤ 1000 * 1022 := by linarith
    refine hfirst.trans ?_
    simp only [interposed, List.mem_cons, List.not_mem_nil, or_false] at hy
    obtain rfl | rfl | rfl := hy
    exacts [le_of_eq rfl, hlast, hlast]

/-- With its probe the message is woken again. -/
theorem interposed_woken {R : Router} (h : Apart R.world 1022 (1000 * 1022))
    (hsame : World.rounded.SameClocks R.world) :
    (∀ m step, Met (Router.step novaCore ⟨3⟩) R (interposed.flatMap Posted.steps) m step →
        m.Admits novaCore step) ∧
      ∃ terminal, (R.run novaCore ⟨3⟩ (interposed.flatMap Posted.steps)).reports.getLast?.map
        (fun report => (report.ticket, report.terminal)) = some (⟨"basecradle", 1⟩, terminal) ∧
          terminal ≠ some (.dedup, .ignored) := by
  have hmessage := accepts_message 0 (1000 * 1022)
  have hprobe := accepts_probe 1022 roundedDuplicate
  have hagain := accepts_message 1 roundedDuplicate
  obtain ⟨e₀, hfirst⟩ := hmessage.world (p := ⟨3⟩) (R := R)
  set R₁ := R.run novaCore ⟨3⟩ (Posted.message 0 (1000 * 1022)).steps
  obtain ⟨e₁, hsecond⟩ := hprobe.world (p := ⟨3⟩) (R := R₁)
  set R₂ := R₁.run novaCore ⟨3⟩ (Posted.probe 1022 roundedDuplicate).steps
  obtain ⟨e₂, hends⟩ := hagain.terminal (p := ⟨3⟩) (R := R₂)
  have hsame₀ : World.rounded.SameClocks (R.world.setEvidence e₀) := hsame.trans ⟨⟨rfl, rfl⟩, rfl⟩
  obtain ⟨-, hclocks, hresting, hbreaker, hseen⟩ := (h.evidence e₀).swept (by decide)
    (hmessage.quiet (1000 * 1022)) (hprobe.quiet roundedDuplicate) (by decide) (by decide +kernel)
    (by rw [hsame₀.breaker]; decide +kernel)
    (by rw [DeliveryDeduper.stale, hsame₀.deduper.ttl, hsame₀.deduper.rounding]; decide +kernel) e₁
  have hconfig := (hsame₀.trans hclocks).breaker
  change R₁.world = World.step _ _ (delivered _ (1000 * 1022)) at hfirst
  change R₂.world = World.step _ _ (delivered _ roundedDuplicate) at hsecond
  rw [← hfirst] at hconfig hresting hbreaker hseen
  rw [← hsecond] at hbreaker hseen
  have hsteps : interposed.flatMap Posted.steps = (Posted.message 0 (1000 * 1022)).steps ++
      ((Posted.probe 1022 roundedDuplicate).steps ++
        (Posted.message 1 roundedDuplicate).steps) := by
    simp [interposed]
  rw [hsteps]
  constructor
  · intro m step hmet
    rcases hmet.of_append with hmet | hmet
    · exact hmessage.admits
        (WakeRateBreaker.admitWake_resting h.resting.ordered h.resting.standing).1 hmet
    rcases hmet.of_append with hmet | hmet
    · exact hprobe.admits
        (WakeRateBreaker.admitWake_resting hresting.ordered hresting.standing).1 hmet
    · refine hagain.admits ?_ hmet
      show (R₂.world.breaker.admitWake _ _ roundedDuplicate).1.admitted = true
      rw [hbreaker, WakeRateBreaker.admitWake_twice hresting.ordered hresting.standing, hconfig]
      decide +kernel
  · have hrun : R.run novaCore ⟨3⟩ ((Posted.message 0 (1000 * 1022)).steps ++
        ((Posted.probe 1022 roundedDuplicate).steps ++ (Posted.message 1 roundedDuplicate).steps)) =
        R₂.run novaCore ⟨3⟩ (Posted.message 1 roundedDuplicate).steps := by
      rw [Router.run, after_append, after_append]
      rfl
    refine ⟨_, (by rw [hrun]; exact hends), ?_⟩
    rw [ends_eq, Ne, Option.some.injEq, World.exit, terminal_dedup_iff rfl, duplicate]
    exact Bool.eq_false_iff.mp hseen

/-- Without it the message is collapsed. -/
theorem messages_deduped :
    (Router.rounded.run novaCore ⟨3⟩ ([Posted.message 0 (1000 * 1022),
      .message 1 roundedDuplicate].flatMap Posted.steps)).reports.getLast?.map
        (fun report => (report.ticket, report.terminal)) =
          some (⟨"basecradle", 1⟩, some (.dedup, .ignored)) := by
  have hmessage := accepts_message 0 (1000 * 1022)
  have hagain := accepts_message 1 roundedDuplicate
  obtain ⟨e₀, hfirst⟩ := hmessage.world (p := ⟨3⟩) (R := .rounded)
  set R₁ := Router.rounded.run novaCore ⟨3⟩ (Posted.message 0 (1000 * 1022)).steps
  obtain ⟨e₁, hends⟩ := hagain.terminal (p := ⟨3⟩) (R := R₁)
  have hstart : Apart Router.rounded.world 0 (1000 * 1022) :=
    ⟨⟨WakeRateBreaker.new_ordered _ _, rfl⟩, by decide +kernel, rfl, nofun⟩
  obtain ⟨hunseen, -⟩ := unseen_of_expired hstart.on (hstart.expired novaMessaged.dedupKey)
  obtain ⟨-, -, hdeduper, -, -⟩ := (hstart.evidence e₀).resting.woken
    (hmessage.quiet (1000 * 1022)) hunseen
  change R₁.world = World.step _ _ (delivered _ (1000 * 1022)) at hfirst
  rw [← hfirst] at hdeduper
  have hrun : Router.rounded.run novaCore ⟨3⟩ ([Posted.message 0 (1000 * 1022),
      .message 1 roundedDuplicate].flatMap Posted.steps) =
      R₁.run novaCore ⟨3⟩ (Posted.message 1 roundedDuplicate).steps := by
    rw [List.flatMap_cons, List.flatMap_cons, List.flatMap_nil, List.append_nil, Router.run,
      after_append]
    rfl
  rw [hrun, hends, ends_eq, Option.some.injEq, Prod.mk.injEq, Option.some.injEq, World.exit]
  refine ⟨rfl, (terminal_dedup_iff rfl).mpr ?_⟩
  rw [duplicate]
  show (R₁.world.deduper.seen _ _).1 = true
  rw [hdeduper]
  show ((Router.rounded.world.deduper.seen _ _).2.mark _ _ |>.seen _ _).1 = true
  decide +kernel

/-- **A probe decides about a message, in doubles.**  The clocks run forward and the breaker admits
every call, and with the probes nova is woken for a message that is collapsed without them. -/
theorem not_undisturbed_in_doubles :
    let steps := (probing 1022 ++ interposed).flatMap Posted.steps
    buildRegistry novaPy (fun _ _ => "digest") id novaConfig .empty = .ok novaRoutes ∧
    (gathered (Router.step novaCore ⟨3⟩) (Router.dedupReadings novaCore ⟨3⟩) .rounded
      steps).Pairwise (· ≤ ·) ∧
    (gathered (Router.step novaCore ⟨3⟩) (Router.breakerReadings novaCore) .rounded steps).Pairwise
      (· ≤ ·) ∧
    (∀ m step, Met (Router.step novaCore ⟨3⟩) .rounded steps m step → m.Admits novaCore step) ∧
    ¬ Undisturbed (Router.rounded.run novaCore ⟨3⟩ steps)
      (Router.rounded.run novaCore ⟨3⟩ (steps.filter fun step => step.ticket.real)) := by
  obtain ⟨hapart, hsame, hadmits⟩ := probing_apart 1022 le_rfl
  rw [Nat.cast_ofNat] at hapart
  obtain ⟨hadmits', terminal, hlabelled, hends⟩ := interposed_woken hapart hsame
  have hordered := interposed_ordered 1022 le_rfl
  dsimp only
  refine ⟨built_novaRoutes, posted_ordered (fun _ _ _ _ => rfl) dedupReadings_sampled hordered,
    posted_ordered (fun _ _ _ _ => rfl) breakerReadings_sampled hordered, ?_, fun h => ?_⟩
  · rw [List.flatMap_append]
    exact fun m step hmet => hmet.of_append.elim (hadmits m step) (hadmits' m step)
  · have hreal : (probing 1022 ++ interposed).filter (fun x => x.ticket.real) =
        [.message 0 (1000 * 1022), .message 1 roundedDuplicate] := by
      rw [List.filter_append, List.filter_eq_nil_iff.mpr fun x hx => ?_, List.nil_append]
      · rfl
      · obtain ⟨i, -, rfl⟩ := List.mem_map.mp hx
        exact Bool.false_ne_true
    rw [filter_posted, hreal, List.flatMap_append, Router.run, after_append] at h
    have hlast := h.last hlabelled rfl
    rw [messages_deduped] at hlast
    exact hends (Prod.ext_iff.mp (Option.some.inj hlast)).2.symm

/-- A router that has just started, whose clock's readings are never rounded. -/
def Router.exact : Router :=
  .start ⟨⟨.empty, .empty, []⟩, []⟩ .new (.fin 600) 2 .default defaultTtl_ok twoSlots_ok

/-- A probe of nova's, and a thousand seconds later her message. -/
def probeFirst : List RouterStep := (Posted.probe 0 0).steps ++ (Posted.message 0 1000).steps

theorem probes_undisturbing_nova :
    Undisturbed (Router.exact.run novaCore ⟨3⟩ probeFirst)
      (Router.exact.run novaCore ⟨3⟩ (probeFirst.filter fun step => step.ticket.real)) := by
  have hposted : probeFirst = [Posted.probe 0 0, .message 0 1000].flatMap Posted.steps := by
    simp [probeFirst]
  have hordered : [Posted.probe 0 0, .message 0 1000].Pairwise (·.now ≤ ·.now) := by
    simp [Posted.probe, Posted.message]
  have hstart : Apart Router.exact.world 0 0 :=
    ⟨⟨WakeRateBreaker.new_ordered _ _, rfl⟩, by decide +kernel, rfl, nofun⟩
  have hfar : Far Router.exact.world 0 1000 :=
    ⟨by decide +kernel, by decide +kernel, by decide +kernel⟩
  obtain ⟨hapart, -, hprobe⟩ := (accepts_probe 0 0).apart hstart (by decide) hfar
  refine probes_undisturbing novaPy (fun _ _ => "digest") id novaConfig .empty novaRoutes
    built_novaRoutes ⟨3⟩ _ _ _ _ _ _ _ novaCore rfl .exact rfl probeFirst ?_ ?_
    (fun m step hmet => ?_) (fun _ _ hmet => spares_exact rfl hmet)
    fun _ _ hmet => spares_exact rfl hmet
  · rw [hposted]
    exact posted_ordered (fun _ _ _ _ => rfl) dedupReadings_sampled hordered
  · rw [hposted]
    exact posted_ordered (fun _ _ _ _ => rfl) breakerReadings_sampled hordered
  · rcases hmet.of_append with hmet | hmet
    · exact hprobe m step hmet
    · exact (accepts_message 0 1000).admits
        (WakeRateBreaker.admitWake_resting hapart.resting.ordered hapart.resting.standing).1 hmet

end BasecradleRouter.Pipeline
