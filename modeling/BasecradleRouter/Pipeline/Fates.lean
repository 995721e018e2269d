/-
# What becomes of a request

`Fate` lists the ways a request can go through `accept`: how its signature was told, what its route
made of it and whether its recipient is an agent; with what there is to wake for, and the stages it
goes through.  Every accept meets exactly one of them (`accept_fate`), so what its status says can
be read back: `answered_unknown`, `answered_unsigned`, `answered_malformed` and `left_eq_some` tell
exactly which requests are answered so.
-/
import BasecradleRouter.Pipeline.Accept

namespace BasecradleRouter.Pipeline

open BasecradleRouter.Lib BasecradleRouter.Logfmt BasecradleRouter.Models BasecradleRouter.Routes
open BasecradleRouter.Evidence

variable {σ : Type}

/-! ## 1. Fates -/

namespace Core

variable (core : Core σ)

/-- `verify`, on what the routes hold. -/
def checked (route : Route σ) (source : String) (request : InboundRequest) : Py σ Refusal Unit := do
  let secret ← Py.ofExcept (core.routeSecret route source)
  route.verify request secret

/-- The exceptions of `verify` that `accept` has a record for. -/
def Foretold (exc : Refusal) : Prop := (∃ text, exc = .signature text) ∨ ∃ text, exc = .config text

/-- The exceptions of `normalize` that `accept` has a record for. -/
def Declared (exc : Refusal) : Prop :=
  (∃ text, exc = .payload text) ∨ ∃ text, exc = .untrusted text

/-- The source has a route, and this is what its signature check comes to. -/
structure Told (source : String) (request : InboundRequest) (object : σ) (route : Route σ)
    (answer : Except Refusal Unit) (object' : σ) : Prop where
  found : core.registry.routes.get source = some route
  checked : (core.checked route source request).run object = (answer, object')

/-- The signature held and was recorded, and this is what the route makes of the request. -/
structure Made (source : String) (request : InboundRequest) (f : Flushes) (object : σ)
    (route : Route σ) (made : Except Refusal (Option Event)) : Prop where
  told : ∃ object', core.Told source request object route (.ok ()) object' ∧
    ((route.normalize request).run object').1 = made
  flushed : f.verified.raised = none

end Core

open BasecradleRouter.Pipeline.Core

/-- A verified request's stages, up to what its route makes of it. -/
def verifiedStages : List (Stage × Outcome) := [(.route, .ok), (.verify, .ok)]

/-- The ways of a request, by what is left pending and the stages it goes through. -/
inductive Fate (core : Core σ) (source : String) (request : InboundRequest) (f : Flushes)
    (object : σ) : Option (Agent × Event) → List (Stage × Outcome) → Prop
  | unknown : core.registry.routes.get source = none →
      Fate core source request f object none [(.route, .rejected)]
  | unsigned {route text object'} :
      core.Told source request object route (.error (.signature text)) object' →
      f.verified.raised = none →
      Fate core source request f object none [(.route, .ok), (.verify, .rejected)]
  | unarmed {route text object'} :
      core.Told source request object route (.error (.config text)) object' →
      f.verified.raised = none →
      Fate core source request f object none [(.route, .ok), (.verify, .failed)]
  | untold {route exc object'} : core.Told source request object route (.error exc) object' →
      ¬ Foretold exc → Fate core source request f object none [(.route, .ok), (.route, .failed)]
  | unflushed {route answer object'} : core.Told source request object route answer object' →
      (∀ exc, answer = .error exc → Foretold exc) → f.verified.raised ≠ none →
      Fate core source request f object none [(.route, .ok), (.route, .failed)]
  | malformed {route exc} : core.Made source request f object route (.error exc) →
      Declared exc →
      Fate core source request f object none (verifiedStages ++ [(.normalize, .rejected)])
  | broken {route exc} : core.Made source request f object route (.error exc) →
      ¬ Declared exc →
      Fate core source request f object none (verifiedStages ++ [(.route, .failed)])
  | undecided {route made} : core.Made source request f object route (.ok made) →
      f.decided.raised ≠ none →
      Fate core source request f object none (verifiedStages ++ [(.route, .failed)])
  | ignored {route} : core.Made source request f object route (.ok none) →
      f.decided.raised = none →
      Fate core source request f object none (verifiedStages ++ [(.normalize, .ignored)])
  | unresolved {route event text} : core.Made source request f object route (.ok (some event)) →
      f.decided.raised = none →
      core.config.agents.agentForRecipient core.py event.recipient = .error text →
      Fate core source request f object none
        (verifiedStages ++ [(.normalize, .ok), (.resolve, .failed)])
  | woke {route event agent} : core.Made source request f object route (.ok (some event)) →
      f.decided.raised = none →
      core.config.agents.agentForRecipient core.py event.recipient = .ok agent →
      Fate core source request f object (some (agent, event))
        (verifiedStages ++ [(.normalize, .ok), (.resolve, .ok)])

/-! ## 2. Every accept meets one -/

/-- What an accept came to: what is pending, and the stages it went through. -/
structure Came (ran : Except Refusal (Option (Agent × Event)) × Intake σ)
    (pending : Option (Agent × Event)) (stages : List (Stage × Outcome)) : Prop where
  pending : ran.1 = .ok pending
  stages : ran.2.result.stages = stages

section

variable {core : Core σ} {source : String} {request : InboundRequest} {f : Flushes} {object : σ}

theorem stages_record (s : Intake σ) (stage : Stage) (outcome : Outcome)
    (fields : List (String × Value)) :
    ((Intake.record stage outcome fields).run s).2.result.stages =
      s.result.stages ++ [(stage, outcome)] := by
  simp [Intake.record, PipelineResult.stages, StageRecord.render]

/-- `verify`, as it runs within an accept. -/
theorem run_verify (route : Route σ) (s : Intake σ) :
    (core.verify route source request).run s =
      (((core.checked route source request).run s.object).1,
        { s with object := ((core.checked route source request).run s.object).2 }) := by
  unfold Core.verify Core.checked
  rw [Py.run_bind, Py.run_bind, Py.run_ofExcept, Py.run_ofExcept]
  cases core.routeSecret route source with
  | error exc => rfl
  | ok secret => rfl

/-- A call to the evidence returns where its flush does. -/
theorem run_recordEvidence (operation : Operation) (f : Flush) (s : Intake σ) :
    (Intake.recordEvidence operation f).run s =
      (f.raised.elim (.ok ()) fun exc => .error (.other exc.text),
        { s with calls := s.calls ++ [⟨operation, f.now, f.stamp⟩] }) := rfl

/-- The stages of some records. -/
def stagesOf (records : List StageRecord) : List (Stage × Outcome) :=
  records.map fun rec => (rec.stage, rec.outcome)

/-- One more record after a request's stages. -/
theorem came_record {ran : Except Refusal (Option (Agent × Event)) × Intake σ}
    {pending : Option (Agent × Event)} {records : List StageRecord}
    {stages : List (Stage × Outcome)} {stage : Stage} {outcome : Outcome}
    {fields : List (String × Value)} (hpending : ran.1 = .ok pending)
    (hstages : stagesOf records = stages)
    (hran : ran.2.result.records = records ++ [.render stage outcome fields]) :
    Came ran pending (stages ++ [(stage, outcome)]) := by
  refine ⟨hpending, ?_⟩
  unfold PipelineResult.stages
  rw [hran, List.map_append, ← hstages]
  rfl

/-- What follows a verified signature: the route makes an event of the request, and the event's
recipient is resolved. -/
theorem read_fate {route : Route σ} {object' : σ}
    (htold : core.Told source request object route (.ok ()) object')
    (hflush : f.verified.raised = none) {s : Intake σ} (hs : s.object = object')
    (hstages : s.result.stages = verifiedStages) :
    ∃ pending stages,
      Came (((core.read source route request f.decided).handle fun exc => do
        Intake.record .route .failed [("source", .str source),
          ("error", .str ("unexpected: " ++ exc.text))]
        return none).run s) pending stages ∧
      Fate core source request f object pending stages := by
  have hmade : core.Made source request f object route ((route.normalize request).run object').1 :=
    ⟨⟨object', htold, rfl⟩, hflush⟩
  rw [Py.run_handle]
  unfold Core.read Intake.route
  rw [Py.run_bind, Py.run_catching, Py.run_within, hs]
  rcases hread : (route.normalize request).run object' with ⟨exc | made, object''⟩ <;>
    rw [hread] at hmade
  · cases exc with
    | payload text =>
      exact ⟨_, _, came_record rfl hstages rfl, .malformed hmade (Or.inl ⟨text, rfl⟩)⟩
    | untrusted text =>
      exact ⟨_, _, came_record rfl hstages rfl, .malformed hmade (Or.inr ⟨text, rfl⟩)⟩
    | signature text =>
      exact ⟨_, _, came_record rfl hstages rfl, .broken hmade (by simp [Declared])⟩
    | config text =>
      exact ⟨_, _, came_record rfl hstages rfl, .broken hmade (by simp [Declared])⟩
    | other text =>
      exact ⟨_, _, came_record rfl hstages rfl, .broken hmade (by simp [Declared])⟩
  · cases hdecided : f.decided.raised with
    | some exc =>
      refine ⟨none, _, ?_, .undecided hmade (by simp [hdecided])⟩
      cases made with
      | none =>
        simp only [Py.run_bind, run_recordEvidence, hdecided]
        exact came_record rfl hstages rfl
      | some event =>
        simp only [Py.run_bind, run_recordEvidence, hdecided]
        exact came_record rfl hstages rfl
    | none =>
      cases made with
      | none =>
        refine ⟨none, _, ?_, .ignored hmade hdecided⟩
        simp only [Py.run_bind, run_recordEvidence, hdecided]
        exact came_record rfl hstages rfl
      | some event =>
        simp only [Py.run_bind, run_recordEvidence, hdecided]
        unfold Core.resolve
        have hnormalized : ∀ fields : List (String × Value),
            stagesOf (s.result.records ++ [.render .normalize .ok fields]) =
              verifiedStages ++ [(.normalize, .ok)] := by
          intro fields
          rw [stagesOf, List.map_append]
          exact congrArg (· ++ _) hstages
        cases hagent : core.config.agents.agentForRecipient core.py event.recipient with
        | error text =>
          exact ⟨_, _, came_record rfl (hnormalized _) rfl,
            .unresolved hmade hdecided hagent⟩
        | ok agent =>
          exact ⟨_, _, came_record rfl (hnormalized _) rfl,
            .woke hmade hdecided hagent⟩

variable (core source request f object) in
/-- **Every accept meets one of its fates.** -/
theorem accept_fate : ∃ pending stages,
    Came ((core.accept source request f).run (.enter object)) pending stages ∧
      Fate core source request f object pending stages := by
  unfold Core.accept Core.acceptBody
  cases hroute : core.registry.get core.py source with
  | error text =>
    have hnone : core.registry.routes.get source = none := by
      cases hget : core.registry.routes.get source with
      | none => rfl
      | some route => rw [RouteRegistry.get_ok.mpr hget] at hroute; cases hroute
    exact ⟨_, _, ⟨rfl, stages_record _ _ _ _⟩, .unknown hnone⟩
  | ok route =>
    rcases hchecked : (core.checked route source request).run object with ⟨answer, object'⟩
    have htold : core.Told source request object route answer object' :=
      ⟨RouteRegistry.get_ok.mp hroute, hchecked⟩
    have hobject : ((Intake.record .route .ok [("source", .str source)]).run
        (Intake.enter object)).2.object = object := rfl
    have hstages : ((Intake.record .route .ok [("source", .str source)]).run
        (Intake.enter object)).2.result.stages = [(.route, .ok)] := stages_record _ _ _ _
    dsimp only
    generalize hs : (Intake.record .route .ok [("source", .str source)]).run
      (Intake.enter object) = entered at hobject hstages
    rcases entered with ⟨entered, s⟩
    obtain rfl : entered = .ok () := (congrArg Prod.fst hs).symm
    rw [Py.run_handle, Py.run_bind, hs]
    dsimp only at hobject hstages ⊢
    rw [Py.run_bind, Py.run_catching, run_verify, hobject, hchecked]
    rcases answer with exc | ⟨⟩
    · cases exc with
      | signature text =>
        cases hflush : f.verified.raised with
        | some exc =>
          refine ⟨none, _, ?_, .unflushed htold ?_ (by simp [hflush])⟩
          · simp only [Py.run_bind, run_recordEvidence, hflush]
            exact came_record rfl hstages rfl
          · rintro _ ⟨⟩
            exact Or.inl ⟨text, rfl⟩
        | none =>
          refine ⟨none, _, ?_, .unsigned htold hflush⟩
          simp only [Py.run_bind, run_recordEvidence, hflush]
          exact came_record rfl hstages rfl
      | config text =>
        cases hflush : f.verified.raised with
        | some exc =>
          refine ⟨none, _, ?_, .unflushed htold ?_ (by simp [hflush])⟩
          · simp only [Py.run_bind, run_recordEvidence, hflush]
            exact came_record rfl hstages rfl
          · rintro _ ⟨⟩
            exact Or.inr ⟨text, rfl⟩
        | none =>
          refine ⟨none, _, ?_, .unarmed htold hflush⟩
          simp only [Py.run_bind, run_recordEvidence, hflush]
          exact came_record rfl hstages rfl
      | payload text =>
        exact ⟨_, _, came_record rfl hstages rfl, .untold htold (by simp [Foretold])⟩
      | untrusted text =>
        exact ⟨_, _, came_record rfl hstages rfl, .untold htold (by simp [Foretold])⟩
      | other text =>
        exact ⟨_, _, came_record rfl hstages rfl, .untold htold (by simp [Foretold])⟩
    · cases hflush : f.verified.raised with
      | some exc =>
        refine ⟨none, _, ?_, .unflushed htold nofun (by simp [hflush])⟩
        simp only [Py.run_bind, run_recordEvidence, hflush]
        exact came_record rfl hstages rfl
      | none =>
        dsimp only
        rw [Py.run_bind, run_recordEvidence, hflush]
        refine read_fate htold hflush rfl ?_
        exact (stages_record _ _ _ _).trans (congrArg (· ++ [(Stage.verify, Outcome.ok)]) hstages)

end

/-! ## 3. What a status says -/

section

variable {core : Core σ} {source : String} {request : InboundRequest} {f : Flushes} {object : σ}

theorem Core.Told.inj {route route' : Route σ} {answer answer' : Except Refusal Unit}
    {object₁ object₂ : σ} (h : core.Told source request object route answer object₁)
    (h' : core.Told source request object route' answer' object₂) :
    route = route' ∧ answer = answer' ∧ object₁ = object₂ := by
  obtain rfl := Option.some.inj (h.found.symm.trans h'.found)
  exact ⟨rfl, Prod.mk.inj (h.checked.symm.trans h'.checked)⟩

theorem Core.Made.inj {route route' : Route σ} {made made' : Except Refusal (Option Event)}
    (h : core.Made source request f object route made)
    (h' : core.Made source request f object route' made') : route = route' ∧ made = made' := by
  obtain ⟨object₁, htold, rfl⟩ := h.told
  obtain ⟨object₂, htold', rfl⟩ := h'.told
  obtain ⟨rfl, -, rfl⟩ := htold.inj htold'
  exact ⟨rfl, rfl⟩

/-- A signature that held has not failed. -/
theorem Core.Made.not_told {route route' : Route σ} {made : Except Refusal (Option Event)}
    {exc : Refusal} {object' : σ} (h : core.Made source request f object route made) :
    ¬ core.Told source request object route' (.error exc) object' := by
  intro htold'
  obtain ⟨object₁, htold, -⟩ := h.told
  exact nomatch (htold.inj htold').2.1

/-- The status of what is pending and of the last of the stages. -/
def statusOf (pending : Option (Agent × Event)) (stages : List (Stage × Outcome)) : ℕ :=
  match pending, stages.getLast? with
  | some _, _ => 202
  | none, none => 500
  | none, some (.verify, .rejected) => 401
  | none, some (.route, .rejected) => 404
  | none, some (_, .rejected) => 400
  | none, some _ => 200

theorem Came.answer {ran : Except Refusal (Option (Agent × Event)) × Intake σ}
    {pending : Option (Agent × Event)} {stages : List (Stage × Outcome)}
    (h : Came ran pending stages) :
    answer ran.1.toOption.join ran.2.result = statusOf pending stages := by
  have hlast : stages.getLast? =
      ran.2.result.records.getLast?.map fun rec => (rec.stage, rec.outcome) := by
    rw [← h.stages]
    exact List.getLast?_map
  rw [h.pending]
  cases pending with
  | some wake => rfl
  | none =>
    unfold Pipeline.answer statusFor statusOf
    rw [hlast]
    cases ran.2.result.records.getLast? with
    | none => rfl
    | some last =>
      obtain ⟨stage, outcome, detail⟩ := last
      cases outcome <;> cases stage <;> rfl

variable (core source request f object) in
/-- The status that a request to a source is answered with. -/
def answered : ℕ :=
  let ran := (core.accept source request f).run (.enter object)
  answer ran.1.toOption.join ran.2.result

variable (core source request f object) in
/-- What an accept leaves pending. -/
def left : Option (Agent × Event) :=
  ((core.accept source request f).run (.enter object)).1.toOption.join

variable (core source request f object) in
/-- The stages that an accept goes through. -/
def went : List (Stage × Outcome) :=
  ((core.accept source request f).run (.enter object)).2.result.stages

variable (core source request f object) in
theorem answered_fate : ∃ pending stages, left core source request f object = pending ∧
    went core source request f object = stages ∧
    Fate core source request f object pending stages ∧
      answered core source request f object = statusOf pending stages := by
  obtain ⟨pending, stages, hcame, hfate⟩ := accept_fate core source request f object
  refine ⟨pending, stages, ?_, hcame.stages, hfate, hcame.answer⟩
  unfold left
  rw [hcame.pending]
  rfl

/-- A source without a route is answered with 404, and no other. -/
theorem answered_unknown :
    answered core source request f object = 404 ↔ core.registry.routes.get source = none := by
  obtain ⟨pending, stages, hleft, -, hfate, hanswered⟩ :=
    answered_fate core source request f object
  rw [hanswered]
  constructor
  · intro h
    cases hfate with
    | unknown hnone => exact hnone
    | _ => cases h
  · intro hnone
    have hfound : ∀ route, core.registry.routes.get source ≠ some route := by simp [hnone]
    cases hfate with
    | unknown => rfl
    | unsigned htold => exact absurd htold.found (hfound _)
    | unarmed htold => exact absurd htold.found (hfound _)
    | untold htold => exact absurd htold.found (hfound _)
    | unflushed htold => exact absurd htold.found (hfound _)
    | malformed hmade => exact absurd hmade.told.choose_spec.1.found (hfound _)
    | broken hmade => exact absurd hmade.told.choose_spec.1.found (hfound _)
    | undecided hmade => exact absurd hmade.told.choose_spec.1.found (hfound _)
    | ignored hmade => exact absurd hmade.told.choose_spec.1.found (hfound _)
    | unresolved hmade => exact absurd hmade.told.choose_spec.1.found (hfound _)
    | woke hmade => exact absurd hmade.told.choose_spec.1.found (hfound _)

/-- A signature that does not hold is answered with 401, once that is recorded, and nothing else
is. -/
theorem answered_unsigned : answered core source request f object = 401 ↔
    ∃ route text object', core.Told source request object route (.error (.signature text)) object' ∧
      f.verified.raised = none := by
  obtain ⟨pending, stages, hleft, -, hfate, hanswered⟩ :=
    answered_fate core source request f object
  rw [hanswered]
  constructor
  · intro h
    cases hfate with
    | unsigned htold hflush => exact ⟨_, _, _, htold, hflush⟩
    | _ => cases h
  · rintro ⟨route, text, object', htold, hflush⟩
    cases hfate with
    | unsigned => rfl
    | unknown hnone => rw [htold.found] at hnone; cases hnone
    | unarmed htold' => exact nomatch (htold.inj htold').2.1
    | untold htold' hnot =>
      obtain ⟨-, heq, -⟩ := htold.inj htold'
      cases heq
      exact absurd (Or.inl ⟨text, rfl⟩) hnot
    | unflushed _ _ hraised => exact absurd hflush hraised
    | malformed hmade => exact absurd htold hmade.not_told
    | broken hmade => exact absurd htold hmade.not_told
    | undecided hmade => exact absurd htold hmade.not_told
    | ignored hmade => exact absurd htold hmade.not_told
    | unresolved hmade => exact absurd htold hmade.not_told
    | woke hmade => exact absurd htold hmade.not_told

/-- What a verified request's fate can be, by what its route made of it. -/
theorem Core.Made.fate {route : Route σ} {made : Except Refusal (Option Event)}
    (hmade : core.Made source request f object route made) {pending : Option (Agent × Event)}
    {stages : List (Stage × Outcome)} (hfate : Fate core source request f object pending stages) :
    (∃ exc, made = .error exc ∧ pending = none ∧
        (Declared exc ∧ stages = verifiedStages ++ [(.normalize, .rejected)] ∨ ¬ Declared exc)) ∨
      (∃ event, made = .ok event ∧ pending = none ∧
        (f.decided.raised ≠ none ∨ event = none ∨ ∃ e text, event = some e ∧
          core.config.agents.agentForRecipient core.py e.recipient = .error text)) ∨
      ∃ event agent, made = .ok (some event) ∧ pending = some (agent, event) ∧
        f.decided.raised = none ∧
        core.config.agents.agentForRecipient core.py event.recipient = .ok agent := by
  obtain ⟨object', htold, -⟩ := hmade.told
  cases hfate with
  | unknown hnone => rw [htold.found] at hnone; cases hnone
  | unsigned htold' => exact absurd htold' hmade.not_told
  | unarmed htold' => exact absurd htold' hmade.not_told
  | untold htold' => exact absurd htold' hmade.not_told
  | unflushed _ _ hraised => exact absurd hmade.flushed hraised
  | malformed hmade' hdeclared =>
    obtain ⟨-, rfl⟩ := hmade.inj hmade'
    exact Or.inl ⟨_, rfl, rfl, Or.inl ⟨hdeclared, rfl⟩⟩
  | broken hmade' hnot =>
    obtain ⟨-, rfl⟩ := hmade.inj hmade'
    exact Or.inl ⟨_, rfl, rfl, Or.inr hnot⟩
  | undecided hmade' hraised =>
    obtain ⟨-, rfl⟩ := hmade.inj hmade'
    exact Or.inr (Or.inl ⟨_, rfl, rfl, Or.inl hraised⟩)
  | ignored hmade' =>
    obtain ⟨-, rfl⟩ := hmade.inj hmade'
    exact Or.inr (Or.inl ⟨_, rfl, rfl, Or.inr (Or.inl rfl)⟩)
  | unresolved hmade' _ hagent =>
    obtain ⟨-, rfl⟩ := hmade.inj hmade'
    exact Or.inr (Or.inl ⟨_, rfl, rfl, Or.inr (Or.inr ⟨_, _, rfl, hagent⟩)⟩)
  | woke hmade' hdecided hagent =>
    obtain ⟨-, rfl⟩ := hmade.inj hmade'
    exact Or.inr (Or.inr ⟨_, _, rfl, rfl, hdecided, hagent⟩)

/-- A verified request that its route rejects is answered with 400, and nothing else is. -/
theorem answered_malformed : answered core source request f object = 400 ↔
    ∃ route exc, core.Made source request f object route (.error exc) ∧ Declared exc := by
  obtain ⟨pending, stages, hleft, -, hfate, hanswered⟩ :=
    answered_fate core source request f object
  rw [hanswered]
  constructor
  · intro h
    cases hfate with
    | malformed hmade hdeclared => exact ⟨_, _, hmade, hdeclared⟩
    | _ => cases h
  · rintro ⟨route, exc, hmade, hdeclared⟩
    rcases hmade.fate hfate with ⟨_, heq, hpending, hcase⟩ | ⟨_, heq, -⟩ | ⟨_, _, heq, -⟩
    · cases heq
      rw [hpending]
      rcases hcase with ⟨-, rfl⟩ | hnot
      · rfl
      · exact absurd hdeclared hnot
    · cases heq
    · cases heq

/-- **What there is to wake for**: an event that the source's route made of a request whose
signature held, and the agent that is its recipient. -/
theorem left_eq_some {agent : Agent} {event : Event} :
    left core source request f object = some (agent, event) ↔
      ∃ route, core.Made source request f object route (.ok (some event)) ∧
        f.decided.raised = none ∧
        core.config.agents.agentForRecipient core.py event.recipient = .ok agent := by
  obtain ⟨pending, stages, hleft, -, hfate, -⟩ := answered_fate core source request f object
  constructor
  · intro h
    obtain rfl := hleft.symm.trans h
    cases hfate with
    | woke hmade hdecided hagent => exact ⟨_, hmade, hdecided, hagent⟩
  · rintro ⟨route, hmade, hdecided, hagent⟩
    rcases hmade.fate hfate with
      ⟨_, heq, -⟩ | ⟨_, heq, -, hcase⟩ | ⟨_, _, heq, hpending, -, hagent'⟩
    · cases heq
    · cases heq
      rcases hcase with hraised | hnone | ⟨e, text, hsome, herror⟩
      · exact absurd hdecided hraised
      · cases hnone
      · cases hsome
        rw [hagent] at herror
        cases herror
    · cases heq
      rw [hagent] at hagent'
      cases hagent'
      exact hleft.trans hpending

/-- A request is answered with 202 where there is something to wake for. -/
theorem answered_woke :
    answered core source request f object = 202 ↔ (left core source request f object).isSome := by
  obtain ⟨pending, stages, hleft, -, hfate, hanswered⟩ :=
    answered_fate core source request f object
  rw [hanswered, hleft]
  cases hfate with
  | woke => exact iff_of_true rfl rfl
  | _ => exact iff_of_false (by decide) Bool.false_ne_true

/-- No request is answered otherwise. -/
theorem answered_mem : answered core source request f object ∈ [200, 202, 400, 401, 404] := by
  obtain ⟨pending, stages, hleft, -, hfate, hanswered⟩ :=
    answered_fate core source request f object
  rw [hanswered]
  cases hfate with
  | woke => exact List.mem_cons_of_mem _ List.mem_cons_self
  | _ => decide

end

end BasecradleRouter.Pipeline
