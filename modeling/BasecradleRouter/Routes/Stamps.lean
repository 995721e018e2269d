/-
# The github route stamps its events

Whatever path a webhook takes through `normalize`, an event it ends in was made by `_build_event`,
and so bears the route's name and is for a repository's captain.
-/
import BasecradleRouter.Routes.Github
import BasecradleRouter.Routes.Registry

namespace BasecradleRouter.Routes.GithubRoute

open BasecradleRouter.Lib BasecradleRouter.Models

/-- An event of the github route: from it, and for the captain of a repository. -/
structure Built (event : Event) : Prop where
  source : event.source = "github"
  tag : event.recipient.tag = "repo"
  repo : requireRepo event.recipient.value = true

/-- The event, if there is one, is built. -/
def Builds (event : Option Event) : Prop := ∀ e ∈ event, Built e

variable {r : GithubRoute} {eventType : String} {delivery : Option String}

theorem returns_ignore (eventType delivery : Option String) :
    Py.Returns Builds (ignore eventType delivery) :=
  Py.returns_bind fun _ => Py.returns_pure (by simp [Builds])

theorem returns_skipDoNotWork (url eventType delivery : Option String) :
    Py.Returns Builds (skipDoNotWork url eventType delivery) :=
  Py.returns_bind fun _ => returns_ignore eventType delivery

theorem returns_skipPullWake (skipLine reason : String) (eventType delivery : Option String) :
    Py.Returns Builds (skipPullWake skipLine reason eventType delivery) :=
  Py.returns_bind fun _ => returns_ignore eventType delivery

/-- Every event is made here. -/
theorem returns_buildEvent (origin : IssueRef) (wakeArg : String) (occurredAt : Option Datetime) :
    Py.Returns Built
      (buildEvent origin wakeArg eventType delivery occurredAt) := by
  unfold buildEvent
  split
  · exact Py.returns_raise _
  · next delivery _ =>
    intro s event s' h
    obtain ⟨made, hmade, h⟩ := Py.run_ofExcept_bind_eq_ok.mp h
    obtain ⟨_, _, -, h⟩ := Py.run_bind_eq_ok.mp h
    cases h
    cases hrecipient : Recipient.make "repo" origin.repo with
    | error text =>
      rw [hrecipient] at hmade
      cases hmade
    | ok recipient =>
      rw [hrecipient] at hmade
      cases hevent : Event.make "github" .handoff recipient wakeArg delivery (some origin)
          occurredAt (some eventType) with
      | error text =>
        have herror : malformed eventType (Event.make "github" .handoff recipient wakeArg delivery
            (some origin) occurredAt (some eventType)) = .ok event := hmade
        rw [hevent] at herror
        cases herror
      | ok event' =>
        have hok : malformed eventType (Event.make "github" .handoff recipient wakeArg delivery
            (some origin) occurredAt (some eventType)) = .ok event := hmade
        rw [hevent] at hok
        cases hok
        obtain ⟨hsource, -, hrecipientEq, -⟩ := Event.make_ok hevent
        obtain ⟨htag, hvalue⟩ := Recipient.make_ok hrecipient
        rw [← hrecipientEq] at htag hvalue
        exact ⟨hsource, htag, by rw [hvalue, origin.repo_ok]⟩

/-- An event handed on as it was made. -/
theorem returns_some {x : Method Event} (h : Py.Returns Built x) :
    Py.Returns Builds (do
      let event ← x
      return some event) :=
  h.bind fun event hevent => Py.returns_pure (by simpa [Builds] using hevent)

theorem returns_wakeEvent (data issue : Fields) (occurredAt : Option Datetime) :
    Py.Returns Built
      (r.wakeEvent data issue eventType delivery occurredAt) := by
  unfold wakeEvent
  split
  · exact Py.returns_raise _
  · refine Py.returns_bind fun repo => Py.returns_bind fun number => ?_
    refine Py.returns_bind fun url => Py.returns_bind fun title => ?_
    exact Py.returns_bind fun origin => returns_buildEvent origin _ occurredAt

theorem returns_wakeOnOwnPull (repo : String) (named : Finset ℕ) (actor : Option String)
    (note skipLine : String) (occurredAt : Option Datetime) : Py.Returns Builds
      (r.wakeOnOwnPull repo named actor note skipLine eventType delivery occurredAt) := by
  unfold wakeOnOwnPull
  refine Py.returns_bind fun ledger => ?_
  split
  · exact returns_skipPullWake _ _ _ _
  · split
    · exact returns_skipDoNotWork _ _ _
    · exact Py.returns_bind fun _ => returns_some (returns_buildEvent _ _ _)

theorem returns_normalizeIssues (request : InboundRequest) :
    Py.Returns Builds (r.normalizeIssues request eventType delivery) := by
  unfold normalizeIssues
  refine Py.returns_bind fun data => Py.returns_bind fun _ => Py.returns_bind fun actionable => ?_
  split
  · exact returns_ignore _ _
  refine Py.returns_bind fun issue => ?_
  split
  · exact returns_ignore _ _
  split
  · exact returns_skipDoNotWork _ _ _
  · exact Py.returns_bind fun _ => returns_some (returns_wakeEvent _ _ _)

theorem returns_normalizeComment (request : InboundRequest) :
    Py.Returns Builds (r.normalizeComment request eventType delivery) := by
  unfold normalizeComment
  refine Py.returns_bind fun data => Py.returns_bind fun _ => ?_
  split
  · exact returns_ignore _ _
  refine Py.returns_bind fun issue => ?_
  split
  · exact returns_ignore _ _
  split
  · exact returns_ignore _ _
  split
  · exact returns_skipDoNotWork _ _ _
  split
  · exact returns_ignore _ _
  · exact Py.returns_bind fun _ => returns_some (returns_wakeEvent _ _ _)

theorem returns_normalizePullRequest (request : InboundRequest) :
    Py.Returns Builds (r.normalizePullRequest request eventType delivery) := by
  unfold normalizePullRequest
  refine Py.returns_bind fun data => Py.returns_bind fun _ => ?_
  split
  · exact returns_ignore _ _
  split
  · exact returns_ignore _ _
  split
  · exact returns_ignore _ _
  split
  · exact Py.returns_raise _
  split
  · exact returns_ignore _ _
  refine Py.returns_bind fun number => Py.returns_bind fun url => Py.returns_bind fun named => ?_
  exact returns_wakeOnOwnPull _ _ _ _ _ _

theorem returns_normalizeWorkflowRun (request : InboundRequest) :
    Py.Returns Builds (r.normalizeWorkflowRun request eventType delivery) := by
  unfold normalizeWorkflowRun
  refine Py.returns_bind fun data => ?_
  split
  · exact returns_ignore _ _
  split
  · exact returns_ignore _ _
  split
  · exact returns_ignore _ _
  split
  · exact Py.returns_raise _
  dsimp only
  split
  · exact returns_ignore _ _
  refine Py.returns_bind fun pulls => ?_
  split
  · exact returns_skipPullWake _ _ _ _
  split
  · exact returns_ignore _ _
  split
  · exact returns_skipPullWake _ _ _ _
  · exact returns_wakeOnOwnPull _ _ _ _ _ _
  · exact returns_skipPullWake _ _ _ _

/-- **Every event of the github route is built.** -/
theorem returns_normalize (request : InboundRequest) :
    Py.Returns Builds (r.normalize request) := by
  unfold normalize
  dsimp only
  split
  · exact returns_normalizeIssues request
  split
  · exact returns_normalizeComment request
  split
  · exact returns_normalizePullRequest request
  split
  · exact returns_normalizeWorkflowRun request
  · exact returns_ignore _ _

/-- So it is stamped. -/
theorem stamps_normalize (request : InboundRequest) :
    Py.Returns (Stamped "github") (r.normalize request) :=
  fun s event s' h e he => (returns_normalize request s event s' h e he).source

end BasecradleRouter.Routes.GithubRoute
