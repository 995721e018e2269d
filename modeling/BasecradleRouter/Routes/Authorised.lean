/-
# Who may wake a captain

Four deliveries wake an agent, and each asks for something else.  This module says, for each of
them, what the payload and the ledgers held when the route answered with an event: `IssueWake`,
`CommentWake`, `MergeWake` and `FailedRunWake`.  `wakes_only_authorised` is that nothing else wakes
anyone.

An actor is admitted by the allow-list, compared in lower case (`Trusted`), or, on the last two
paths, as the registered bot of the delivery's repository (`CaptainBot`).  A list accepted at boot
holds no captain's bot, so a captain's bot wakes only its own captain, by its own pull request.
-/
import BasecradleRouter.Config
import BasecradleRouter.Routes.Github

namespace BasecradleRouter.Routes

open BasecradleRouter.Config BasecradleRouter.Lib BasecradleRouter.Models

/-! ## 1. What a wake rests on -/

/-- The login is on the allow-list, whatever its case. -/
def Trusted (py : Runtime) (actors : Finset String) (login : String) : Prop :=
  ∃ actor ∈ actors, py.lower actor = py.lower login

/-- The login is the registered captain bot of the repository. -/
def CaptainBot (py : Runtime) (botLogin : String → Option String) (repo login : String) : Prop :=
  ∃ bot, botLogin repo = some bot ∧ bot ≠ "" ∧ py.lower login = py.lower bot

/-- The payload's issue carries a label of this name. -/
def HasLabel (issue : Fields) (name : String) : Prop :=
  ∃ labels label fields, (issue.get "labels").asArr = some labels ∧ label ∈ labels ∧
    label.asObj = some fields ∧ (fields.get "name").asStr = some name

/-- The event is about the payload's issue, and for the repository's captain. -/
structure About (data issue : Fields) (event : Event) (ref : IssueRef) : Prop where
  origin : event.origin = some ref
  recipient : event.recipient.tag = "repo" ∧ event.recipient.value = ref.repo
  repo : repoFullName data = some ref.repo
  number : (issue.get "number").asInt = some (ref.number : ℤ)
  url : (issue.get "html_url").asStr = some ref.url

/-- The delivery makes the issue a handoff: the label just added is one, or the issue was opened
with it. -/
def MadeHandoff (data issue : Fields) : Prop :=
  ((data.get "action").asStr = some "labeled" ∧
    ∃ added, (data.get "label").asObj = some added ∧ (added.get "name").asStr = some handoffLabel) ∨
  ((data.get "action").asStr = some "opened" ∧ HasLabel issue handoffLabel)

section

variable (py : Runtime) (actors : Finset String) (botLogin : String → Option String)
variable (s : GithubRoute.State) (data : Fields) (actor : String) (event : Event)

/-- An issue was opened or labelled. -/
structure IssueWake : Prop where
  sender : senderLogin data = some actor
  trusted : Trusted py actors actor
  issue : ∃ issue ref, (data.get "issue").asObj = some issue ∧ About data issue event ref ∧
    MadeHandoff data issue ∧ ¬ HasLabel issue doNotWorkLabel

/-- A comment was made on an issue. -/
structure CommentWake : Prop where
  sender : senderLogin data = some actor
  trusted : Trusted py actors actor
  created : (data.get "action").asStr = some actionableCommentAction
  issue : ∃ issue ref, (data.get "issue").asObj = some issue ∧ About data issue event ref ∧
    (issue.get "pull_request").isNull = true ∧ HasLabel issue handoffLabel ∧
    ¬ HasLabel issue doNotWorkLabel ∧ ¬ CaptainBot py botLogin ref.repo actor

/-- The issue is one of those the pull request names, where it names any. -/
def Among (named : Finset ℕ) (ref : IssueRef) : Prop := named.Nonempty → ref.number ∈ named

/-- The captain's own pull request in `repo` wakes it: the actor is admitted, and the event is about
the one open handoff the pull request can mean, which is not parked. -/
structure OwnPullWake (repo : String) (named : Finset ℕ) : Prop where
  admitted : Trusted py actors actor ∨ CaptainBot py botLogin repo actor
  target : ∃ ref state, event.origin = some ref ∧ event.recipient.tag = "repo" ∧
    event.recipient.value = ref.repo ∧ s.ledger.HoldsOpen py repo ref state ∧ Among named ref ∧
    doNotWorkLabel ∉ state.labels ∧
    ∀ other held, s.ledger.HoldsOpen py repo other held → Among named other → other = ref

/-- The captain's own pull request was merged. -/
structure MergeWake : Prop where
  sender : senderLogin data = some actor
  closed : (data.get "action").asStr = some actionablePullRequestAction
  pull : ∃ repo pull author named, repoFullName data = some repo ∧
    (data.get "pull_request").asObj = some pull ∧ (pull.get "merged").isTrue = true ∧
    authorLogin (.obj pull) "user" = some author ∧ CaptainBot py botLogin repo author ∧
    namedIssues py pull repo = .ok named ∧ OwnPullWake py actors botLogin s actor event repo named

/-- A workflow run failed on the captain's own pull request: the only open one it wrote among the
run's, all of which the ledger knows. -/
structure FailedRunWake : Prop where
  completed : (data.get "action").asStr = some actionableWorkflowRunAction
  run : ∃ repo run number pull, repoFullName data = some repo ∧
    (data.get "workflow_run").asObj = some run ∧
    authorLogin (.obj run) "triggering_actor" = some actor ∧
    (run.get "conclusion").asStr = some failedConclusion ∧
    (∀ n ∈ runPullNumbers py run repo, ∃ known, s.pulls.get py repo n = some known) ∧
    number ∈ runPullNumbers py run repo ∧ s.pulls.get py repo number = some pull ∧
    pull.isOpen = true ∧ CaptainBot py botLogin repo pull.author ∧
    (∀ n ∈ runPullNumbers py run repo, ∀ other, s.pulls.get py repo n = some other →
      other.isOpen = true → CaptainBot py botLogin repo other.author → n = number) ∧
    OwnPullWake py actors botLogin s actor event repo pull.named

end

/-! ## 2. The tests, as what they test -/

theorem hasLabel_iff {issue : Fields} {name : String} :
    hasLabel issue name = true ↔ HasLabel issue name := by
  unfold hasLabel HasLabel
  cases (issue.get "labels").asArr with
  | none => simp
  | some labels =>
    simp only [List.any_eq_true, Option.any_eq_true, Json.isText_iff, Option.some.injEq]
    constructor
    · rintro ⟨label, hmem, fields, hobj, hname⟩
      exact ⟨labels, label, fields, rfl, hmem, hobj, hname⟩
    · rintro ⟨_, label, fields, rfl, hmem, hobj, hname⟩
      exact ⟨label, hmem, fields, hobj, hname⟩

theorem madeHandoff_of_isHandoff {data issue : Fields} {action : String}
    (haction : action ∈ actionableActions) (hdata : (data.get "action").asStr = some action)
    (h : isHandoff (data.get "action") issue data = true) : MadeHandoff data issue := by
  unfold isHandoff at h
  split at h
  · next hlabeled =>
    obtain ⟨added, hadded, hname⟩ := (Option.any_eq_true _ _).mp h
    exact Or.inl ⟨Json.isText_iff.mp hlabeled, added, hadded, Json.isText_iff.mp hname⟩
  · next hlabeled =>
    have hopened : action = "opened" := by
      simp only [actionableActions, List.mem_cons, List.not_mem_nil, or_false] at haction
      rcases haction with rfl | rfl
      · rfl
      · exact absurd (Json.isText_iff.mpr hdata) hlabeled
    exact Or.inr ⟨by rw [hdata, hopened], hasLabel_iff.mp h⟩

/-- A captain's bot is not on a list that was accepted. -/
theorem not_trusted (py : Runtime) {env : String → Option String} {actors : Finset String}
    {actor : String} (h : loadGithubTrustedActors env = .ok actors) (hascii : isAscii actor = true)
    (hbot : captainBotLogin actor = true) : ¬ Trusted py actors actor := by
  rintro ⟨listed, hmem, hlower⟩
  exact accepted_no_captain py h hascii hbot (Finset.mem_image.mpr ⟨listed, hmem, hlower⟩)

/-- Whom the allow-list does not admit is the repository's own captain bot, and wakes that
captain. -/
theorem OwnPullWake.captain {py : Runtime} {actors : Finset String}
    {botLogin : String → Option String} {s : GithubRoute.State} {actor : String} {event : Event}
    {repo : String} {named : Finset ℕ}
    (h : OwnPullWake py actors botLogin s actor event repo named)
    (hactor : ¬ Trusted py actors actor) :
    CaptainBot py botLogin repo actor ∧ py.lower event.recipient.value = py.lower repo := by
  obtain ⟨ref, state, -, -, hvalue, hheld, -⟩ := h.target
  exact ⟨h.admitted.resolve_left hactor, by rw [hvalue, hheld.repo_eq]⟩

theorem mem_chosen {candidates : List IssueRef} {named : Finset ℕ} {ref : IssueRef} :
    ref ∈ chosen candidates named ↔ ref ∈ candidates ∧ Among named ref := by
  unfold chosen Among
  split
  · next h => simp [h]
  · next h => simp [h]

/-- A target is the only candidate chosen. -/
theorem mergeTarget_ok {candidates : List IssueRef} {named : Finset ℕ} {ref : IssueRef}
    (h : mergeTarget candidates named = .ok ref) : chosen candidates named = [ref] := by
  unfold mergeTarget at h
  split at h
  · cases h
  · next heq =>
    cases h
    exact heq
  · cases h

namespace GithubRoute

variable {py : Runtime} {actors : Finset String} {botLogin : String → Option String}

theorem isCaptainBot_iff {repo login : String} :
    (init py actors botLogin).isCaptainBot repo login = true ↔
      CaptainBot py botLogin repo login := by
  simp only [isCaptainBot, CaptainBot, init]
  cases botLogin repo <;> simp

theorem requireTrustedLogin_ok {login : Option String} {u : Unit}
    (h : (init py actors botLogin).requireTrustedLogin login = .ok u) :
    ∃ actor, login = some actor ∧ Trusted py actors actor := by
  unfold requireTrustedLogin at h
  split at h
  · cases h
  · next login =>
    split at h
    · next hmem => exact ⟨login, rfl, by simpa [init, Trusted] using hmem⟩
    · cases h

theorem requireOwnOrTrusted_ok {repo : String} {login : Option String} {u : Unit}
    (h : (init py actors botLogin).requireOwnOrTrusted repo login = .ok u) :
    ∃ actor, login = some actor ∧
      (Trusted py actors actor ∨ CaptainBot py botLogin repo actor) := by
  unfold requireOwnOrTrusted at h
  split at h
  · next hcaptain =>
    obtain ⟨actor, hactor, hbot⟩ := (Option.any_eq_true _ _).mp hcaptain
    exact ⟨actor, hactor, Or.inr (isCaptainBot_iff.mp hbot)⟩
  · obtain ⟨actor, hactor, htrusted⟩ := requireTrustedLogin_ok h
    exact ⟨actor, hactor, Or.inl htrusted⟩

/-! ## 3. What each method does when it returns -/

variable {r : GithubRoute} {s s' : State}

/-- An ignore is no event. -/
theorem ignore_ne {eventType delivery : Option String} {event : Event} :
    (ignore eventType delivery).run s ≠ (.ok (some event), s') := by
  intro h
  cases h

theorem skipDoNotWork_ne {url eventType delivery : Option String} {event : Event} :
    (skipDoNotWork url eventType delivery).run s ≠ (.ok (some event), s') := by
  intro h
  cases h

theorem skipPullWake_ne {skipLine reason : String} {eventType delivery : Option String}
    {event : Event} :
    (skipPullWake skipLine reason eventType delivery).run s ≠ (.ok (some event), s') := by
  intro h
  cases h

/-- Recording a pull request leaves the issues alone. -/
theorem observePull_ledger {repo : String} {pull : Json} {u : Unit}
    (h : (r.observePull repo pull).run s = (.ok u, s')) : s'.ledger = s.ledger := by
  unfold observePull at h
  rw [Py.run_look_bind] at h
  obtain ⟨_, -, h⟩ := Py.run_ofExcept_bind_eq_ok.mp h
  cases h
  rfl

theorem observeReported_ledger {data : Fields} {u : Unit}
    (h : (r.observeReported data).run s = (.ok u, s')) : s'.ledger = s.ledger := by
  unfold observeReported at h
  split at h
  · exact observePull_ledger h
  · cases h
    rfl

theorem malformed_ok {α : Type} {eventType : String} {made : Except String α} {a : α}
    (h : malformed eventType made = .ok a) : made = .ok a := by
  cases made with
  | error e => cases h
  | ok a' => exact congrArg _ (Except.ok.inj h)

/-- The event built is about the issue it was built for, and for its repository's captain. -/
theorem buildEvent_ok {origin : IssueRef} {wakeArg eventType : String} {delivery : Option String}
    {occurredAt : Option Datetime} {event : Event}
    (h : (buildEvent origin wakeArg eventType delivery occurredAt).run s = (.ok event, s')) :
    event.origin = some origin ∧ event.recipient.tag = "repo" ∧
      event.recipient.value = origin.repo := by
  unfold buildEvent at h
  split at h
  · cases h
  · next delivery _ =>
    obtain ⟨made, hmade, h⟩ := Py.run_ofExcept_bind_eq_ok.mp h
    obtain ⟨_, _, -, h⟩ := Py.run_bind_eq_ok.mp h
    cases h
    have hok := malformed_ok hmade
    cases hrecipient : Recipient.make "repo" origin.repo with
    | error e =>
      rw [hrecipient] at hok
      cases hok
    | ok recipient =>
      rw [hrecipient] at hok
      have hevent : Event.make "github" .handoff recipient wakeArg delivery (some origin) occurredAt
          (some eventType) = .ok event := hok
      obtain ⟨-, -, hto, -, -, horigin, -⟩ := Event.make_ok hevent
      obtain ⟨htag, hvalue⟩ := Recipient.make_ok hrecipient
      exact ⟨horigin, by rw [hto, htag], by rw [hto, hvalue]⟩

theorem text_ok {obj : Fields} {key label value : String} (h : text obj key label = .ok value) :
    (obj.get key).asStr = some value := by
  unfold text at h
  split at h
  · next heq =>
    cases h
    exact heq
  · cases h

theorem int_ok {obj : Fields} {key label : String} {value : ℤ} (h : int obj key label = .ok value) :
    (obj.get key).asInt = some value := by
  unfold int at h
  split at h
  · next heq =>
    cases h
    exact heq
  · cases h

/-- The event of an issue-borne path is about the payload's issue. -/
theorem wakeEvent_ok {data issue : Fields} {eventType : String} {delivery : Option String}
    {occurredAt : Option Datetime} {event : Event}
    (h : (r.wakeEvent data issue eventType delivery occurredAt).run s = (.ok event, s')) :
    ∃ ref, About data issue event ref := by
  unfold wakeEvent at h
  split at h
  · cases h
  · next repository hrepository =>
    obtain ⟨repo, hrepo, h⟩ := Py.run_ofExcept_bind_eq_ok.mp h
    obtain ⟨number, hnumber, h⟩ := Py.run_ofExcept_bind_eq_ok.mp h
    obtain ⟨url, hurl, h⟩ := Py.run_ofExcept_bind_eq_ok.mp h
    obtain ⟨title, -, h⟩ := Py.run_ofExcept_bind_eq_ok.mp h
    obtain ⟨origin, horigin, h⟩ := Py.run_ofExcept_bind_eq_ok.mp h
    obtain ⟨hr, hn, hu, -⟩ := IssueRef.make_ok (malformed_ok horigin)
    obtain ⟨horig, htag, hvalue⟩ := buildEvent_ok h
    refine ⟨origin, horig, ⟨htag, hvalue⟩, ?_, ?_, ?_⟩
    · have hne : repo ≠ "" := by
        rintro rfl
        have hok := origin.repo_ok
        rw [hr] at hok
        exact absurd hok (by decide)
      simp [repoFullName, hrepository, text_ok hrepo, nonEmpty, hne, hr]
    · rw [int_ok hnumber, hn]
    · rw [text_ok hurl, hu]

/-! ## 4. The paths -/

/-- What the allow-list lets through, the route read as the sender. -/
theorem requireTrustedSender_ok {data : Fields} {u : Unit}
    (h : (init py actors botLogin).requireTrustedSender data = .ok u) :
    ∃ actor, senderLogin data = some actor ∧ Trusted py actors actor :=
  requireTrustedLogin_ok h

theorem inSet_ok {v : Json} {texts : List String} (h : inSet v texts = .ok true) :
    ∃ text ∈ texts, v.asStr = some text := by
  refine Json.inSet_true ?_
  unfold inSet at h
  cases hv : v.inSet texts with
  | error e =>
    rw [hv] at h
    cases h
  | ok b =>
    rw [hv] at h
    exact congrArg _ (Except.ok.inj h)

theorem requireIssue_ok {data issue : Fields} (h : requireIssue data = .ok issue) :
    (data.get "issue").asObj = some issue := by
  unfold requireIssue at h
  split at h
  · next heq =>
    cases h
    exact heq
  · cases h

theorem normalizeIssues_wakes {request : InboundRequest} {eventType : String}
    {delivery : Option String} {event : Event}
    (h : ((init py actors botLogin).normalizeIssues request eventType delivery).run s =
      (.ok (some event), s')) :
    ∃ data actor, parseJsonObject py request.body = .ok data ∧
      IssueWake py actors data actor event := by
  unfold normalizeIssues at h
  obtain ⟨data, hdata, h⟩ := Py.run_ofExcept_bind_eq_ok.mp h
  obtain ⟨_, _, -, h⟩ := Py.run_bind_eq_ok.mp h
  obtain ⟨actionable, hactionable, h⟩ := Py.run_ofExcept_bind_eq_ok.mp h
  cases actionable with
  | false => exact absurd h ignore_ne
  | true =>
    obtain ⟨action, haction, hread⟩ := inSet_ok hactionable
    simp only [Bool.not_true, Bool.false_eq_true, if_false] at h
    obtain ⟨issue, hissue, h⟩ := Py.run_ofExcept_bind_eq_ok.mp h
    split at h
    · exact absurd h ignore_ne
    next hhandoff =>
    split at h
    · exact absurd h skipDoNotWork_ne
    next hparked =>
    obtain ⟨_, hsender, h⟩ := Py.run_ofExcept_bind_eq_ok.mp h
    obtain ⟨made, _, hmade, h⟩ := Py.run_bind_eq_ok.mp h
    cases h
    obtain ⟨actor, hactor, htrusted⟩ := requireTrustedSender_ok hsender
    obtain ⟨ref, habout⟩ := wakeEvent_ok hmade
    refine ⟨data, actor, hdata, hactor, htrusted, issue, ref, requireIssue_ok hissue, habout, ?_,
      ?_⟩
    · exact madeHandoff_of_isHandoff haction hread (by simpa using hhandoff)
    · exact fun hlabel => hparked (hasLabel_iff.mpr hlabel)

theorem normalizeComment_wakes {request : InboundRequest} {eventType : String}
    {delivery : Option String} {event : Event}
    (h : ((init py actors botLogin).normalizeComment request eventType delivery).run s =
      (.ok (some event), s')) :
    ∃ data actor, parseJsonObject py request.body = .ok data ∧
      CommentWake py actors botLogin data actor event := by
  unfold normalizeComment at h
  obtain ⟨data, hdata, h⟩ := Py.run_ofExcept_bind_eq_ok.mp h
  obtain ⟨_, _, -, h⟩ := Py.run_bind_eq_ok.mp h
  split at h
  · exact absurd h ignore_ne
  next hcreated =>
  obtain ⟨issue, hissue, h⟩ := Py.run_ofExcept_bind_eq_ok.mp h
  split at h
  · exact absurd h ignore_ne
  next hissueOnly =>
  split at h
  · exact absurd h ignore_ne
  next hhandoff =>
  split at h
  · exact absurd h skipDoNotWork_ne
  next hparked =>
  split at h
  · exact absurd h ignore_ne
  next hself =>
  obtain ⟨_, hsender, h⟩ := Py.run_ofExcept_bind_eq_ok.mp h
  obtain ⟨made, _, hmade, h⟩ := Py.run_bind_eq_ok.mp h
  cases h
  obtain ⟨actor, hactor, htrusted⟩ := requireTrustedSender_ok hsender
  obtain ⟨ref, habout⟩ := wakeEvent_ok hmade
  refine ⟨data, actor, hdata, hactor, htrusted, Json.isText_iff.mp (by simpa using hcreated), issue,
    ref, requireIssue_ok hissue, habout, by simpa using hissueOnly, ?_, ?_, ?_⟩
  · exact hasLabel_iff.mp (by simpa [hasHandoffLabel] using hhandoff)
  · exact fun hlabel => hparked (hasLabel_iff.mpr hlabel)
  · intro hbot
    apply hself
    simp only [senderIsCaptainBot, habout.repo, hactor]
    exact isCaptainBot_iff.mpr hbot

/-- The tail the last two paths share. -/
theorem wakeOnOwnPull_wakes {repo : String} {named : Finset ℕ} {actor : Option String}
    {note skipLine eventType : String} {delivery : Option String} {occurredAt : Option Datetime}
    {event : Event}
    (h : ((init py actors botLogin).wakeOnOwnPull repo named actor note skipLine eventType delivery
      occurredAt).run s = (.ok (some event), s')) :
    ∃ login, actor = some login ∧ OwnPullWake py actors botLogin s login event repo named := by
  unfold wakeOnOwnPull at h
  rw [Py.run_look_bind] at h
  split at h
  · exact absurd h skipPullWake_ne
  next target htarget =>
  split at h
  · exact absurd h skipDoNotWork_ne
  next hunparked =>
  obtain ⟨_, hgate, h⟩ := Py.run_ofExcept_bind_eq_ok.mp h
  obtain ⟨made, _, hmade, h⟩ := Py.run_bind_eq_ok.mp h
  cases h
  have hchosen : chosen (s.ledger.openHandoffs py repo) named = [target] := mergeTarget_ok htarget
  have hmem : ∀ ref, ref ∈ chosen (s.ledger.openHandoffs py repo) named ↔ ref = target := by
    intro ref
    rw [hchosen, List.mem_singleton]
  obtain ⟨hopen, hamong⟩ := mem_chosen.mp ((hmem target).mpr rfl)
  obtain ⟨state, hheld⟩ := (s.ledger.mem_openHandoffs py).mp hopen
  obtain ⟨horigin, htag, hvalue⟩ := buildEvent_ok hmade
  obtain ⟨login, hlogin, hadmitted⟩ := requireOwnOrTrusted_ok hgate
  refine ⟨login, hlogin, hadmitted, target, state, horigin, htag, hvalue, hheld, hamong, ?_, ?_⟩
  · exact fun hparked => hunparked ((s.ledger.reasonToDrop_of_open py hheld).mpr hparked)
  · intro other held hother hamong'
    exact (hmem other).mp (mem_chosen.mpr
      ⟨(s.ledger.mem_openHandoffs py).mpr ⟨held, hother⟩, hamong'⟩)

theorem normalizePullRequest_wakes {request : InboundRequest} {eventType : String}
    {delivery : Option String} {event : Event}
    (h : ((init py actors botLogin).normalizePullRequest request eventType delivery).run s =
      (.ok (some event), s')) :
    ∃ data actor, parseJsonObject py request.body = .ok data ∧
      MergeWake py actors botLogin s data actor event := by
  unfold normalizePullRequest at h
  obtain ⟨data, hdata, h⟩ := Py.run_ofExcept_bind_eq_ok.mp h
  obtain ⟨_, s₁, hobserve, h⟩ := Py.run_bind_eq_ok.mp h
  -- only the pull ledger has moved
  have hledger : s₁.ledger = s.ledger := observeReported_ledger hobserve
  split at h
  · exact absurd h ignore_ne
  next pull hpull =>
  split at h
  · exact absurd h ignore_ne
  next hclosed =>
  split at h
  · exact absurd h ignore_ne
  next hmerged =>
  split at h
  · cases h
  next repo hrepo =>
  split at h
  · exact absurd h ignore_ne
  next hauthor =>
  obtain ⟨number, -, h⟩ := Py.run_ofExcept_bind_eq_ok.mp h
  obtain ⟨pullUrl, -, h⟩ := Py.run_ofExcept_bind_eq_ok.mp h
  obtain ⟨named, hnamed, h⟩ := Py.run_ofExcept_bind_eq_ok.mp h
  obtain ⟨actor, hactor, hown⟩ := wakeOnOwnPull_wakes h
  obtain ⟨author, hauthor, hbot⟩ := (Option.any_eq_true _ _).mp (by simpa using hauthor)
  obtain ⟨hadmitted, target⟩ := hown
  rw [hledger] at target
  exact ⟨data, actor, hdata, hactor, Json.isText_iff.mp (by simpa using hclosed), repo, pull,
    author, named, hrepo, hpull, by simpa using hmerged, hauthor, isCaptainBot_iff.mp hbot, hnamed,
    hadmitted, target⟩

/-- Reading every entry of a list succeeds where each does. -/
theorem mapM_eq_some {α β : Type} {f : α → Option β} : ∀ {xs : List α} {ys : List β},
    xs.mapM f = some ys → xs.map f = ys.map some
  | [], ys, h => by
    cases h
    rfl
  | x :: xs, ys, h => by
    rw [List.mapM_cons] at h
    obtain ⟨y, hy, h⟩ := Option.bind_eq_some_iff.mp h
    obtain ⟨ys', hys, h⟩ := Option.bind_eq_some_iff.mp h
    cases h
    rw [List.map_cons, List.map_cons, hy, mapM_eq_some hys]

theorem normalizeWorkflowRun_wakes {request : InboundRequest} {eventType : String}
    {delivery : Option String} {event : Event}
    (h : ((init py actors botLogin).normalizeWorkflowRun request eventType delivery).run s =
      (.ok (some event), s')) :
    ∃ data actor, parseJsonObject py request.body = .ok data ∧
      FailedRunWake py actors botLogin s data actor event := by
  unfold normalizeWorkflowRun at h
  obtain ⟨data, hdata, h⟩ := Py.run_ofExcept_bind_eq_ok.mp h
  split at h
  · exact absurd h ignore_ne
  next run hrun =>
  split at h
  · exact absurd h ignore_ne
  next hcompleted =>
  split at h
  · exact absurd h ignore_ne
  next hfailed =>
  split at h
  · cases h
  next repo hrepo =>
  simp only at h
  split at h
  · exact absurd h ignore_ne
  rw [Py.run_look_bind] at h
  split at h
  · exact absurd h skipPullWake_ne
  next known hknown =>
  split at h
  · exact absurd h ignore_ne
  split at h
  · exact absurd h skipPullWake_ne
  · next pull hown =>
    obtain ⟨actor, hactor, hwake⟩ := wakeOnOwnPull_wakes h
    have hread : (runPullNumbers py run repo).map (s.pulls.get py repo) = known.map some :=
      mapM_eq_some hknown
    have hknows : ∀ n ∈ runPullNumbers py run repo,
        ∃ known, s.pulls.get py repo n = some known := by
      intro n hn
      obtain ⟨k, -, hk⟩ := List.mem_map.mp (hread ▸ List.mem_map_of_mem hn)
      exact ⟨k, hk.symm⟩
    -- an open pull request of the captain's among the run's is the one that was found
    have honly : ∀ other, other ∈ known → other.isOpen = true →
        CaptainBot py botLogin repo other.author → other = pull := by
      intro other hmem hopen hbot
      have hin : other ∈ [pull] := by
        rw [← hown]
        simp [hmem, hopen, isCaptainBot_iff.mpr hbot]
      exact List.mem_singleton.mp hin
    have hpull : pull ∈ known ∧ CaptainBot py botLogin repo pull.author ∧ pull.isOpen = true := by
      have hin : pull ∈ [pull] := List.mem_singleton_self pull
      rw [← hown] at hin
      simp only [List.mem_filter] at hin
      exact ⟨hin.1.1, isCaptainBot_iff.mp hin.1.2, hin.2⟩
    obtain ⟨number, hnumber, hget⟩ := List.mem_map.mp (hread ▸ List.mem_map_of_mem hpull.1)
    refine ⟨data, actor, hdata, Json.isText_iff.mp (by simpa using hcompleted), repo, run, number,
      pull, hrepo, hrun, hactor, Json.isText_iff.mp (by simpa using hfailed), hknows, hnumber, hget,
      hpull.2.2, hpull.2.1, ?_, hwake⟩
    intro n hn other hother hopen hbot
    have hmem : other ∈ known := by
      obtain ⟨k, hk, hkn⟩ := List.mem_map.mp (hread ▸ List.mem_map_of_mem hn)
      rw [hother] at hkn
      cases hkn
      exact hk
    rw [← PullLedger.get_number py hother, honly other hmem hopen hbot,
      PullLedger.get_number py hget]
  · exact absurd h skipPullWake_ne

/-! ## 5. The star -/

/-- **Nothing wakes an agent but one of the four deliveries, each with all it asks for**: whatever
the ledgers hold, when `normalize` answers with an event, its actor is on the allow-list, or, for a
pull request's merge or failed run alone, is the registered captain bot of the repository.  With an
allow-list that was accepted at boot, a captain's bot wakes no one but its own captain, by its own
pull request. -/
theorem wakes_only_authorised (py : Runtime) (actors : Finset String)
    (botLogin : String → Option String) (request : InboundRequest) (s s' : State) (event : Event)
    (h : ((init py actors botLogin).normalize request).run s = (.ok (some event), s')) :
    ∃ data actor, parseJsonObject py request.body = .ok data ∧
      ((request.header py eventHeader = some issuesEvent ∧ IssueWake py actors data actor event) ∨
        (request.header py eventHeader = some issueCommentEvent ∧
          CommentWake py actors botLogin data actor event) ∨
        (request.header py eventHeader = some pullRequestEvent ∧
          MergeWake py actors botLogin s data actor event) ∨
        (request.header py eventHeader = some workflowRunEvent ∧
          FailedRunWake py actors botLogin s data actor event)) ∧
      (∀ env, loadGithubTrustedActors env = .ok actors → isAscii actor = true →
        captainBotLogin actor = true →
          (request.header py eventHeader = some pullRequestEvent ∨
            request.header py eventHeader = some workflowRunEvent) ∧
          ∃ repo, repoFullName data = some repo ∧ CaptainBot py botLogin repo actor ∧
            py.lower event.recipient.value = py.lower repo) := by
  unfold normalize at h
  simp only at h
  split at h
  · next hevent =>
    obtain ⟨data, actor, hdata, hwake⟩ := normalizeIssues_wakes h
    refine ⟨data, actor, hdata, Or.inl ⟨hevent, hwake⟩, ?_⟩
    exact fun env hload hascii hbot => absurd hwake.trusted (not_trusted py hload hascii hbot)
  split at h
  · next hevent =>
    obtain ⟨data, actor, hdata, hwake⟩ := normalizeComment_wakes h
    refine ⟨data, actor, hdata, Or.inr (Or.inl ⟨hevent, hwake⟩), ?_⟩
    exact fun env hload hascii hbot => absurd hwake.trusted (not_trusted py hload hascii hbot)
  split at h
  · next hevent =>
    obtain ⟨data, actor, hdata, hwake⟩ := normalizePullRequest_wakes h
    refine ⟨data, actor, hdata, Or.inr (Or.inr (Or.inl ⟨hevent, hwake⟩)), ?_⟩
    intro env hload hascii hbot
    obtain ⟨repo, pull, author, named, hrepo, -, -, -, -, -, hown⟩ := hwake.pull
    exact ⟨Or.inl hevent, repo, hrepo, hown.captain (not_trusted py hload hascii hbot)⟩
  split at h
  · next hevent =>
    obtain ⟨data, actor, hdata, hwake⟩ := normalizeWorkflowRun_wakes h
    refine ⟨data, actor, hdata, Or.inr (Or.inr (Or.inr ⟨hevent, hwake⟩)), ?_⟩
    intro env hload hascii hbot
    obtain ⟨repo, run, number, pull, hrepo, -, -, -, -, -, -, -, -, -, hown⟩ := hwake.run
    exact ⟨Or.inr hevent, repo, hrepo, hown.captain (not_trusted py hload hascii hbot)⟩
  · exact absurd h ignore_ne

/-! ## 6. A merge that wakes its captain

The captain of `o/r` merges its own pull request while issue 5 is an open handoff. -/

/-- Issue 5 of `o/r`, open and labelled handoff. -/
def handoffReport : IssueReport where
  url := "https://github.com/o/r/issues/5"
  state := {
    updatedAt := ⟨0, 0, span_pos, no_offset_lt⟩
    isOpen := true
    labels := {handoffLabel}
    stateFirstHand := true
    labelsFirstHand := true
    ref := some handoffIssue }
  ref_url ref h := by
    cases h
    rfl

def handoffState : State := ⟨IssueLedger.empty.put handoffReport, PullLedger.empty, []⟩

/-- The merge, made by the captain's bot. -/
def mergePayload : Json :=
  let bot := Json.obj [("login", .str "basecradle-r-ai[bot]")]
  .obj [("action", .str "closed"), ("repository", .obj [("full_name", .str "o/r")]),
    ("sender", bot),
    ("pull_request", .obj [("merged", .bool true), ("user", bot), ("number", .int 7),
      ("html_url", .str "https://github.com/o/r/pull/7"), ("title", .str "Fixes #5")])]

def mergeRequest : InboundRequest :=
  ⟨[(eventHeader, pullRequestEvent), (deliveryHeader, "d")], []⟩

def mergeRuntime : Runtime := Runtime.ascii (fun _ => .ok mergePayload) (fun _ => none)

def mergeBot (repo : String) : Option String :=
  if repo = "o/r" then some "basecradle-r-ai[bot]" else none

/-- The payload, read. -/
def mergeData : Fields := mergePayload.asObj.getD []

def mergePull : Fields := ((mergeData.get "pull_request").asObj).getD []

/-- What is said to a captain is not blank. -/
theorem required_handoffTrigger (url note : String) : Required (handoffTrigger url ++ note) := by
  have hblank : ∀ a b : String, PyStr.blank (a ++ b) = (PyStr.blank a && PyStr.blank b) := by
    intro a b
    simp [PyStr.blank]
  have hfirst : PyStr.blank "Cross-repo handoff: work " = false := by decide
  unfold Required handoffTrigger
  repeat rw [hblank]
  rw [hfirst]
  simp only [Bool.false_and]

/-- An event with nothing blank is built. -/
theorem buildEvent_run (s : State) (origin : IssueRef) {wakeArg eventType delivery : String}
    (occurredAt : Option Datetime) (hwakeArg : Required wakeArg) (htype : Required eventType)
    (hdelivery : Required delivery) : ∃ event s',
      (buildEvent origin wakeArg eventType (some delivery) occurredAt).run s = (.ok event, s') := by
  have hne : delivery ≠ "" := by
    rintro rfl
    exact absurd hdelivery (by decide)
  have hsource : Required "github" := by decide
  have htag : Required "repo" := by decide
  have hvalue : Required origin.repo := by
    have hok := origin.repo_ok
    simp only [requireRepo, Bool.and_eq_true, Bool.not_eq_true'] at hok
    exact hok.1.1.1
  have htypes : ∀ t ∈ some eventType, Required t := by simpa using htype
  unfold buildEvent
  simp only [Option.bind_some, nonEmpty, if_neg hne]
  have hrecipient : Recipient.make "repo" origin.repo =
      .ok ⟨"repo", origin.repo, htag, hvalue⟩ := by
    simp only [Recipient.make, dif_pos htag, dif_pos hvalue]
  let event : Event := ⟨"github", .handoff, ⟨"repo", origin.repo, htag, hvalue⟩, wakeArg, delivery,
    some origin, occurredAt, some eventType, hsource, hwakeArg, hdelivery, htypes⟩
  have hmade : Event.make "github" .handoff ⟨"repo", origin.repo, htag, hvalue⟩ wakeArg delivery
      (some origin) occurredAt (some eventType) = .ok event := by
    simp only [Event.make, dif_pos hsource, dif_pos hwakeArg, dif_pos hdelivery, dif_pos htypes,
      event]
  refine ⟨event, _, Py.run_ofExcept_bind_eq_ok.mpr ⟨event, ?_, rfl⟩⟩
  rw [hrecipient]
  exact congrArg (malformed eventType) hmade

/-- A captain's pull request with a target that is not parked, by an actor that is admitted, wakes
it. -/
theorem wakeOnOwnPull_run {repo : String} {named : Finset ℕ} {actor : Option String}
    (note skipLine : String) {eventType delivery : String} (occurredAt : Option Datetime)
    {target : IssueRef}
    (htarget : mergeTarget (s.ledger.openHandoffs r.py repo) named = .ok target)
    (hunparked : s.ledger.reasonToDrop target.url ≠ some IssueLedger.doNotWork)
    (hadmitted : r.requireOwnOrTrusted repo actor = .ok ()) (htype : Required eventType)
    (hdelivery : Required delivery) : ∃ event s',
      (r.wakeOnOwnPull repo named actor note skipLine eventType (some delivery) occurredAt).run s =
        (.ok (some event), s') := by
  obtain ⟨event, s', hbuilt⟩ := buildEvent_run s target occurredAt
    (required_handoffTrigger target.url note) htype hdelivery
  refine ⟨event, s', ?_⟩
  unfold wakeOnOwnPull
  rw [Py.run_look_bind]
  simp only [htarget]
  rw [if_neg hunparked]
  refine Py.run_ofExcept_bind_eq_ok.mpr ⟨(), hadmitted, ?_⟩
  exact Py.run_bind_eq_ok.mpr ⟨event, s', hbuilt, rfl⟩

def mergeRoute : GithubRoute := init mergeRuntime {"boss"} mergeBot

theorem merge_run :
    ∃ event s', (mergeRoute.normalize mergeRequest).run handoffState = (.ok (some event), s') := by
  have hevent : mergeRequest.header mergeRoute.py eventHeader = some pullRequestEvent := by
    decide +kernel
  have hdelivery : mergeRequest.header mergeRoute.py deliveryHeader = some "d" := by decide +kernel
  have hdata : parseJsonObject mergeRoute.py mergeRequest.body = .ok mergeData := rfl
  have hpull : (mergeData.get "pull_request").asObj = some mergePull := by rfl
  have hrepo : repoFullName mergeData = some "o/r" := by rfl
  have hobserve : (mergeRoute.observeReported mergeData).run handoffState =
      (.ok (), handoffState) := by rfl
  have hnamed : namedIssues mergeRoute.py mergePull "o/r" = .ok {5} := by rfl
  have htarget : mergeTarget (handoffState.ledger.openHandoffs mergeRoute.py "o/r") {5} =
      .ok handoffIssue := by rfl
  have hunparked : handoffState.ledger.reasonToDrop handoffIssue.url ≠
      some IssueLedger.doNotWork := by decide +kernel
  have hadmitted : mergeRoute.requireOwnOrTrusted "o/r" (some "basecradle-r-ai[bot]") = .ok () := by
    rfl
  have htype : Required pullRequestEvent := by decide
  have hrequired : Required "d" := by decide
  obtain ⟨event, s', hwake⟩ := wakeOnOwnPull_run
    (mergeNote 7 "https://github.com/o/r/pull/7")
    ("event=merge_wake_skip " ++
      Logfmt.logFields [("pull_request", .str "https://github.com/o/r/pull/7")]) none
    htarget hunparked hadmitted htype hrequired
  refine ⟨event, s', ?_⟩
  unfold normalize
  simp only [hevent, hdelivery]
  rw [if_neg (by decide), if_neg (by decide), if_true]
  refine Py.run_ofExcept_bind_eq_ok.mpr ⟨mergeData, hdata, ?_⟩
  refine Py.run_bind_eq_ok.mpr ⟨(), handoffState, hobserve, ?_⟩
  simp only [hpull, hrepo]
  rw [if_neg (by decide +kernel), if_neg (by decide +kernel), if_neg (by decide +kernel)]
  refine Py.run_ofExcept_bind_eq_ok.mpr ⟨7, rfl, ?_⟩
  refine Py.run_ofExcept_bind_eq_ok.mpr ⟨_, rfl, ?_⟩
  exact Py.run_ofExcept_bind_eq_ok.mpr ⟨{5}, hnamed, hwake⟩

theorem wakes_only_authorised_merge : ∃ event data actor,
    MergeWake mergeRuntime {"boss"} mergeBot handoffState data actor event := by
  obtain ⟨event, s', hrun⟩ := merge_run
  obtain ⟨data, actor, -, hwake, -⟩ := wakes_only_authorised mergeRuntime {"boss"} mergeBot
    mergeRequest handoffState s' event hrun
  rcases hwake with ⟨hissues, -⟩ | ⟨hcomment, -⟩ | ⟨-, hmerge⟩ | ⟨hfailed, -⟩
  · exact absurd hissues (by decide +kernel)
  · exact absurd hcomment (by decide +kernel)
  · exact ⟨event, data, actor, hmerge⟩
  · exact absurd hfailed (by decide +kernel)

end GithubRoute

end BasecradleRouter.Routes
