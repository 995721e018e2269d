/-
# What a route raises

A route declares two exceptions, and the core answers them.  Whatever else comes up out of
`normalize` is lost: the request is answered with 200, and its sender never learns of it.

`escapes_normalize` lists what that takes on github: a body that `json.loads` gives up on in another
way than a decode error, an issue's action that cannot be hashed, and a pull request with a
reference too long for `int`.  The other two routes have the first alone.
-/
import BasecradleRouter.Routes.Authorised
import BasecradleRouter.Routes.Registered
import BasecradleRouter.Routes.Warm

namespace BasecradleRouter.Routes

open BasecradleRouter.Lib BasecradleRouter.Logfmt BasecradleRouter.Models BasecradleRouter.Config

/-! ## 1. Escaping -/

/-- The exceptions a route declares. -/
def Raised.Declared : Raised → Prop
  | .payload _ => True
  | .untrusted _ => True
  | _ => False

/-- A program raises what no route declares. -/
def Escapes {σ α : Type} (x : Py σ Raised α) (s : σ) : Prop :=
  ∃ e s', x.run s = (.error e, s') ∧ ¬ e.Declared

section

variable {σ α β : Type} {x : Py σ Raised α} {s : σ}

theorem not_escapes (h : Py.Raises Raised.Declared x) : ¬ Escapes x s := by
  rintro ⟨e, s', hrun, hnot⟩
  exact hnot (h s e s' hrun)

/-- A sequence escapes in its first part, or in its second after it. -/
theorem escapes_bind {f : α → Py σ Raised β} :
    Escapes (x >>= f) s ↔
      Escapes x s ∨ ∃ a s₁, x.run s = (.ok a, s₁) ∧ Escapes (f a) s₁ := by
  unfold Escapes
  simp only [Py.run_bind_eq_error]
  constructor
  · rintro ⟨e, s', hx | ⟨a, s₁, hx, hf⟩, hnot⟩
    · exact Or.inl ⟨e, s', hx, hnot⟩
    · exact Or.inr ⟨a, s₁, hx, e, s', hf, hnot⟩
  · rintro (⟨e, s', hx, hnot⟩ | ⟨a, s₁, hx, e, s', hf, hnot⟩)
    · exact ⟨e, s', Or.inl hx, hnot⟩
    · exact ⟨e, s', Or.inr ⟨a, s₁, hx, hf⟩, hnot⟩

theorem escapes_ofExcept {made : Except Raised α} :
    Escapes (Py.ofExcept made : Py σ Raised α) s ↔ ∃ e, made = .error e ∧ ¬ e.Declared := by
  unfold Escapes
  simp only [Py.run_ofExcept, Prod.mk.injEq]
  constructor
  · rintro ⟨e, s', ⟨hmade, -⟩, hnot⟩
    exact ⟨e, hmade, hnot⟩
  · rintro ⟨e, hmade, hnot⟩
    exact ⟨e, s, ⟨hmade, rfl⟩, hnot⟩

/-- A value first. -/
theorem escapes_ofExcept_bind {made : Except Raised α} {f : α → Py σ Raised β} :
    Escapes (Py.ofExcept made >>= f) s ↔
      (∃ e, made = .error e ∧ ¬ e.Declared) ∨ ∃ a, made = .ok a ∧ Escapes (f a) s := by
  rw [escapes_bind, escapes_ofExcept]
  simp only [Py.run_ofExcept, Prod.mk.injEq]
  constructor
  · rintro (h | ⟨a, s₁, ⟨hmade, rfl⟩, hf⟩)
    · exact Or.inl h
    · exact Or.inr ⟨a, hmade, hf⟩
  · rintro (h | ⟨a, hmade, hf⟩)
    · exact Or.inl h
    · exact Or.inr ⟨a, s, ⟨hmade, rfl⟩, hf⟩

end

/-! ## 2. Reading a body -/

/-- `json.loads` raises on a body, and not a decode error. -/
def Unloadable (py : Runtime) (body : List UInt8) : Prop :=
  ∃ name, py.loads body = .error (.other name)

theorem parseJsonObject_escapes {py : Runtime} {body : List UInt8} :
    (∃ e, parseJsonObject py body = .error e ∧ ¬ e.Declared) ↔ Unloadable py body := by
  unfold parseJsonObject Unloadable
  cases py.loads body with
  | error exc =>
    cases exc with
    | decode message => simp [Raised.Declared]
    | other name => simp [Raised.Declared]
  | ok v => cases v <;> simp [Raised.Declared]

theorem parseJsonObject_ok {py : Runtime} {body : List UInt8} {data : Fields} :
    parseJsonObject py body = .ok data ↔ py.loads body = .ok (.obj data) := by
  unfold parseJsonObject
  cases py.loads body with
  | error exc => cases exc <;> simp
  | ok v => cases v <;> simp

/-- A body that is no JSON object is rejected. -/
theorem parseJsonObject_rejects {py : Runtime} {body : List UInt8} (hload : ¬ Unloadable py body)
    (hnot : ∀ data, py.loads body ≠ .ok (.obj data)) :
    ∃ text, parseJsonObject py body = .error (.payload text) := by
  unfold parseJsonObject
  cases hread : py.loads body with
  | error exc =>
    cases exc with
    | decode message => exact ⟨_, rfl⟩
    | other name => exact absurd ⟨name, hread⟩ hload
  | ok v =>
    cases v with
    | obj fields => exact absurd hread (hnot fields)
    | _ => exact ⟨_, rfl⟩

/-! ## 3. The github route -/

theorem inSet_error {v : Json} {texts : List String} {e : Raised} (h : inSet v texts = .error e) :
    ¬ e.Declared := by
  unfold inSet at h
  cases hset : v.inSet texts with
  | error text =>
    rw [hset] at h
    cases h
    exact id
  | ok b =>
    rw [hset] at h
    cases h

theorem issueReport_error {py : Runtime} {data : Fields} {eventType : String} {e : Raised}
    (h : issueReport py data eventType = .error e) : ¬ e.Declared := by
  unfold issueReport at h
  split at h
  · cases h
  split at h
  · cases h
  split at h
  · split at h
    · cases h
    · rcases bind_eq_error.mp h with hfirst | ⟨first, -, h⟩
      · exact inSet_error hfirst
      · rcases bind_eq_error.mp h with hsecond | ⟨second, -, h⟩
        · exact inSet_error hsecond
        · cases h
  · cases h

theorem namedIssues_error {py : Runtime} {pull : Fields} {repo : String} {e : Raised}
    (h : namedIssues py pull repo = .error e) : ¬ e.Declared := by
  unfold namedIssues at h
  generalize (∅ : Finset ℕ) = named at h
  generalize findReferences py none 0 (pullText pull) = references at h
  induction references generalizing named with
  | nil => cases h
  | cons reference references ih =>
    unfold collect at h
    split at h
    · split at h
      · next e' hread =>
        cases h
        unfold readInt at hread
        split at hread
        · cases hread
          exact id
        · cases hread
      · exact ih _ h
    · exact ih _ h

theorem pullReport_error {py : Runtime} {repo : String} {pull : Json} {e : Raised}
    (h : pullReport py repo pull = .error e) : ¬ e.Declared := by
  unfold pullReport at h
  split at h
  · cases h
  split at h
  · split at h
    · cases h
    · rcases bind_eq_error.mp h with hnamed | ⟨named, -, h⟩
      · exact namedIssues_error hnamed
      · cases h
  · cases h

namespace GithubRoute

variable (r : GithubRoute)

/-- **Observing an issue** escapes for an action that cannot be hashed. -/
theorem escapes_observeIssue {data : Fields} {eventType : String} {s : State} :
    Escapes (r.observeIssue data eventType) s ↔ IssueWellFormed r.py data ∧
      eventType = issuesEvent ∧ Unhashable (Fields.get data "action") := by
  have hlook : Escapes (r.observeIssue data eventType) s ↔
      Escapes (Py.ofExcept (s.ledger.observe r.py data eventType) >>= fun ledger =>
        Py.change fun s : State => { s with ledger := ledger }) s := Iff.rfl
  have hrest : ∀ ledger, ¬ Escapes (Py.change fun s : State => { s with ledger := ledger }) s :=
    fun ledger => not_escapes (Py.raises_change _)
  rw [hlook, escapes_ofExcept_bind]
  constructor
  · rintro (⟨e, hobserve, -⟩ | ⟨ledger, -, hrun⟩)
    · by_contra hnot
      obtain ⟨after, hafter, -⟩ := (observe_issue_iff s.ledger data eventType).mpr hnot
      rw [hafter] at hobserve
      cases hobserve
    · exact absurd hrun (hrest ledger)
  · rintro ⟨hwell, hbad⟩
    rcases issueReport_wellFormed r.py eventType hwell with ⟨-, hnot⟩ |
      ⟨⟨e, hread⟩, -⟩
    · exact absurd hbad hnot
    · refine Or.inl ⟨e, ?_, issueReport_error hread⟩
      unfold IssueLedger.observe
      rw [hread]
      rfl

/-- **Observing a pull request** escapes for a reference too long for `int`. -/
theorem escapes_observePull {repo : String} {pull : Json} {s : State} :
    Escapes (r.observePull repo pull) s ↔
      ∃ fields, pull.asObj = some fields ∧ PullWellFormed r.py fields ∧
        Overlong r.py repo fields := by
  have hlook : Escapes (r.observePull repo pull) s ↔
      Escapes (Py.ofExcept (s.pulls.observe r.py repo pull) >>= fun pulls =>
        Py.change fun s : State => { s with pulls := pulls }) s := Iff.rfl
  have hrest : ∀ pulls, ¬ Escapes (Py.change fun s : State => { s with pulls := pulls }) s :=
    fun pulls => not_escapes (Py.raises_change _)
  rw [hlook, escapes_ofExcept_bind]
  constructor
  · rintro (⟨e, hobserve, -⟩ | ⟨pulls, -, hrun⟩)
    · cases hpull : pull.asObj with
      | none =>
        unfold PullLedger.observe pullReport at hobserve
        rw [hpull] at hobserve
        cases hobserve
      | some fields =>
        obtain rfl : pull = .obj fields := by
          cases pull <;> cases hpull
          rfl
        refine ⟨fields, rfl, ?_⟩
        by_contra hnot
        obtain ⟨after, hafter, -⟩ := (observe_pull_iff s.pulls repo fields).mpr hnot
        rw [hafter] at hobserve
        cases hobserve
    · exact absurd hrun (hrest pulls)
  · rintro ⟨fields, hpull, hwell, hlong⟩
    obtain rfl : pull = .obj fields := by
      cases pull <;> cases hpull
      rfl
    rcases pullReport_wellFormed r.py repo hwell with ⟨-, hnot⟩ | ⟨⟨e, hread⟩, -⟩
    · exact absurd hlong hnot
    · refine Or.inl ⟨e, ?_, pullReport_error hread⟩
      unfold PullLedger.observe
      rw [hread]
      rfl

/-! ### What declares -/

theorem declares_log (line : String) : Py.Raises Raised.Declared (log line) := Py.raises_change _

theorem declares_ignore (eventType delivery : Option String) :
    Py.Raises Raised.Declared (ignore eventType delivery) :=
  (declares_log _).bind fun _ => Py.raises_pure _

theorem declares_skipDoNotWork (url eventType delivery : Option String) :
    Py.Raises Raised.Declared (skipDoNotWork url eventType delivery) :=
  (declares_log _).bind fun _ => declares_ignore _ _

theorem declares_skipPullWake (skipLine reason : String) (eventType delivery : Option String) :
    Py.Raises Raised.Declared (skipPullWake skipLine reason eventType delivery) :=
  (declares_log _).bind fun _ => declares_ignore _ _

theorem declares_malformed {α : Type} (eventType : String) (made : Except String α) :
    Py.Raises Raised.Declared (Py.ofExcept (malformed eventType made) : Method α) := by
  refine Py.raises_ofExcept fun e h => ?_
  cases made with
  | error text =>
    cases h
    trivial
  | ok a => cases h

theorem declares_text (obj : Fields) (key label : String) :
    Py.Raises Raised.Declared (Py.ofExcept (text obj key label) : Method String) := by
  refine Py.raises_ofExcept fun e h => ?_
  unfold text at h
  split at h
  · cases h
  · cases h
    trivial

theorem declares_int (obj : Fields) (key label : String) :
    Py.Raises Raised.Declared (Py.ofExcept (int obj key label) : Method ℤ) := by
  refine Py.raises_ofExcept fun e h => ?_
  unfold int at h
  split at h
  · cases h
  · cases h
    trivial

theorem declares_requireIssue (data : Fields) :
    Py.Raises Raised.Declared (Py.ofExcept (requireIssue data) : Method Fields) := by
  refine Py.raises_ofExcept fun e h => ?_
  unfold requireIssue at h
  split at h
  · cases h
  · cases h
    trivial

theorem requireTrustedLogin_error {login : Option String} {e : Raised}
    (h : r.requireTrustedLogin login = .error e) : e.Declared := by
  unfold requireTrustedLogin at h
  split at h
  · cases h
    trivial
  · split at h
    · cases h
    · cases h
      trivial

theorem declares_buildEvent (origin : IssueRef) (wakeArg eventType : String)
    (delivery : Option String) (occurredAt : Option Datetime) :
    Py.Raises Raised.Declared (buildEvent origin wakeArg eventType delivery occurredAt) := by
  unfold buildEvent
  split
  · exact Py.raises_raise trivial
  · exact (declares_malformed _ _).bind fun _ => (declares_log _).bind fun _ => Py.raises_pure _

theorem declares_wakeEvent (data issue : Fields) (eventType : String) (delivery : Option String)
    (occurredAt : Option Datetime) :
    Py.Raises Raised.Declared (r.wakeEvent data issue eventType delivery occurredAt) := by
  unfold wakeEvent
  split
  · exact Py.raises_raise trivial
  · exact (declares_text _ _ _).bind fun _ => (declares_int _ _ _).bind fun _ =>
      (declares_text _ _ _).bind fun _ => (declares_text _ _ _).bind fun _ =>
      (declares_malformed _ _).bind fun _ => declares_buildEvent _ _ _ _ _

theorem declares_wakeOnOwnPull (repo : String) (named : Finset ℕ) (actor : Option String)
    (note skipLine eventType : String) (delivery : Option String)
    (occurredAt : Option Datetime) : Py.Raises Raised.Declared
      (r.wakeOnOwnPull repo named actor note skipLine eventType delivery occurredAt) := by
  unfold wakeOnOwnPull
  refine (Py.raises_look _).bind fun ledger => ?_
  split
  · exact declares_skipPullWake _ _ _ _
  · split
    · exact declares_skipDoNotWork _ _ _
    · refine (Py.raises_ofExcept fun e h => ?_).bind fun _ =>
        (declares_buildEvent _ _ _ _ _).bind fun _ => Py.raises_pure _
      unfold requireOwnOrTrusted at h
      split at h
      · cases h
      · exact r.requireTrustedLogin_error h

/-! ### The four deliveries -/

variable {r} {request : InboundRequest} {eventType : String} {delivery : Option String} {s : State}

/-- A body is parsed first. -/
theorem escapes_parsed {α : Type} {f : Fields → Method α} :
    Escapes (Py.ofExcept (parseJsonObject r.py request.body) >>= f) s ↔
      Unloadable r.py request.body ∨
        ∃ data, r.py.loads request.body = .ok (.obj data) ∧ Escapes (f data) s := by
  rw [escapes_ofExcept_bind, parseJsonObject_escapes]
  simp only [parseJsonObject_ok]

theorem escapes_normalizeIssues :
    Escapes (r.normalizeIssues request issuesEvent delivery) s ↔
      Unloadable r.py request.body ∨ ∃ data, r.py.loads request.body = .ok (.obj data) ∧
        Unhashable (Fields.get data "action") := by
  unfold normalizeIssues
  rw [escapes_parsed]
  refine or_congr_right (exists_congr fun data => and_congr_right fun _ => ?_)
  constructor
  · intro h
    rcases escapes_bind.mp h with h | ⟨-, s₁, -, h⟩
    · exact (r.escapes_observeIssue.mp h).2.2
    · rcases escapes_ofExcept_bind.mp h with ⟨e, he, -⟩ | ⟨actionable, -, h⟩
      · exact inSet_raises.mp ⟨e, he⟩
      · -- what comes after it declares what it raises
        refine absurd h (not_escapes ?_)
        split
        · exact declares_ignore _ _
        refine (declares_requireIssue _).bind fun issue => ?_
        split
        · exact declares_ignore _ _
        split
        · exact declares_skipDoNotWork _ _ _
        refine (Py.raises_ofExcept fun e h => r.requireTrustedLogin_error h).bind fun _ => ?_
        exact (r.declares_wakeEvent _ _ _ _ _).bind fun _ => Py.raises_pure _
  · intro haction
    refine escapes_bind.mpr ?_
    by_cases hobserve : Escapes (r.observeIssue data issuesEvent) s
    · exact Or.inl hobserve
    · refine Or.inr ?_
      rcases hrun : (r.observeIssue data issuesEvent).run s with ⟨e | u, s₁⟩
      · refine absurd ⟨e, s₁, hrun, ?_⟩ hobserve
        unfold observeIssue at hrun
        rw [Py.run_look_bind] at hrun
        rcases Py.run_bind_eq_error.mp hrun with hobserved | ⟨_, _, -, hchange⟩
        · unfold IssueLedger.observe at hobserved
          rw [Py.run_ofExcept, Prod.mk.injEq] at hobserved
          rcases bind_eq_error.mp hobserved.1 with hread | ⟨report, -, hreport⟩
          · exact issueReport_error hread
          · split at hreport <;> cases hreport
        · cases hchange
      · refine ⟨u, s₁, rfl, escapes_ofExcept_bind.mpr (Or.inl ?_)⟩
        obtain ⟨e, he⟩ : ∃ e, inSet (Fields.get data "action") actionableActions = .error e :=
          inSet_raises.mpr haction
        exact ⟨e, he, inSet_error he⟩

theorem escapes_normalizeComment :
    Escapes (r.normalizeComment request issueCommentEvent delivery) s ↔
      Unloadable r.py request.body := by
  unfold normalizeComment
  rw [escapes_parsed]
  refine or_iff_left ?_
  rintro ⟨data, -, h⟩
  rcases escapes_bind.mp h with h | ⟨-, s₁, -, h⟩
  · exact absurd (r.escapes_observeIssue.mp h).2.1 (by decide)
  · refine absurd h (not_escapes ?_)
    split
    · exact declares_ignore _ _
    refine (declares_requireIssue _).bind fun issue => ?_
    split
    · exact declares_ignore _ _
    split
    · exact declares_ignore _ _
    split
    · exact declares_skipDoNotWork _ _ _
    split
    · exact declares_ignore _ _
    refine (Py.raises_ofExcept fun e h => r.requireTrustedLogin_error h).bind fun _ => ?_
    exact (r.declares_wakeEvent _ _ _ _ _).bind fun _ => Py.raises_pure _

theorem escapes_normalizeWorkflowRun :
    Escapes (r.normalizeWorkflowRun request workflowRunEvent delivery) s ↔
      Unloadable r.py request.body := by
  unfold normalizeWorkflowRun
  rw [escapes_parsed]
  refine or_iff_left ?_
  rintro ⟨data, -, h⟩
  refine absurd h (not_escapes ?_)
  split
  · exact declares_ignore _ _
  split
  · exact declares_ignore _ _
  split
  · exact declares_ignore _ _
  split
  · exact Py.raises_raise trivial
  dsimp only
  split
  · exact declares_ignore _ _
  refine (Py.raises_look _).bind fun pulls => ?_
  split
  · exact declares_skipPullWake _ _ _ _
  split
  · exact declares_ignore _ _
  split
  · exact declares_skipPullWake _ _ _ _
  · exact r.declares_wakeOnOwnPull _ _ _ _ _ _ _ _
  · exact declares_skipPullWake _ _ _ _

end GithubRoute

/-- The merge of the captain's own pull request, as far as its references are read for. -/
structure OwnMerge (py : Runtime) (bots : String → Option String) (repo : String)
    (data pull : Fields) : Prop where
  closed : (Fields.get data "action").isText actionablePullRequestAction = true
  merged : (Fields.get pull "merged").isTrue = true
  own : ∃ login bot, authorLogin (.obj pull) "user" = some login ∧ bots repo = some bot ∧
    bot ≠ "" ∧ py.lower login = py.lower bot
  number : ∃ number, (Fields.get pull "number").asInt = some number
  url : ∃ url, (Fields.get pull "html_url").asStr = some url

/-- A pull request's delivery whose references are read, one of them too long. -/
def HostilePull (py : Runtime) (bots : String → Option String) (data : Fields) : Prop :=
  ∃ repo pull, repoFullName data = some repo ∧ (Fields.get data "pull_request").asObj = some pull ∧
    Overlong py repo pull ∧ (PullWellFormed py pull ∨ OwnMerge py bots repo data pull)

namespace GithubRoute

variable {r : GithubRoute} {request : InboundRequest} {delivery : Option String} {s : State}

theorem own_iff {repo : String} {pull : Fields} :
    (authorLogin (.obj pull) "user").any (r.isCaptainBot repo) = true ↔
      ∃ login bot, authorLogin (.obj pull) "user" = some login ∧ r.botLoginForRepo repo = some bot ∧
        bot ≠ "" ∧ r.py.lower login = r.py.lower bot := by
  unfold isCaptainBot
  cases authorLogin (.obj pull) "user" with
  | none => simp
  | some login => cases r.botLoginForRepo repo <;> simp

/-- An observation that does not escape returns. -/
theorem observeReported_returns (r : GithubRoute) {data : Fields} {s : State}
    (h : ¬ Escapes (r.observeReported data) s) :
    ∃ s', (r.observeReported data).run s = (.ok (), s') := by
  rcases hrun : (r.observeReported data).run s with ⟨e | u, s'⟩
  · refine absurd ⟨e, s', hrun, ?_⟩ h
    unfold observeReported at hrun
    split at hrun
    · unfold observePull at hrun
      rw [Py.run_look_bind] at hrun
      rcases Py.run_bind_eq_error.mp hrun with hobserved | ⟨_, _, -, hchange⟩
      · unfold PullLedger.observe at hobserved
        rw [Py.run_ofExcept, Prod.mk.injEq] at hobserved
        rcases bind_eq_error.mp hobserved.1 with hread | ⟨report, -, hreport⟩
        · exact pullReport_error hread
        · split at hreport <;> cases hreport
      · cases hchange
    · cases hrun
  · exact ⟨s', rfl⟩

/-- **A pull request's delivery** escapes for a reference too long for `int`, where its references
are read. -/
theorem escapes_normalizePullRequest :
    Escapes (r.normalizePullRequest request pullRequestEvent delivery) s ↔
      Unloadable r.py request.body ∨ ∃ data, r.py.loads request.body = .ok (.obj data) ∧
        HostilePull r.py r.botLoginForRepo data := by
  unfold normalizePullRequest
  rw [escapes_parsed]
  refine or_congr_right (exists_congr fun data => and_congr_right fun _ => ?_)
  rw [escapes_bind]
  constructor
  · rintro (h | ⟨-, s₁, -, h⟩)
    · unfold observeReported at h
      split at h
      · next repo hrepo =>
        obtain ⟨pull, hpull, hwell, hlong⟩ := r.escapes_observePull.mp h
        exact ⟨repo, pull, hrepo, hpull, hlong, Or.inl hwell⟩
      · exact absurd h (not_escapes (Py.raises_pure _))
    · split at h
      · exact absurd h (not_escapes (declares_ignore _ _))
      next pull hpull =>
      split at h
      · exact absurd h (not_escapes (declares_ignore _ _))
      next hclosed =>
      split at h
      · exact absurd h (not_escapes (declares_ignore _ _))
      next hmerged =>
      split at h
      · exact absurd h (not_escapes (Py.raises_raise trivial))
      next repo hrepo =>
      split at h
      · exact absurd h (not_escapes (declares_ignore _ _))
      next hown =>
      rcases escapes_ofExcept_bind.mp h with ⟨e, he, hnot⟩ | ⟨number, hnumber, h⟩
      · exact absurd (declares_int _ _ _ s₁ e s₁ (by rw [Py.run_ofExcept, he])) hnot
      rcases escapes_ofExcept_bind.mp h with ⟨e, he, hnot⟩ | ⟨url, hurl, h⟩
      · exact absurd (declares_text _ _ _ s₁ e s₁ (by rw [Py.run_ofExcept, he])) hnot
      rcases escapes_ofExcept_bind.mp h with ⟨e, he, -⟩ | ⟨named, -, h⟩
      · refine ⟨repo, pull, hrepo, hpull, (namedIssues_raises r.py).mp ⟨e, he⟩, Or.inr ?_⟩
        refine ⟨by simpa using hclosed, by simpa using hmerged, own_iff.mp (by simpa using hown),
          ?_, ?_⟩
        · exact ⟨number, int_ok hnumber⟩
        · exact ⟨url, text_ok hurl⟩
      · exact absurd h (not_escapes (r.declares_wakeOnOwnPull _ _ _ _ _ _ _ _))
  · rintro ⟨repo, pull, hrepo, hpull, hlong, hread⟩
    by_cases hobserve : Escapes (r.observeReported data) s
    · exact Or.inl hobserve
    rcases hread with hwell | hown
    · refine absurd ?_ hobserve
      unfold observeReported
      rw [hrepo]
      exact r.escapes_observePull.mpr ⟨pull, hpull, hwell, hlong⟩
    · refine Or.inr ?_
      obtain ⟨s₁, hrun⟩ := r.observeReported_returns hobserve
      obtain ⟨e, he⟩ := (namedIssues_raises r.py).mpr hlong
      obtain ⟨number, hnumber⟩ := hown.number
      obtain ⟨url, hurl⟩ := hown.url
      refine ⟨(), s₁, hrun, ?_⟩
      rw [hpull]
      dsimp only
      rw [hown.closed, hown.merged, hrepo]
      rw [Bool.not_true, if_neg Bool.false_ne_true, if_neg Bool.false_ne_true]
      dsimp only
      rw [own_iff.mpr hown.own, Bool.not_true, if_neg Bool.false_ne_true]
      refine escapes_ofExcept_bind.mpr (Or.inr ⟨number, ?_, ?_⟩)
      · unfold int
        rw [hnumber]
      refine escapes_ofExcept_bind.mpr (Or.inr ⟨url, ?_, ?_⟩)
      · unfold text
        rw [hurl]
      exact escapes_ofExcept_bind.mpr (Or.inl ⟨e, he, namedIssues_error he⟩)

end GithubRoute

/-- The events whose bodies the github route parses. -/
def githubEvents : List String :=
  [issuesEvent, issueCommentEvent, pullRequestEvent, workflowRunEvent]

/-- What the github route cannot read, though it parses it. -/
structure GithubUnreadable (py : Runtime) (bots : String → Option String)
    (request : InboundRequest) : Prop where
  parsed : ∃ event ∈ githubEvents, request.header py eventHeader = some event
  body : Unloadable py request.body ∨ ∃ data, py.loads request.body = .ok (.obj data) ∧
    ((request.header py eventHeader = some issuesEvent ∧ Unhashable (Fields.get data "action")) ∨
      (request.header py eventHeader = some pullRequestEvent ∧ HostilePull py bots data))

/-- **What escapes the github route's `normalize`.** -/
theorem GithubRoute.escapes_normalize {r : GithubRoute} {request : InboundRequest}
    {s : GithubRoute.State} :
    Escapes (r.normalize request) s ↔ GithubUnreadable r.py r.botLoginForRepo request := by
  have hbody : ∀ {event P}, event ∈ githubEvents → request.header r.py eventHeader = some event →
      ((Unloadable r.py request.body ∨ ∃ data, r.py.loads request.body = .ok (.obj data) ∧
        ((some event = some issuesEvent ∧ Unhashable (Fields.get data "action")) ∨
          (some event = some pullRequestEvent ∧ HostilePull r.py r.botLoginForRepo data))) ↔ P) →
      (P ↔ GithubUnreadable r.py r.botLoginForRepo request) := by
    intro event P hevent hheader hP
    rw [← hP]
    constructor
    · exact fun h => ⟨⟨event, hevent, hheader⟩, by rw [hheader]; exact h⟩
    · rintro ⟨-, h⟩
      rwa [hheader] at h
  unfold GithubRoute.normalize
  dsimp only
  split
  · next hissues =>
    rw [GithubRoute.escapes_normalizeIssues]
    refine hbody (by decide) hissues ?_
    simp [show issuesEvent ≠ pullRequestEvent by decide]
  split
  · next hcomment =>
    rw [GithubRoute.escapes_normalizeComment]
    refine hbody (by decide) hcomment ?_
    simp [show issueCommentEvent ≠ pullRequestEvent by decide,
      show issueCommentEvent ≠ issuesEvent by decide]
  split
  · next hpull =>
    rw [GithubRoute.escapes_normalizePullRequest]
    refine hbody (by decide) hpull ?_
    simp [show pullRequestEvent ≠ issuesEvent by decide]
  split
  · next hrun =>
    rw [GithubRoute.escapes_normalizeWorkflowRun]
    refine hbody (by decide) hrun ?_
    simp [show workflowRunEvent ≠ pullRequestEvent by decide,
      show workflowRunEvent ≠ issuesEvent by decide]
  · next hissues hcomment hpull hrun =>
    refine iff_of_false (not_escapes (GithubRoute.declares_ignore _ _)) ?_
    rintro ⟨⟨event, hevent, hheader⟩, -⟩
    simp only [githubEvents, List.mem_cons, List.not_mem_nil, or_false] at hevent
    rcases hevent with rfl | rfl | rfl | rfl
    · exact hissues hheader
    · exact hcomment hheader
    · exact hpull hheader
    · exact hrun hheader

/-! ## 4. The other routes -/

/-- What a constructor refuses, the basecradle route reports. -/
theorem Basecradle.malformed_error {α : Type} {made : Except String α} {e : Raised}
    (h : Basecradle.malformed made = .error e) : e.Declared := by
  cases made with
  | error text =>
    cases h
    trivial
  | ok a => cases h

theorem Basecradle.text_error {obj : Fields} {key label : String} {e : Raised}
    (h : Basecradle.text obj key label = .error e) : e.Declared := by
  unfold Basecradle.text at h
  split at h
  · split at h
    · cases h
      trivial
    · cases h
  · cases h
    trivial

/-- **What escapes the basecradle route's `normalize`.** -/
theorem Basecradle.normalize_escapes {py : Runtime} {request : InboundRequest} :
    (∃ e, Basecradle.normalize py request = .error e ∧ ¬ e.Declared) ↔
      (request.header py Basecradle.eventHeader).any Basecradle.actionableEvents.contains = true ∧
        Unloadable py request.body := by
  unfold Basecradle.normalize
  dsimp only
  cases hevent : (request.header py Basecradle.eventHeader).any
      Basecradle.actionableEvents.contains with
  | false => simp
  | true =>
    rw [Bool.not_true, if_neg Bool.false_ne_true, ← parseJsonObject_escapes]
    simp only [true_and]
    refine exists_congr fun e => and_congr_left fun hnot => ⟨fun h => ?_, fun h => ?_⟩
    · rcases bind_eq_error.mp h with hparse | ⟨data, -, h⟩
      · exact hparse
      · -- everything after the parse is declared
        refine absurd ?_ hnot
        split at h
        · cases h
          trivial
        rcases bind_eq_error.mp h with h | ⟨_, -, h⟩
        · exact Basecradle.text_error h
        rcases bind_eq_error.mp h with h | ⟨_, -, h⟩
        · exact Basecradle.text_error h
        rcases bind_eq_error.mp h with h | ⟨_, -, h⟩
        · exact Basecradle.malformed_error h
        rcases bind_eq_error.mp h with h | ⟨_, -, h⟩
        · exact Basecradle.malformed_error h
        · cases h
    · exact bind_eq_error.mpr (Or.inl h)

theorem Probe.malformed_error {α : Type} {made : Except String α} {e : Raised}
    (h : Probe.malformed made = .error e) : e.Declared := by
  cases made with
  | error text =>
    cases h
    trivial
  | ok a => cases h

theorem Probe.text_error {obj : Fields} {key : String} {e : Raised}
    (h : Probe.text obj key = .error e) : e.Declared := by
  unfold Probe.text at h
  split at h
  · split at h
    · cases h
      trivial
    · cases h
  · cases h
    trivial

/-- **What escapes the probe route's `normalize`.** -/
theorem Probe.normalize_escapes {py : Runtime} {request : InboundRequest} :
    (∃ e, Probe.normalize py request = .error e ∧ ¬ e.Declared) ↔ Unloadable py request.body := by
  unfold Probe.normalize
  dsimp only
  rw [← parseJsonObject_escapes]
  refine exists_congr fun e => and_congr_left fun hnot => ⟨fun h => ?_, fun h => ?_⟩
  · rcases bind_eq_error.mp h with hparse | ⟨data, -, h⟩
    · exact hparse
    · refine absurd ?_ hnot
      split at h
      · cases h
        trivial
      split at h
      · cases h
        trivial
      rcases bind_eq_error.mp h with h | ⟨_, -, h⟩
      · exact Probe.text_error h
      rcases bind_eq_error.mp h with h | ⟨_, -, h⟩
      · exact Probe.text_error h
      split at h
      · cases h
        trivial
      rcases bind_eq_error.mp h with h | ⟨_, -, h⟩
      · exact Probe.malformed_error h
      rcases bind_eq_error.mp h with h | ⟨_, -, h⟩
      · exact Probe.malformed_error h
      · cases h
  · exact bind_eq_error.mpr (Or.inl h)

/-! ## 5. The registered routes -/

/-- The exceptions that the core answers as a rejection. -/
def Refusal.Declared : Refusal → Prop
  | .payload _ => True
  | .untrusted _ => True
  | _ => False

@[simp] theorem refusal_declared {e : Raised} : e.refusal.Declared ↔ e.Declared := by
  cases e <;> exact Iff.rfl

variable (py : Runtime) (hmac : String → List UInt8 → String) (upper : String → String)

/-- An event whose body its source's route parses. -/
def Parses (source : String) (request : InboundRequest) : Prop :=
  (source = "github" ∧ ∃ event ∈ githubEvents, request.header py eventHeader = some event) ∨
    (source = Basecradle.routeName ∧
      (request.header py Basecradle.eventHeader).any Basecradle.actionableEvents.contains = true) ∨
    source = Probe.routeName

/-- What a source's route cannot read, though it parses it. -/
structure Unreadable (bots : String → Option String) (source : String) (request : InboundRequest) :
    Prop where
  parses : Parses py source request
  body : Unloadable py request.body ∨ (source = "github" ∧
    ∃ data, py.loads request.body = .ok (.obj data) ∧
      ((request.header py eventHeader = some issuesEvent ∧ Unhashable (Fields.get data "action")) ∨
        (request.header py eventHeader = some pullRequestEvent ∧ HostilePull py bots data)))

/-- The route that `build_registry` registers for a source. -/
inductive Registered (config : Config) (source : String) : Route Objects → Prop
  | github (r : GithubRoute) (hsource : source = "github") (hpy : r.py = py)
    (hbots : r.botLoginForRepo = botLoginForRepo config.agents) :
    Registered config source (githubRoute hmac r)
  | basecradle (keyring : Basecradle.RecipientKeyring) (hsource : source = Basecradle.routeName) :
    Registered config source (basecradleRoute py hmac keyring)
  | probe (hsource : source = Probe.routeName) : Registered config source (probeRoute py hmac)

variable {py hmac upper} {config : Config} {source : String} {route : Route Objects}
  {request : InboundRequest} {s : Objects}

theorem registerEnabled_get {enabled : Finset String} {name : String}
    {made : Except String (Route Objects)} {registry registry' : RouteRegistry Objects}
    (h : registerEnabled py enabled name made registry = .ok registry')
    (hget : registry'.routes.get source = some route) :
    registry.routes.get source = some route ∨
      (made = .ok route ∧ route.name = source ∧ name ∈ enabled) := by
  unfold registerEnabled at h
  split at h
  · next henabled =>
    obtain ⟨route', hmade, hregister⟩ := bind_eq_ok.mp h
    rcases RouteRegistry.register_get hregister hget with ⟨hname, rfl⟩ | hget
    · exact Or.inr ⟨hmade, hname.symm, henabled⟩
    · exact Or.inl hget
  · cases h
    exact Or.inl hget

/-- **Only the three routes are registered**, each under its name and where it is enabled. -/
theorem registered {env : OrderedDict String String} {registry : RouteRegistry Objects}
    (h : buildRegistry py hmac upper config env = .ok registry)
    (hget : registry.routes.get source = some route) :
    Registered py hmac config source route ∧ source ∈ config.enabledRoutes := by
  unfold buildRegistry at h
  obtain ⟨first, hfirst, h⟩ := bind_eq_ok.mp h
  obtain ⟨second, hsecond, h⟩ := bind_eq_ok.mp h
  obtain ⟨third, hthird, h⟩ := bind_eq_ok.mp h
  obtain ⟨-, -, h⟩ := bind_eq_ok.mp h
  cases h
  rcases registerEnabled_get hthird hget with hget | ⟨hmade, rfl, henabled⟩
  · rcases registerEnabled_get hsecond hget with hget | ⟨hmade, rfl, henabled⟩
    · rcases registerEnabled_get hfirst hget with hget | ⟨hmade, rfl, henabled⟩
      · cases hget
      · obtain ⟨actors, -, rfl⟩ := map_eq_ok.mp hmade
        exact ⟨.github _ rfl rfl rfl, henabled⟩
    · obtain ⟨keyring, -, rfl⟩ := map_eq_ok.mp hmade
      exact ⟨.basecradle keyring rfl, henabled⟩
  · cases hmade
    exact ⟨.probe rfl, henabled⟩

theorem logged_escapes {α : Type} {made : Except Raised (α × String)} :
    (∃ e s', (logged made).run s = (.error e, s') ∧ ¬ e.Declared) ↔
      ∃ e, made = .error e ∧ ¬ e.Declared := by
  simp only [run_logged]
  cases made with
  | error e =>
    constructor
    · rintro ⟨e', s', h, hnot⟩
      cases h
      exact ⟨e, rfl, fun hdeclared => hnot (refusal_declared.mpr hdeclared)⟩
    · rintro ⟨e', h, hnot⟩
      cases h
      exact ⟨e.refusal, s, rfl, fun hdeclared => hnot (refusal_declared.mp hdeclared)⟩
  | ok made =>
    constructor
    · rintro ⟨e', s', h, -⟩
      cases h
    · rintro ⟨e', h, -⟩
      cases h

theorem githubMethod_escapes {α : Type} {x : GithubRoute.Method α} :
    (∃ e s', (githubMethod x).run s = (.error e, s') ∧ ¬ e.Declared) ↔ Escapes x s.github := by
  unfold githubMethod Escapes
  simp only [Py.run_within, Py.run_mapError]
  rcases x.run s.github with ⟨e | a, github⟩
  · constructor
    · rintro ⟨e', s', h, hnot⟩
      cases h
      exact ⟨e, github, rfl, fun hdeclared => hnot (refusal_declared.mpr hdeclared)⟩
    · rintro ⟨e', s', h, hnot⟩
      cases h
      exact ⟨e.refusal, _, rfl, fun hdeclared => hnot (refusal_declared.mp hdeclared)⟩
  · constructor
    · rintro ⟨e', s', h, -⟩
      cases h
    · rintro ⟨e', s', h, -⟩
      cases h

/-- **What escapes a registered route's `normalize`.** -/
theorem Registered.escapes (h : Registered py hmac config source route) :
    (∃ e s', (route.normalize request).run s = (.error e, s') ∧ ¬ e.Declared) ↔
      Unreadable py (botLoginForRepo config.agents) source request := by
  have hgithub : "github" ≠ Basecradle.routeName ∧ "github" ≠ Probe.routeName ∧
      Basecradle.routeName ≠ Probe.routeName := by decide
  cases h with
  | github r hsource hpy hbots =>
    subst hpy
    show (∃ e s', (githubMethod (r.normalize request)).run s = (.error e, s') ∧ ¬ e.Declared) ↔ _
    rw [githubMethod_escapes, GithubRoute.escapes_normalize, hbots]
    constructor
    · rintro ⟨hparsed, hbody⟩
      exact ⟨Or.inl ⟨hsource, hparsed⟩, hbody.imp_right fun h => ⟨hsource, h⟩⟩
    · rintro ⟨hparses, hbody⟩
      refine ⟨?_, hbody.imp_right And.right⟩
      rcases hparses with ⟨-, hparsed⟩ | ⟨hother, -⟩ | hother
      · exact hparsed
      · exact absurd (hsource.symm.trans hother) hgithub.1
      · exact absurd (hsource.symm.trans hother) hgithub.2.1
  | basecradle keyring hsource =>
    show (∃ e s', (logged (Basecradle.normalize py request)).run s = (.error e, s') ∧
      ¬ e.Declared) ↔ _
    rw [logged_escapes, Basecradle.normalize_escapes]
    constructor
    · rintro ⟨hparsed, hload⟩
      exact ⟨Or.inr (Or.inl ⟨hsource, hparsed⟩), Or.inl hload⟩
    · rintro ⟨hparses, hbody⟩
      refine ⟨?_, hbody.resolve_right fun h => hgithub.1 (h.1.symm.trans hsource)⟩
      rcases hparses with ⟨hother, -⟩ | ⟨-, hparsed⟩ | hother
      · exact absurd (hother.symm.trans hsource) hgithub.1
      · exact hparsed
      · exact absurd (hsource.symm.trans hother) hgithub.2.2
  | probe hsource =>
    show (∃ e s', (logged ((Probe.normalize py request).map fun made =>
      (some made.1, made.2))).run s = (.error e, s') ∧ ¬ e.Declared) ↔ _
    rw [logged_escapes]
    have hmap : (∃ e, ((Probe.normalize py request).map fun made => (some made.1, made.2)) =
        .error e ∧ ¬ e.Declared) ↔ ∃ e, Probe.normalize py request = .error e ∧ ¬ e.Declared := by
      cases Probe.normalize py request with
      | error e =>
        constructor
        · rintro ⟨e', h, hnot⟩
          cases h
          exact ⟨e, rfl, hnot⟩
        · rintro ⟨e', h, hnot⟩
          cases h
          exact ⟨e, rfl, hnot⟩
      | ok made => exact iff_of_false (by rintro ⟨e, h, -⟩; cases h) (by rintro ⟨e, h, -⟩; cases h)
    rw [hmap, Probe.normalize_escapes]
    constructor
    · exact fun hload => ⟨Or.inr (Or.inr hsource), Or.inl hload⟩
    · rintro ⟨-, hbody⟩
      exact hbody.resolve_right fun h => hgithub.2.1 (h.1.symm.trans hsource)

theorem GithubRoute.normalize_rejects {r : GithubRoute} {s : GithubRoute.State} {text : String}
    (hparsed : ∃ event ∈ githubEvents, request.header r.py eventHeader = some event)
    (hbody : parseJsonObject r.py request.body = .error (.payload text)) :
    (r.normalize request).run s = (.error (.payload text), s) := by
  have hfirst : ∀ {f : Fields → GithubRoute.Method (Option Event)},
      (Py.ofExcept (parseJsonObject r.py request.body) >>= f).run s =
        (.error (.payload text), s) := by
    intro f
    rw [Py.run_bind, Py.run_ofExcept, hbody]
  obtain ⟨event, hevent, hheader⟩ := hparsed
  unfold GithubRoute.normalize
  dsimp only
  rw [hheader]
  simp only [githubEvents, List.mem_cons, List.not_mem_nil, or_false] at hevent
  rcases hevent with rfl | rfl | rfl | rfl
  · rw [if_pos rfl]
    exact hfirst
  · rw [if_neg (by decide), if_pos rfl]
    exact hfirst
  · rw [if_neg (by decide), if_neg (by decide), if_pos rfl]
    exact hfirst
  · rw [if_neg (by decide), if_neg (by decide), if_neg (by decide), if_pos rfl]
    exact hfirst

/-- **A body that is no JSON object**, of an event that is parsed, is rejected. -/
theorem Registered.rejects (h : Registered py hmac config source route)
    (hparses : Parses py source request) (hload : ¬ Unloadable py request.body)
    (hnot : ∀ data, py.loads request.body ≠ .ok (.obj data)) :
    ∃ text s', (route.normalize request).run s = (.error (.payload text), s') := by
  have hgithub : "github" ≠ Basecradle.routeName ∧ "github" ≠ Probe.routeName ∧
      Basecradle.routeName ≠ Probe.routeName := by decide
  obtain ⟨text, hbody⟩ := parseJsonObject_rejects hload hnot
  cases h with
  | github r hsource hpy hbots =>
    subst hpy
    have hparsed : ∃ event ∈ githubEvents, request.header r.py eventHeader = some event := by
      rcases hparses with ⟨-, hparsed⟩ | ⟨hother, -⟩ | hother
      · exact hparsed
      · exact absurd (hsource.symm.trans hother) hgithub.1
      · exact absurd (hsource.symm.trans hother) hgithub.2.1
    refine ⟨text, s, ?_⟩
    show (githubMethod (r.normalize request)).run s = _
    unfold githubMethod
    rw [Py.run_within, Py.run_mapError, GithubRoute.normalize_rejects hparsed hbody]
    rfl
  | basecradle keyring hsource =>
    have hparsed : (request.header py Basecradle.eventHeader).any
        Basecradle.actionableEvents.contains = true := by
      rcases hparses with ⟨hother, -⟩ | ⟨-, hparsed⟩ | hother
      · exact absurd (hother.symm.trans hsource) hgithub.1
      · exact hparsed
      · exact absurd (hsource.symm.trans hother) hgithub.2.2
    have hnormalize : Basecradle.normalize py request = .error (.payload text) := by
      unfold Basecradle.normalize
      dsimp only
      rw [hparsed, Bool.not_true, if_neg Bool.false_ne_true, hbody]
      rfl
    refine ⟨text, s, ?_⟩
    show (logged (Basecradle.normalize py request)).run s = _
    rw [run_logged, hnormalize]
    rfl
  | probe hsource =>
    have hnormalize : Probe.normalize py request = .error (.payload text) := by
      unfold Probe.normalize
      dsimp only
      rw [hbody]
      rfl
    refine ⟨text, s, ?_⟩
    show (logged ((Probe.normalize py request).map fun made => (some made.1, made.2))).run s = _
    rw [run_logged, hnormalize]
    rfl

end BasecradleRouter.Routes
