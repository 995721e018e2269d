/-
# What the router remembers of issues and pull requests

The route keeps the newest state of each handoff issue, and of each pull request, as GitHub's own
deliveries reported it: an `IssueLedger` by the issue's url and a `PullLedger` by repository and
number.  Both are ordered by the payload's `updated_at`, not by arrival, and hold a bounded number
of entries.

`issueReport` and `pullReport` read a payload, and answer nothing where it is malformed; what they
can raise is Python's own (an unhashable action, a numeral too long).  `record` is the locked
section of `observe`.  A ledger carries what its entries promise: an issue's reference has the url
it is kept under, and a pull request the number.

`mem_openHandoffs` says which issues a merge may wake its captain on, and `reasonToDrop_of_open`
what the re-check answers for one of them.
-/
import BasecradleRouter.Lib.Lru
import BasecradleRouter.Models
import BasecradleRouter.Routes.References

namespace BasecradleRouter.Routes

open BasecradleRouter.Lib BasecradleRouter.Models

/-- `LEDGER_CAPACITY` -/
def ledgerCapacity : ℕ := 1024

def issuesEvent : String := "issues"

def handoffLabel : String := "handoff"

def doNotWorkLabel : String := "Do Not Work"

/-- `_STATE_ACTIONS` -/
def stateActions : List String := ["opened", "closed", "reopened"]

/-- `_LABEL_ACTIONS` -/
def labelActions : List String := ["opened", "labeled", "unlabeled"]

/-- A test of set membership, raising as Python's. -/
def inSet (v : Json) (texts : List String) : Except Raised Bool :=
  (v.inSet texts).mapError .typeError

/-! ## 1. Reading a payload -/

/-- A text, unless it is empty. -/
def nonEmpty (text : String) : Option String := if text = "" then none else some text

/-- `_repo_full_name` -/
def repoFullName (data : Fields) : Option String := do
  let repository ← (data.get "repository").asObj
  nonEmpty (← (repository.get "full_name").asStr)

/-- `_author_login` -/
def authorLogin (obj : Json) (key : String) : Option String := do
  let user ← ((← obj.asObj).get key).asObj
  nonEmpty (← (user.get "login").asStr)

variable (py : Runtime)

/-- `_issue_ref` -/
def issueRef (data issue : Fields) (url : String) : Option IssueRef := do
  let repo ← repoFullName data
  let title ← (issue.get "title").asStr
  let number ← (issue.get "number").asInt
  (IssueRef.make py.repr repo number url title).toOption

theorem issueRef_url {data issue : Fields} {url : String} {ref : IssueRef}
    (h : ref ∈ issueRef py data issue url) : ref.url = url := by
  simp only [issueRef, Option.mem_def, Option.bind_eq_bind, Option.bind_eq_some_iff] at h
  obtain ⟨repo, -, title, -, number, -, hmake⟩ := h
  cases hm : IssueRef.make py.repr repo number url title with
  | error e => rw [hm] at hmake; cases hmake
  | ok made =>
    rw [hm] at hmake
    cases hmake
    exact (IssueRef.make_ok hm).2.2.1

/-! ## 2. Issues -/

/-- Issue 5 of `o/r`, a handoff. -/
def handoffIssue : IssueRef :=
  ⟨"o/r", 5, "https://github.com/o/r/issues/5", "Work", by decide, by decide, by decide, by decide⟩

/-- One handoff issue as deliveries reported it. -/
structure IssueState where
  updatedAt : Datetime
  isOpen : Bool
  labels : Finset String
  stateFirstHand : Bool
  labelsFirstHand : Bool
  ref : Option IssueRef

/-- What a payload reports of the issue at `url`. -/
structure IssueReport where
  url : String
  state : IssueState
  ref_url : ∀ ref ∈ state.ref, ref.url = url

/-- The names of the labels that have one. -/
def labelNames (labels : List Json) : Finset String :=
  (labels.filterMap fun label => do (← label.asObj).get "name" |>.asStr).toFinset

/-- The part of `IssueLedger.observe` before the lock. -/
def issueReport (data : Fields) (eventType : String) : Except Raised (Option IssueReport) :=
  match (data.get "issue").asObj with
  | none => .ok none
  | some issue =>
    if !(issue.get "pull_request").isNull then .ok none
    else
      match (issue.get "html_url").asStr, (issue.get "state").asStr, (issue.get "labels").asArr,
        parseTimestamp py (issue.get "updated_at") with
      | some url, some state, some labels, some updatedAt =>
        if url = "" || !(["open", "closed"].contains state) then .ok none
        else do
          let action := if eventType = issuesEvent then data.get "action" else .null
          let stateFirstHand ← inSet action stateActions
          let labelsFirstHand ← inSet action labelActions
          return some {
            url := url
            state := {
              updatedAt := updatedAt
              isOpen := state == "open"
              labels := labelNames labels
              stateFirstHand := stateFirstHand
              labelsFirstHand := labelsFirstHand
              ref := issueRef py data issue url }
            ref_url := fun _ h => issueRef_url py h }
      | _, _, _, _ => .ok none

/-- `_settle_tie` -/
def settleTie (known report : IssueState) : IssueState :=
  let keepState := known.stateFirstHand && !report.stateFirstHand
  let keepLabels := known.labelsFirstHand && !report.labelsFirstHand
  { updatedAt := report.updatedAt
    isOpen := if keepState then known.isOpen else report.isOpen
    labels := if keepLabels then known.labels else report.labels
    stateFirstHand := known.stateFirstHand || report.stateFirstHand
    labelsFirstHand := known.labelsFirstHand || report.labelsFirstHand
    ref := report.ref.or known.ref }

/-- The newest state of each handoff issue, by its url. -/
structure IssueLedger where
  capacity : ℕ
  issues : Lru String IssueState
  capacity_pos : 1 ≤ capacity
  bounded : issues.toList.length ≤ capacity
  ref_url : ∀ url state, (url, state) ∈ issues.toList → ∀ ref ∈ state.ref, ref.url = url

namespace IssueLedger

/-- `IssueLedger()` -/
def empty : IssueLedger where
  capacity := ledgerCapacity
  issues := Lru.empty
  capacity_pos := by decide
  bounded := by simp [Lru.empty]
  ref_url _ _ h := absurd h List.not_mem_nil

variable (ledger : IssueLedger)

/-- The state an issue is known in. -/
def get (url : String) : Option IssueState := ledger.issues.get url

/-- `self._issues[url] = report`, moved to the end, and the oldest let go. -/
def put (report : IssueReport) : IssueLedger where
  capacity := ledger.capacity
  issues := ledger.issues.put ledger.capacity report.url report.state
  capacity_pos := ledger.capacity_pos
  bounded := Lru.length_evict_le _ _
  ref_url url state hmem ref href := by
    rcases Lru.mem_of_mem_put hmem with ⟨rfl, rfl⟩ | hold
    · exact report.ref_url ref href
    · exact ledger.ref_url url state hold ref href

/-- What the ledger knows is kept under its own url. -/
theorem get_ref_url {ledger : IssueLedger} {url : String} {state : IssueState}
    (h : ledger.get url = some state) : ∀ ref ∈ state.ref, ref.url = url :=
  ledger.ref_url url state (Lru.get_eq_some.mp h)

/-- The locked section of `observe`. -/
def record (report : IssueReport) : IssueLedger :=
  match hknown : ledger.get report.url with
  | none => if handoffLabel ∈ report.state.labels then ledger.put report else ledger
  | some known =>
    if report.state.updatedAt.instant < known.updatedAt.instant then ledger
    else if report.state.updatedAt.instant = known.updatedAt.instant then
      ledger.put {
        url := report.url
        state := settleTie known report.state
        ref_url := fun ref href => by
          rcases Option.or_eq_some_iff.mp href with h | ⟨-, h⟩
          · exact report.ref_url ref h
          · exact get_ref_url hknown ref h }
    else ledger.put report

/-- `observe` -/
def observe (data : Fields) (eventType : String) : Except Raised IssueLedger := do
  match ← issueReport py data eventType with
  | none => return ledger
  | some report => return ledger.record report

def issueClosed : String := "issue_closed"

def doNotWork : String := "do_not_work"

def handoffRemoved : String := "handoff_removed"

/-- `reason_to_drop` -/
def reasonToDrop (url : String) : Option String :=
  match ledger.get url with
  | none => none
  | some known =>
    if !known.isOpen then some issueClosed
    else if doNotWorkLabel ∈ known.labels then some doNotWork
    else if handoffLabel ∈ known.labels then none
    else some handoffRemoved

/-- `open_handoffs`, least recently reported first. -/
def openHandoffs (repo : String) : List IssueRef :=
  ledger.issues.toList.filterMap fun (_, state) =>
    state.ref.filter fun ref =>
      py.lower ref.repo == py.lower repo && state.isOpen && decide (handoffLabel ∈ state.labels)

/-- The ledger holds the issue as an open handoff of the repository, and in this state. -/
structure HoldsOpen (repo : String) (ref : IssueRef) (state : IssueState) : Prop where
  held : ledger.get ref.url = some state
  ref_eq : state.ref = some ref
  repo_eq : py.lower ref.repo = py.lower repo
  isOpen : state.isOpen = true
  handoff : handoffLabel ∈ state.labels

/-- **The candidates of a merge are the repository's issues that the ledger holds open and
labelled handoff.** -/
theorem mem_openHandoffs {repo : String} {ref : IssueRef} :
    ref ∈ ledger.openHandoffs py repo ↔ ∃ state, ledger.HoldsOpen py repo ref state := by
  simp only [openHandoffs, List.mem_filterMap, Option.filter_eq_some_iff, Bool.and_eq_true,
    beq_iff_eq, decide_eq_true_eq]
  constructor
  · rintro ⟨⟨url, state⟩, hmem, href, ⟨hrepo, hopen⟩, hlabel⟩
    have hurl : ref.url = url := ledger.ref_url url state hmem ref href
    exact ⟨state, Lru.get_eq_some.mpr (by rw [hurl]; exact hmem), href, hrepo, hopen, hlabel⟩
  · rintro ⟨state, hget, href, hrepo, hopen, hlabel⟩
    exact ⟨(ref.url, state), Lru.get_eq_some.mp hget, href, ⟨hrepo, hopen⟩, hlabel⟩

/-- An open handoff is dropped only for the brake. -/
theorem reasonToDrop_of_open {repo : String} {ref : IssueRef} {state : IssueState}
    (h : ledger.HoldsOpen py repo ref state) :
    ledger.reasonToDrop ref.url = some doNotWork ↔ doNotWorkLabel ∈ state.labels := by
  simp [reasonToDrop, h.held, h.isOpen, h.handoff]

end IssueLedger

/-! ## 3. Pull requests -/

/-- One pull request as deliveries reported it. -/
structure PullState where
  updatedAt : Datetime
  isOpen : Bool
  author : String
  number : ℤ
  url : String
  named : Finset ℕ

/-- The part of `PullLedger.observe` before the lock. -/
def pullReport (repo : String) (pull : Json) : Except Raised (Option PullState) :=
  match pull.asObj with
  | none => .ok none
  | some fields =>
    match (fields.get "number").asInt, (fields.get "html_url").asStr, (fields.get "state").asStr,
      authorLogin pull "user", parseTimestamp py (fields.get "updated_at") with
    | some number, some url, some state, some author, some updatedAt =>
      if url = "" || !(["open", "closed"].contains state) then .ok none
      else do
        let named ← namedIssues py fields repo
        return some ⟨updatedAt, state == "open", author, number, url, named⟩
    | _, _, _, _, _ => .ok none

/-- The newest state of each pull request, by its repository in lower case and its number. -/
structure PullLedger where
  capacity : ℕ
  pulls : Lru (String × ℤ) PullState
  capacity_pos : 1 ≤ capacity
  bounded : pulls.toList.length ≤ capacity
  number_eq : ∀ key state, (key, state) ∈ pulls.toList → state.number = key.2

namespace PullLedger

/-- `PullLedger()` -/
def empty : PullLedger where
  capacity := ledgerCapacity
  pulls := Lru.empty
  capacity_pos := by decide
  bounded := by simp [Lru.empty]
  number_eq _ _ h := absurd h List.not_mem_nil

variable (ledger : PullLedger)

/-- `get` -/
def get (repo : String) (number : ℤ) : Option PullState :=
  ledger.pulls.get (py.lower repo, number)

/-- `self._pulls[key] = report`, moved to the end, and the oldest let go. -/
def put (repo : String) (report : PullState) : PullLedger where
  capacity := ledger.capacity
  pulls := ledger.pulls.put ledger.capacity (py.lower repo, report.number) report
  capacity_pos := ledger.capacity_pos
  bounded := Lru.length_evict_le _ _
  number_eq key state hmem := by
    rcases Lru.mem_of_mem_put hmem with ⟨rfl, rfl⟩ | hold
    · rfl
    · exact ledger.number_eq key state hold

/-- The locked section of `observe`. -/
def record (repo : String) (report : PullState) : PullLedger :=
  match ledger.get py repo report.number with
  | none => ledger.put py repo report
  | some known =>
    if report.updatedAt.instant < known.updatedAt.instant ∨
        (report.updatedAt.instant = known.updatedAt.instant ∧ !known.isOpen ∧ report.isOpen) then
      ledger
    else ledger.put py repo report

/-- `observe` -/
def observe (repo : String) (pull : Json) : Except Raised PullLedger := do
  match ← pullReport py repo pull with
  | none => return ledger
  | some report => return ledger.record py repo report

/-- What the ledger knows has the number it was asked for. -/
theorem get_number {ledger : PullLedger} {repo : String} {number : ℤ} {state : PullState}
    (h : ledger.get py repo number = some state) : state.number = number :=
  ledger.number_eq _ state (Lru.get_eq_some.mp h)

end PullLedger

end BasecradleRouter.Routes
