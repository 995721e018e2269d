/-
# Observing and warming up

`observe` is best effort: a malformed report leaves a ledger as it is.  Before the first delivery
`warm` reads every registered repository's open handoff issues, and then the open pull requests of
each that has one, and observes what it was given, item by item.

What `observe` can raise it does not catch: an action that cannot be hashed, and a reference whose
number is too long for `int`.  The first cannot happen to a listing.  The second can, and the loop
of `warm` does not catch it either, so one such pull request leaves every later one unread.

What is listed shares the ledgers' room with every other repository's items and with what the
ledgers held.  Whether an open item is held in the end is a matter of that room alone
(`observe_and_warm`).
-/
import BasecradleRouter.Routes.Crowded
import BasecradleRouter.Routes.Github
import Mathlib.Algebra.Order.Ring.Rat

namespace BasecradleRouter.Routes

open BasecradleRouter.Lib BasecradleRouter.Lib.Stamped BasecradleRouter.Logfmt

/-! ## 1. What an observation raises -/

section

variable (py : Runtime)

/-- A value that no set can be asked for. -/
def Unhashable (v : Json) : Prop := v.asArr.isSome = true ∨ v.asObj.isSome = true

theorem inSet_raises {v : Json} {texts : List String} :
    (∃ e, inSet v texts = .error e) ↔ Unhashable v := by
  unfold inSet Json.inSet Unhashable
  cases v with
  | arr items => exact iff_of_true ⟨_, rfl⟩ (Or.inl rfl)
  | obj fields => exact iff_of_true ⟨_, rfl⟩ (Or.inr rfl)
  | _ => exact iff_of_false nofun (by rintro (h | h) <;> cases h)

/-- What every report of an issue needs. -/
def IssueWellFormed (data : Fields) : Prop :=
  ∃ issue, (Fields.get data "issue").asObj = some issue ∧
    (Fields.get issue "pull_request").isNull = true ∧
    (∃ url, (Fields.get issue "html_url").asStr = some url ∧ url ≠ "") ∧
    (∃ state ∈ ["open", "closed"], (Fields.get issue "state").asStr = some state) ∧
    (∃ labels, (Fields.get issue "labels").asArr = some labels) ∧
    ∃ updatedAt, parseTimestamp py (Fields.get issue "updated_at") = some updatedAt

/-- A malformed report is none. -/
theorem issueReport_malformed {data : Fields} {eventType : String}
    (h : ¬ IssueWellFormed py data) : issueReport py data eventType = .ok none := by
  unfold issueReport
  split
  · rfl
  · next issue hissue =>
    split
    · rfl
    · next hpull =>
      split
      · next url state labels updatedAt hurl hstate hlabels hupdated =>
        split
        · rfl
        · next hfields =>
          refine absurd ⟨issue, hissue, by simpa using hpull, ⟨url, hurl, ?_⟩,
            ⟨state, ?_, hstate⟩, ⟨labels, hlabels⟩, updatedAt, hupdated⟩ h
          · rintro rfl
            exact hfields rfl
          · by_contra hnot
            refine hfields ?_
            rw [Bool.or_eq_true]
            exact Or.inr (by simpa using hnot)
      · rfl

/-- **A well-formed report** is read, unless its action is asked for as an `issues` action and
cannot be hashed. -/
theorem issueReport_wellFormed (eventType : String) {data : Fields}
    (h : IssueWellFormed py data) :
    (∃ report, issueReport py data eventType = .ok (some report)) ∧
        ¬ (eventType = issuesEvent ∧ Unhashable (Fields.get data "action")) ∨
      (∃ e, issueReport py data eventType = .error e) ∧
        eventType = issuesEvent ∧ Unhashable (Fields.get data "action") := by
  obtain ⟨issue, hissue, hpull, ⟨url, hurl, hne⟩, ⟨state, hin, hstate⟩, ⟨labels, hlabels⟩,
    updatedAt, hupdated⟩ := h
  have hfields : ¬ (url = "" || !(["open", "closed"].contains state)) = true := by
    rw [List.contains_iff_mem.mpr hin]
    simpa using hne
  unfold issueReport
  simp only [hissue, hpull, hurl, hstate, hlabels, hupdated, if_neg hfields, Bool.not_true,
    Bool.false_eq_true, if_false]
  by_cases hevent : eventType = issuesEvent
  · rw [if_pos hevent]
    by_cases haction : Unhashable (Fields.get data "action")
    · obtain ⟨e, he⟩ : ∃ e, inSet (Fields.get data "action") stateActions = .error e :=
        inSet_raises.mpr haction
      refine Or.inr ⟨⟨e, ?_⟩, hevent, haction⟩
      rw [he]
      rfl
    · have hok : ∀ texts, ∃ b, inSet (Fields.get data "action") texts = .ok b := by
        intro texts
        cases hin : inSet (Fields.get data "action") texts with
        | error e => exact absurd (inSet_raises.mp ⟨e, hin⟩) haction
        | ok b => exact ⟨b, rfl⟩
      obtain ⟨first, hfirst⟩ := hok stateActions
      obtain ⟨second, hsecond⟩ := hok labelActions
      refine Or.inl ⟨?_, fun hboth => haction hboth.2⟩
      simp only [hfirst, hsecond]
      exact ⟨_, rfl⟩
  · rw [if_neg hevent]
    exact Or.inl ⟨⟨_, rfl⟩, fun hboth => hevent hboth.1⟩

/-- A reference of the repository's whose number `int` does not read. -/
def Overlong (repo : String) (pull : Fields) : Prop :=
  ∃ reference ∈ findReferences py none 0 (pullText pull),
    reference.isOf py repo = true ∧ maxStrDigits < reference.digits.length

theorem collect_raises {repo : String} {references : List Reference} {named : Finset ℕ} :
    (∃ e, collect py repo references named = .error e) ↔
      ∃ reference ∈ references, reference.isOf py repo = true ∧
        maxStrDigits < reference.digits.length := by
  induction references generalizing named with
  | nil => simp [collect]
  | cons reference references ih =>
    unfold collect
    rw [List.exists_mem_cons_iff]
    cases hof : reference.isOf py repo with
    | false => simp [ih]
    | true =>
      by_cases hlong : maxStrDigits < reference.digits.length
      · simp [readInt, hlong]
      · simp [readInt, hlong, ih]

theorem namedIssues_raises {repo : String} {pull : Fields} :
    (∃ e, namedIssues py pull repo = .error e) ↔ Overlong py repo pull :=
  collect_raises py

/-- What every report of a pull request needs. -/
def PullWellFormed (pull : Fields) : Prop :=
  (∃ number, (Fields.get pull "number").asInt = some number) ∧
    (∃ url, (Fields.get pull "html_url").asStr = some url ∧ url ≠ "") ∧
    (∃ state ∈ ["open", "closed"], (Fields.get pull "state").asStr = some state) ∧
    (∃ author, authorLogin (.obj pull) "user" = some author) ∧
    ∃ updatedAt, parseTimestamp py (Fields.get pull "updated_at") = some updatedAt

theorem pullReport_malformed {repo : String} {pull : Fields} (h : ¬ PullWellFormed py pull) :
    pullReport py repo (.obj pull) = .ok none := by
  unfold pullReport
  dsimp only [Json.asObj]
  split
  · next number url state author updatedAt hnumber hurl hstate hauthor hupdated =>
    split
    · rfl
    · next hfields =>
      refine absurd ⟨⟨number, hnumber⟩, ⟨url, hurl, ?_⟩, ⟨state, ?_, hstate⟩, ⟨author, hauthor⟩,
        updatedAt, hupdated⟩ h
      · rintro rfl
        exact hfields rfl
      · by_contra hnot
        refine hfields ?_
        rw [Bool.or_eq_true]
        exact Or.inr (by simpa using hnot)
  · rfl

/-- **A well-formed pull request** is read, unless it has an overlong reference. -/
theorem pullReport_wellFormed (repo : String) {pull : Fields} (h : PullWellFormed py pull) :
    (∃ report, pullReport py repo (.obj pull) = .ok (some report)) ∧ ¬ Overlong py repo pull ∨
      (∃ e, pullReport py repo (.obj pull) = .error e) ∧ Overlong py repo pull := by
  obtain ⟨⟨number, hnumber⟩, ⟨url, hurl, hne⟩, ⟨state, hin, hstate⟩, ⟨author, hauthor⟩,
    updatedAt, hupdated⟩ := h
  have hfields : ¬ (url = "" || !(["open", "closed"].contains state)) = true := by
    rw [List.contains_iff_mem.mpr hin]
    simpa using hne
  unfold pullReport
  dsimp only [Json.asObj]
  simp only [hnumber, hurl, hstate, hauthor, hupdated, if_neg hfields]
  cases hnamed : namedIssues py pull repo with
  | error e => exact Or.inr ⟨⟨e, rfl⟩, (namedIssues_raises py).mp ⟨e, hnamed⟩⟩
  | ok named =>
    refine Or.inl ⟨⟨_, rfl⟩, fun hoverlong => ?_⟩
    obtain ⟨e, he⟩ := (namedIssues_raises py).mpr hoverlong
    rw [hnamed] at he
    cases he

variable {py}

/-- **An issue's observation** returns, and leaves the ledger where the report is malformed, unless
it meets an action it cannot look up. -/
theorem observe_issue_iff (ledger : IssueLedger) (data : Fields) (eventType : String) :
    (∃ after, ledger.observe py data eventType = .ok after ∧
        (¬ IssueWellFormed py data → after = ledger)) ↔
      ¬ (IssueWellFormed py data ∧ eventType = issuesEvent ∧
        Unhashable (Fields.get data "action")) := by
  unfold IssueLedger.observe
  by_cases hwell : IssueWellFormed py data
  · rcases issueReport_wellFormed py eventType hwell with ⟨⟨report, hread⟩, hnot⟩ |
      ⟨⟨e, hread⟩, hbad⟩
    · rw [hread]
      exact iff_of_true ⟨_, rfl, fun h => absurd hwell h⟩ fun h => hnot h.2
    · rw [hread]
      exact iff_of_false (by rintro ⟨after, hafter, -⟩; cases hafter) fun h => h ⟨hwell, hbad⟩
  · rw [issueReport_malformed py hwell]
    exact iff_of_true ⟨ledger, rfl, fun _ => rfl⟩ fun h => hwell h.1

/-- **A pull request's observation** returns, and leaves the ledger where the report is malformed,
unless it meets an overlong reference. -/
theorem observe_pull_iff (ledger : PullLedger) (repo : String) (pull : Fields) :
    (∃ after, ledger.observe py repo (.obj pull) = .ok after ∧
        (¬ PullWellFormed py pull → after = ledger)) ↔
      ¬ (PullWellFormed py pull ∧ Overlong py repo pull) := by
  unfold PullLedger.observe
  by_cases hwell : PullWellFormed py pull
  · rcases pullReport_wellFormed py repo hwell with ⟨⟨report, hread⟩, hnot⟩ |
      ⟨⟨e, hread⟩, hbad⟩
    · rw [hread]
      exact iff_of_true ⟨_, rfl, fun h => absurd hwell h⟩ fun h => hnot h.2
    · rw [hread]
      exact iff_of_false (by rintro ⟨after, hafter, -⟩; cases hafter) fun h => h ⟨hwell, hbad⟩
  · rw [pullReport_malformed py hwell]
    exact iff_of_true ⟨ledger, rfl, fun _ => rfl⟩ fun h => hwell h.1

end

/-! ## 2. The warm-up -/

/-- `_WARM_UP` -/
def warmUpEvent : String := "warm_up"

/-- What the warm-up is given: the registered repositories, its deadline and the deadline's text,
the clock when it starts and before each read, and what a read with a budget returns or fails
with. -/
structure WarmUp where
  repos : Finset String
  warmDeadline : ℚ
  deadlineText : String
  startedAt : ℚ
  handoffsAt : String → ℚ
  pullsAt : String → ℚ
  readOpenHandoffs : String → ℚ → Except String (List Fields)
  readOpenPulls : String → ℚ → Except String (List Fields)

namespace WarmUp

variable (w : WarmUp)

/-- A read with what is left of the deadline, and why it was not had. -/
def had (read : String → ℚ → Except String (List Fields)) (now : ℚ) (repo : String) :
    Except String (List Fields) :=
  let budget := w.startedAt + w.warmDeadline - now
  if budget ≤ 0 then .error ("no time left of the " ++ w.deadlineText ++ "s warm-up")
  else read repo budget

/-- The open handoff issues of a repository, had in time. -/
def handoffs (repo : String) : Except String (List Fields) :=
  w.had w.readOpenHandoffs (w.handoffsAt repo) repo

/-- The open pull requests of a repository, had in time. -/
def pulls (repo : String) : Except String (List Fields) :=
  w.had w.readOpenPulls (w.pullsAt repo) repo

end WarmUp

/-- `_issue_repo` -/
def issueRepo (py : Runtime) (issue : Fields) (registered : String) : String :=
  let start := githubApi ++ "/repos/"
  match (Fields.get issue "repository_url").asStr with
  | none => registered
  | some url =>
    if start.toList.isPrefixOf url.toList then
      let name := String.ofList (url.toList.drop start.toList.length)
      if py.lower name = py.lower registered then name else registered
    else registered

/-- What a listed issue is observed as. -/
def listedIssue (py : Runtime) (repo : String) (issue : Fields) : Fields :=
  [("issue", .obj issue), ("repository", .obj [("full_name", .str (issueRepo py issue repo))])]

namespace GithubRoute

variable (r : GithubRoute) (w : WarmUp)

/-- `_warm_read`, once the read was had or not. -/
def warmRead (had : Except String (List Fields)) (repo : String) (listing : Option String) :
    Method (Option (List Fields)) :=
  match had with
  | .ok items => return some items
  | .error reason => do
    log ("event=ledger_warm_failed " ++ logFields [
      ("repo", .str repo), ("listing", .ofOption listing), ("reason", .str reason)])
    return none

/-- `warm`, of one repository's issues. -/
def warmIssues (repo : String) : Method Unit := do
  match ← warmRead (w.handoffs repo) repo none with
  | none => pure ()
  | some issues => do
    issues.forM fun issue => r.observeIssue (listedIssue r.py repo issue) warmUpEvent
    let ledger ← Py.look State.ledger
    log ("event=ledger_warm " ++ logFields [
      ("repo", .str repo), ("open_handoffs", .int (ledger.openHandoffs r.py repo).length)])

/-- `warm`, of one repository's pull requests. -/
def warmPulls (repo : String) : Method Unit := do
  let ledger ← Py.look State.ledger
  if (ledger.openHandoffs r.py repo).isEmpty then pure ()
  else
    match ← warmRead (w.pulls repo) repo (some "pulls") with
    | none => pure ()
    | some pulls => do
      pulls.forM fun pull => r.observePull repo (.obj pull)
      let known ← Py.look State.pulls
      let recorded := pulls.filterMap fun pull => do
        known.get r.py repo (← (Fields.get pull "number").asInt)
      let own := recorded.filter fun pull => r.isCaptainBot repo pull.author
      log ("event=pull_ledger_warm " ++ logFields [("repo", .str repo),
        ("open_pull_requests", .int recorded.length), ("captain_pull_requests", .int own.length)])

/-- `warm` -/
def warm : Method Unit := do
  (PyStr.sorted w.repos).forM (r.warmIssues w)
  (PyStr.sorted w.repos).forM (r.warmPulls w)

end GithubRoute

/-! ## 3. Nothing is starved -/

/-- What was read of a report, nothing where it was malformed or raised. -/
def readReport {α : Type} (made : Except Raised (Option α)) : Option α := made.toOption.join

/-- The report of a listed issue. -/
def listedReport (py : Runtime) (repo : String) (issue : Fields) : Option IssueReport :=
  readReport (issueReport py (listedIssue py repo issue) warmUpEvent)

/-- The report of a listed pull request, with its repository. -/
def listedPull (py : Runtime) (repo : String) (pull : Fields) : Option (String × PullState) :=
  (readReport (pullReport py repo (.obj pull))).map fun report => (repo, report)

namespace WarmUp

variable (w : WarmUp) (py : Runtime)

/-- The well-formed reports of a repository's issues, had in time. -/
def issuesOf (repo : String) : List IssueReport :=
  ((w.handoffs repo).toOption.getD []).filterMap (listedReport py repo)

/-- The well-formed reports of a repository's pull requests, had in time, where the ledger holds an
open handoff of it. -/
def pullsOf (ledger : IssueLedger) (repo : String) : List (String × PullState) :=
  if (ledger.openHandoffs py repo).isEmpty then []
  else ((w.pulls repo).toOption.getD []).filterMap (listedPull py repo)

/-- The issues listed. -/
def allIssues : List IssueReport := (PyStr.sorted w.repos).flatMap (w.issuesOf py)

/-- The issue ledger after every listed issue. -/
def issuesAfter (ledger : IssueLedger) : IssueLedger := ledger.recordAll (w.allIssues py)

/-- The pull requests listed, given the issue ledger. -/
def allPulls (ledger : IssueLedger) : List (String × PullState) :=
  (PyStr.sorted w.repos).flatMap (w.pullsOf py ledger)

/-- No pull request that is read has an overlong reference. -/
def Unharmed (ledger : IssueLedger) (repo : String) : Prop :=
  ledger.openHandoffs py repo ≠ [] → ∀ pulls, w.pulls repo = .ok pulls →
    ∀ pull ∈ pulls, ¬ (PullWellFormed py pull ∧ Overlong py repo pull)

/-- Nothing listed raises, and no open item is let go for want of room. -/
structure Harmless (issues : IssueLedger) (pulls : PullLedger) : Prop where
  unharmed : ∀ repo ∈ w.repos, w.Unharmed py (w.issuesAfter py issues) repo
  issuesFit : ¬ issues.Loses (w.allIssues py)
  pullsFit : ¬ pulls.Loses py (w.allPulls py (w.issuesAfter py issues))

/-- Where there is room for all, only an overlong reference does harm. -/
theorem harmless_of_card {issues : IssueLedger} {pulls : PullLedger}
    (hunharmed : ∀ repo ∈ w.repos, w.Unharmed py (w.issuesAfter py issues) repo)
    (hissues : (issues.urls ∪ ((w.allIssues py).map IssueReport.url).toFinset).card ≤
      issues.capacity)
    (hpulls : (pulls.keys ∪ ((w.allPulls py (w.issuesAfter py issues)).map
      (PullLedger.listedKey py)).toFinset).card ≤ pulls.capacity) :
    w.Harmless py issues pulls :=
  ⟨hunharmed, IssueLedger.not_loses_of_card hissues, PullLedger.not_loses_of_card hpulls⟩

theorem mem_allIssues {report : IssueReport} :
    report ∈ w.allIssues py ↔ ∃ repo ∈ w.repos, ∃ issues, w.handoffs repo = .ok issues ∧
      ∃ issue ∈ issues,
        issueReport py (listedIssue py repo issue) warmUpEvent = .ok (some report) := by
  have hread : ∀ made : Except Raised (Option IssueReport),
      readReport made = some report ↔ made = .ok (some report) := by
    intro made
    unfold readReport
    rcases made with e | (_ | report') <;> simp [Except.toOption]
  simp only [allIssues, issuesOf, listedReport, List.mem_flatMap, PyStr.mem_sorted,
    List.mem_filterMap, hread]
  refine exists_congr fun repo => and_congr_right fun _ => ?_
  cases w.handoffs repo with
  | error reason => simp [Except.toOption]
  | ok issues => simp [Except.toOption]

theorem mem_allPulls {ledger : IssueLedger} {pull : String × PullState} :
    pull ∈ w.allPulls py ledger ↔ pull.1 ∈ w.repos ∧ ledger.openHandoffs py pull.1 ≠ [] ∧
      ∃ pulls, w.pulls pull.1 = .ok pulls ∧
        ∃ fields ∈ pulls, pullReport py pull.1 (.obj fields) = .ok (some pull.2) := by
  have hread : ∀ made : Except Raised (Option PullState),
      readReport made = some pull.2 ↔ made = .ok (some pull.2) := by
    intro made
    unfold readReport
    rcases made with e | (_ | report') <;> simp [Except.toOption]
  have hlisted : ∀ repo fields, listedPull py repo fields = some pull ↔
      repo = pull.1 ∧ pullReport py repo (.obj fields) = .ok (some pull.2) := by
    intro repo fields
    unfold listedPull
    rw [← hread]
    simp only [Option.map_eq_some_iff]
    constructor
    · rintro ⟨report, hmade, rfl⟩
      exact ⟨rfl, hmade⟩
    · rintro ⟨rfl, hmade⟩
      exact ⟨pull.2, hmade, rfl⟩
  have hrepo : ∀ repo, pull ∈ w.pullsOf py ledger repo ↔ repo = pull.1 ∧
      ledger.openHandoffs py pull.1 ≠ [] ∧ ∃ pulls, w.pulls pull.1 = .ok pulls ∧
        ∃ fields ∈ pulls, pullReport py pull.1 (.obj fields) = .ok (some pull.2) := by
    intro repo
    unfold pullsOf
    by_cases hsame : repo = pull.1
    · subst hsame
      cases hopen : ledger.openHandoffs py pull.1 with
      | nil => simp
      | cons ref refs =>
        cases w.pulls pull.1 with
        | error reason => simp [Except.toOption]
        | ok pulls => simp [Except.toOption, hlisted]
    · refine iff_of_false (fun hmem => ?_) fun h => hsame h.1
      split at hmem
      · cases hmem
      · obtain ⟨fields, -, hread⟩ := List.mem_filterMap.mp hmem
        exact hsame ((hlisted repo fields).mp hread).1
  simp only [allPulls, List.mem_flatMap, PyStr.mem_sorted, hrepo]
  constructor
  · rintro ⟨repo, hmem, rfl, hrest⟩
    exact ⟨hmem, hrest⟩
  · rintro ⟨hmem, hrest⟩
    exact ⟨pull.1, hmem, rfl, hrest⟩

end WarmUp

namespace GithubRoute

/-- The ledgers of a state. -/
def State.ledgers (s : State) : IssueLedger × PullLedger := (s.ledger, s.pulls)

variable (r : GithubRoute) (w : WarmUp) {repo : String}

/-- A listed issue is observed without raising. -/
theorem observe_listed (py : Runtime) (ledger : IssueLedger) (issue : Fields) :
    ledger.observe py (listedIssue py repo issue) warmUpEvent =
      .ok ((listedReport py repo issue).elim ledger ledger.record) := by
  unfold IssueLedger.observe listedReport
  by_cases hwell : IssueWellFormed py (listedIssue py repo issue)
  · rcases issueReport_wellFormed py warmUpEvent hwell with ⟨⟨report, hread⟩, -⟩ |
      ⟨-, hevent, -⟩
    · rw [hread]
      rfl
    · exact absurd hevent (by decide)
  · rw [issueReport_malformed py hwell]
    rfl

/-- **A repository's issues**: each well-formed one is recorded. -/
theorem warmIssues_turns (s : State) :
    Py.Turns State.ledgers (fun t repo => (t.1.recordAll (w.issuesOf r.py repo), t.2))
      (r.warmIssues w) repo s := by
  show ∃ s' : State, (r.warmIssues w repo).run s = (.ok (), s') ∧
    s'.ledgers = (s.ledger.recordAll (w.issuesOf r.py repo), s.pulls)
  unfold warmIssues warmRead WarmUp.issuesOf
  cases w.handoffs repo with
  | error reason => exact ⟨_, rfl, rfl⟩
  | ok issues =>
    have hturn : ∀ issue ∈ issues, ∀ s : State, True → Py.Turns State.ledgers
        (fun t issue => ((listedReport r.py repo issue).elim t.1 t.1.record, t.2))
        (fun issue => r.observeIssue (listedIssue r.py repo issue) warmUpEvent) issue s := by
      intro issue _ s _
      unfold Py.Turns observeIssue
      rw [Py.run_look_bind, Py.run_bind, Py.run_ofExcept, observe_listed]
      exact ⟨_, rfl, rfl⟩
    obtain ⟨s₁, hrun, hview⟩ :=
      Py.forM_returns (I := fun _ => True) (fun _ _ _ _ => trivial) hturn s trivial
    dsimp only
    rw [Py.run_bind, Py.run_pure]
    dsimp only
    rw [Py.run_bind, hrun]
    refine ⟨_, rfl, ?_⟩
    rw [Except.toOption, Option.getD_some, IssueLedger.recordAll, List.foldl_filterMap]
    refine hview.trans (List.foldl_hom (fun ledger => (ledger, s.pulls)) fun ledger issue => ?_)
    cases listedReport r.py repo issue with
    | none => rfl
    | some report => rfl

/-- A listed pull request is observed, or raises for its overlong reference. -/
theorem observe_pull (repo : String) (py : Runtime) (ledger : PullLedger) (pull : Fields) :
    (ledger.observe py repo (.obj pull) =
        .ok ((listedPull py repo pull).elim ledger fun p => ledger.record py p.1 p.2) ∧
      ¬ (PullWellFormed py pull ∧ Overlong py repo pull)) ∨
    ((∃ e, ledger.observe py repo (.obj pull) = .error e) ∧ PullWellFormed py pull ∧
      Overlong py repo pull) := by
  unfold PullLedger.observe listedPull
  by_cases hwell : PullWellFormed py pull
  · rcases pullReport_wellFormed py repo hwell with ⟨⟨report, hread⟩, hnot⟩ |
      ⟨⟨e, hread⟩, hlong⟩
    · rw [hread]
      exact Or.inl ⟨rfl, fun h => hnot h.2⟩
    · rw [hread]
      exact Or.inr ⟨⟨e, rfl⟩, hwell, hlong⟩
  · rw [pullReport_malformed py hwell]
    exact Or.inl ⟨rfl, fun h => hwell h.1⟩

/-- The ledgers with one listed pull request observed. -/
def takePull (py : Runtime) (repo : String) (t : IssueLedger × PullLedger) (pull : Fields) :
    IssueLedger × PullLedger :=
  (t.1, (listedPull py repo pull).elim t.2 fun p => t.2.record py p.1 p.2)

/-- One listed pull request, as a turn of the loop. -/
theorem observePull_turns (pull : Fields) (s : State) :
    (Py.Turns State.ledgers (takePull r.py repo)
      (fun pull => r.observePull repo (.obj pull)) pull s ∧
      ¬ (PullWellFormed r.py pull ∧ Overlong r.py repo pull)) ∨
    ((∃ e s', (r.observePull repo (.obj pull)).run s = (.error e, s')) ∧
      PullWellFormed r.py pull ∧ Overlong r.py repo pull) := by
  unfold Py.Turns observePull
  rcases observe_pull repo r.py s.pulls pull with ⟨hobserve, hnot⟩ | ⟨⟨e, herror⟩, hbad⟩
  · refine Or.inl ⟨⟨{ s with
      pulls := (listedPull r.py repo pull).elim s.pulls fun p => s.pulls.record r.py p.1 p.2 },
        ?_, rfl⟩, hnot⟩
    rw [Py.run_look_bind, Py.run_bind, Py.run_ofExcept, hobserve]
    rfl
  · refine Or.inr ⟨⟨e, s, ?_⟩, hbad⟩
    rw [Py.run_look_bind, Py.run_bind, Py.run_ofExcept, herror]

/-- The loop over a repository's pull requests. -/
theorem observePulls (repo : String) (pulls : List Fields) (s : State) :
    ((∃ s', (pulls.forM fun pull => r.observePull repo (.obj pull)).run s = (.ok (), s') ∧
        s'.ledgers = (s.ledger, s.pulls.recordListed r.py
          (pulls.filterMap (listedPull r.py repo)))) ∧
      ∀ pull ∈ pulls, ¬ (PullWellFormed r.py pull ∧ Overlong r.py repo pull)) ∨
    ((∃ e s', (pulls.forM fun pull => r.observePull repo (.obj pull)).run s = (.error e, s')) ∧
      ∃ pull ∈ pulls, PullWellFormed r.py pull ∧ Overlong r.py repo pull) := by
  by_cases hbad : ∃ pull ∈ pulls, PullWellFormed r.py pull ∧ Overlong r.py repo pull
  · refine Or.inr ⟨?_, hbad⟩
    obtain ⟨pull, hmem, hpull⟩ := hbad
    have hturn : ∀ pull ∈ pulls, ∀ s : State, True →
        Py.Turns State.ledgers (takePull r.py repo)
          (fun pull => r.observePull repo (.obj pull)) pull s ∨
          ∃ e s', (r.observePull repo (.obj pull)).run s = (.error e, s') :=
      fun pull _ s _ => (observePull_turns r pull s).imp And.left And.left
    refine Py.forM_raises (I := fun _ => True) (fun _ _ _ _ => trivial) hturn
      ⟨pull, hmem, fun s _ => ?_⟩ s trivial
    rcases observePull_turns r pull s with ⟨-, hnot⟩ | ⟨hraises, -⟩
    · exact absurd hpull hnot
    · exact hraises
  · have hturn : ∀ pull ∈ pulls, ∀ s : State, True → Py.Turns State.ledgers (takePull r.py repo)
        (fun pull => r.observePull repo (.obj pull)) pull s := by
      intro pull hmem s _
      rcases observePull_turns r pull s with ⟨hturn, -⟩ | ⟨-, hpull⟩
      · exact hturn
      · exact absurd ⟨pull, hmem, hpull⟩ hbad
    obtain ⟨s₁, hrun, hview⟩ :=
      Py.forM_returns (I := fun _ => True) (fun _ _ _ _ => trivial) hturn s trivial
    refine Or.inl ⟨⟨s₁, hrun, ?_⟩, fun pull hmem hpull => hbad ⟨pull, hmem, hpull⟩⟩
    rw [PullLedger.recordListed, List.foldl_filterMap]
    refine hview.trans (List.foldl_hom (fun ledger => (s.ledger, ledger)) fun ledger pull => ?_)
    unfold takePull
    cases listedPull r.py repo pull with
    | none => rfl
    | some report => rfl

/-- **A repository's pull requests**: each well-formed one is recorded, or the loop raises for an
overlong reference. -/
theorem warmPulls_turns (repo : String) (s : State) :
    (Py.Turns State.ledgers
        (fun t repo => (t.1, t.2.recordListed r.py (w.pullsOf r.py t.1 repo)))
        (r.warmPulls w) repo s ∧ w.Unharmed r.py s.ledger repo) ∨
    ((∃ e s', (r.warmPulls w repo).run s = (.error e, s')) ∧ ¬ w.Unharmed r.py s.ledger repo) := by
  have hturns : Py.Turns State.ledgers
      (fun t repo => (t.1, t.2.recordListed r.py (w.pullsOf r.py t.1 repo)))
        (r.warmPulls w) repo s ↔
      ∃ s' : State, (r.warmPulls w repo).run s = (.ok (), s') ∧
        s'.ledgers = (s.ledger, s.pulls.recordListed r.py (w.pullsOf r.py s.ledger repo)) := Iff.rfl
  rw [hturns]
  unfold warmPulls warmRead WarmUp.pullsOf WarmUp.Unharmed
  rw [Py.run_look_bind]
  cases hopen : s.ledger.openHandoffs r.py repo with
  | nil => exact Or.inl ⟨⟨s, rfl, rfl⟩, fun h => absurd rfl h⟩
  | cons ref refs =>
    rw [List.isEmpty_cons, if_neg Bool.false_ne_true, if_neg Bool.false_ne_true]
    cases hread : w.pulls repo with
    | error reason => exact Or.inl ⟨⟨_, rfl, rfl⟩, fun _ pulls h => nomatch h⟩
    | ok pulls =>
      dsimp only
      rw [Py.run_bind, Py.run_pure]
      dsimp only
      rw [Py.run_bind]
      rcases observePulls r repo pulls s with ⟨⟨s₁, hrun, hview⟩, hgood⟩ |
        ⟨⟨e, s', hrun⟩, pull, hmem, hbad⟩
      · rw [hrun]
        refine Or.inl ⟨⟨_, rfl, hview⟩, fun _ pulls' heq => ?_⟩
        cases heq
        exact hgood
      · rw [hrun]
        exact Or.inr ⟨⟨e, s', rfl⟩,
          fun h => h (List.cons_ne_nil _ _) pulls rfl pull hmem hbad⟩

/-- The ledgers with one repository's pull requests observed. -/
def takePulls (py : Runtime) (t : IssueLedger × PullLedger) (repo : String) :
    IssueLedger × PullLedger :=
  (t.1, t.2.recordListed py (w.pullsOf py t.1 repo))

/-- Every repository's issues. -/
theorem warmIssues_all (s : State) :
    ∃ s', ((PyStr.sorted w.repos).forM (r.warmIssues w)).run s = (.ok (), s') ∧
      s'.ledger = w.issuesAfter r.py s.ledger ∧ s'.pulls = s.pulls := by
  have hturn : ∀ repo ∈ PyStr.sorted w.repos, ∀ s : State, True → Py.Turns State.ledgers
      (fun t repo => (t.1.recordAll (w.issuesOf r.py repo), t.2)) (r.warmIssues w) repo s :=
    fun repo _ s _ => warmIssues_turns r w s
  obtain ⟨s', hrun, hview⟩ :=
    Py.forM_returns (I := fun _ => True) (fun _ _ _ _ => trivial) hturn s trivial
  have hafter : s'.ledgers = (w.issuesAfter r.py s.ledger, s.pulls) := by
    rw [WarmUp.issuesAfter, WarmUp.allIssues, IssueLedger.recordAll, List.foldl_flatMap]
    exact hview.trans (List.foldl_hom (fun ledger => (ledger, s.pulls)) fun _ _ => rfl)
  exact ⟨s', hrun, congrArg Prod.fst hafter, congrArg Prod.snd hafter⟩

/-- Every repository's pull requests, or the first overlong reference. -/
theorem warmPulls_all (s : State) :
    ((∃ s', ((PyStr.sorted w.repos).forM (r.warmPulls w)).run s = (.ok (), s') ∧
        s'.ledger = s.ledger ∧ s'.pulls = s.pulls.recordListed r.py (w.allPulls r.py s.ledger)) ∧
      ∀ repo ∈ w.repos, w.Unharmed r.py s.ledger repo) ∨
    ((∃ e s', ((PyStr.sorted w.repos).forM (r.warmPulls w)).run s = (.error e, s')) ∧
      ∃ repo ∈ w.repos, ¬ w.Unharmed r.py s.ledger repo) := by
  have hI : ∀ repo ∈ PyStr.sorted w.repos, ∀ t : IssueLedger × PullLedger, t.1 = s.ledger →
      (takePulls w r.py t repo).1 = s.ledger := fun _ _ _ ht => ht
  by_cases hbad : ∃ repo ∈ w.repos, ¬ w.Unharmed r.py s.ledger repo
  · refine Or.inr ⟨?_, hbad⟩
    obtain ⟨repo, hmem, hharmed⟩ := hbad
    have hturn : ∀ repo ∈ PyStr.sorted w.repos, ∀ s' : State, s'.ledgers.1 = s.ledger →
        Py.Turns State.ledgers (takePulls w r.py) (r.warmPulls w) repo s' ∨
          ∃ e s'', (r.warmPulls w repo).run s' = (.error e, s'') :=
      fun repo _ s' _ => (warmPulls_turns r w repo s').imp And.left And.left
    refine Py.forM_raises hI hturn ⟨repo, PyStr.mem_sorted.mpr hmem, fun s' hs' => ?_⟩ s rfl
    rcases warmPulls_turns r w repo s' with ⟨-, hunharmed⟩ | ⟨hraises, -⟩
    · rw [show s'.ledger = s.ledger from hs'] at hunharmed
      exact absurd hunharmed hharmed
    · exact hraises
  · have hunharmed : ∀ repo ∈ w.repos, w.Unharmed r.py s.ledger repo := by
      intro repo hmem
      by_contra hharmed
      exact hbad ⟨repo, hmem, hharmed⟩
    have hturn : ∀ repo ∈ PyStr.sorted w.repos, ∀ s' : State, s'.ledgers.1 = s.ledger →
        Py.Turns State.ledgers (takePulls w r.py) (r.warmPulls w) repo s' := by
      intro repo hmem s' hs'
      rcases warmPulls_turns r w repo s' with ⟨hturn, -⟩ | ⟨-, hharmed⟩
      · exact hturn
      · rw [show s'.ledger = s.ledger from hs'] at hharmed
        exact absurd (hunharmed repo (PyStr.mem_sorted.mp hmem)) hharmed
    obtain ⟨s', hrun, hview⟩ := Py.forM_returns hI hturn s rfl
    have hafter : s'.ledgers =
        (s.ledger, s.pulls.recordListed r.py (w.allPulls r.py s.ledger)) := by
      rw [WarmUp.allPulls, PullLedger.recordListed, List.foldl_flatMap]
      exact hview.trans (List.foldl_hom (fun ledger => (s.ledger, ledger)) fun _ _ => rfl)
    exact Or.inl ⟨⟨s', hrun, congrArg Prod.fst hafter, congrArg Prod.snd hafter⟩, hunharmed⟩

/-- **What a warm-up does**: it records every well-formed report it was given, in the order of the
repositories, or raises for an overlong reference. -/
theorem warm_run (s : State) :
    ((∃ s', (r.warm w).run s = (.ok (), s') ∧ s'.ledger = w.issuesAfter r.py s.ledger ∧
        s'.pulls = s.pulls.recordListed r.py (w.allPulls r.py s'.ledger)) ∧
      ∀ repo ∈ w.repos, w.Unharmed r.py (w.issuesAfter r.py s.ledger) repo) ∨
    ((∃ e s', (r.warm w).run s = (.error e, s')) ∧
      ∃ repo ∈ w.repos, ¬ w.Unharmed r.py (w.issuesAfter r.py s.ledger) repo) := by
  obtain ⟨s₁, hissues, hledger, hpulls⟩ := warmIssues_all r w s
  have hrun : (r.warm w).run s = ((PyStr.sorted w.repos).forM (r.warmPulls w)).run s₁ := by
    unfold warm
    rw [Py.run_bind, hissues]
  rw [hrun, ← hledger, ← hpulls]
  rcases warmPulls_all r w s₁ with ⟨⟨s', hreads, hkept, hrecorded⟩, hgood⟩ | hraises
  · exact Or.inl ⟨⟨s', hreads, hkept, by rw [hkept]; exact hrecorded⟩, hgood⟩
  · exact Or.inr hraises

/-- Every well-formed report that was had in time is recorded: the ledgers are those that recording
them leaves, and each open one is held at least as new as it was listed. -/
structure Warmed (s s' : State) : Prop where
  ledger : s'.ledger = w.issuesAfter r.py s.ledger
  pulls : s'.pulls = s.pulls.recordListed r.py (w.allPulls r.py s'.ledger)
  issuesHeld : ∀ repo ∈ w.repos, ∀ issues, w.handoffs repo = .ok issues → ∀ issue ∈ issues,
    ∀ report, issueReport r.py (listedIssue r.py repo issue) warmUpEvent = .ok (some report) →
      report.state.isOpenHandoff = true →
        ∃ state, s'.ledger.get report.url = some state ∧ report.instant ≤ state.instant
  pullsHeld : ∀ repo ∈ w.repos, s'.ledger.openHandoffs r.py repo ≠ [] →
    ∀ pulls, w.pulls repo = .ok pulls → ∀ pull ∈ pulls, ∀ report,
      pullReport r.py repo (.obj pull) = .ok (some report) → report.isOpen = true →
        ∃ state, s'.pulls.get r.py repo report.number = some state ∧
          report.instant ≤ state.instant

variable {r w} {s s' : State}

/-- **What was recorded is held** exactly if no open item is let go for want of room. -/
theorem warmed_iff (hledger : s'.ledger = w.issuesAfter r.py s.ledger)
    (hpulls : s'.pulls = s.pulls.recordListed r.py (w.allPulls r.py s'.ledger)) :
    Warmed r w s s' ↔ ¬ s.ledger.Loses (w.allIssues r.py) ∧
      ¬ s.pulls.Loses r.py (w.allPulls r.py s'.ledger) := by
  rw [← IssueLedger.allHeld_iff, ← PullLedger.allHeld_iff, ← WarmUp.issuesAfter, ← hledger,
    ← hpulls]
  constructor
  · intro h
    refine ⟨fun report hmem hopen => ?_, fun pull hmem hopen => ?_⟩
    · obtain ⟨repo, hrepo, issues, hread, issue, hissue, hreport⟩ := (w.mem_allIssues r.py).mp hmem
      exact h.issuesHeld repo hrepo issues hread issue hissue report hreport hopen
    · obtain ⟨hrepo, hhandoff, pulls, hread, fields, hfields, hreport⟩ :=
        (w.mem_allPulls r.py).mp hmem
      exact h.pullsHeld pull.1 hrepo hhandoff pulls hread fields hfields pull.2 hreport hopen
  · rintro ⟨hissues, hheld⟩
    refine ⟨hledger, hpulls, ?_, ?_⟩
    · intro repo hrepo issues hread issue hissue report hreport
      exact hissues report
        ((w.mem_allIssues r.py).mpr ⟨repo, hrepo, issues, hread, issue, hissue, hreport⟩)
    · intro repo hrepo hhandoff pulls hread pull hpull report hreport
      exact hheld (repo, report)
        ((w.mem_allPulls r.py).mpr ⟨hrepo, hhandoff, pulls, hread, pull, hpull, hreport⟩)

end GithubRoute

/-- **Observation and warm-up.**  An observation never raises and leaves a ledger where its report
is malformed, exactly if it does not meet the one thing in its input that raises; and a warm-up
returns and starves no repository exactly if nothing raises and no open item is let go for want of
room. -/
theorem observe_and_warm (py : Runtime) :
    (∀ (ledger : IssueLedger) (data : Fields) (eventType : String),
      (∃ after, ledger.observe py data eventType = .ok after ∧
          (¬ IssueWellFormed py data → after = ledger)) ↔
        ¬ (IssueWellFormed py data ∧ eventType = issuesEvent ∧
          Unhashable (Fields.get data "action"))) ∧
    (∀ (ledger : PullLedger) (repo : String) (pull : Fields),
      (∃ after, ledger.observe py repo (.obj pull) = .ok after ∧
          (¬ PullWellFormed py pull → after = ledger)) ↔
        ¬ (PullWellFormed py pull ∧ Overlong py repo pull)) ∧
    ∀ (r : GithubRoute) (w : WarmUp) (s : GithubRoute.State),
      (∃ s', (r.warm w).run s = (.ok (), s') ∧ GithubRoute.Warmed r w s s') ↔
        w.Harmless r.py s.ledger s.pulls := by
  refine ⟨observe_issue_iff, observe_pull_iff, fun r w s => ?_⟩
  rcases GithubRoute.warm_run r w s with ⟨⟨s', hrun, hledger, hpulls⟩, hgood⟩ |
    ⟨⟨e, s', hrun⟩, repo, hmem, hharmed⟩
  · have hwarmed := GithubRoute.warmed_iff hledger hpulls
    rw [hledger] at hwarmed
    constructor
    · rintro ⟨s'', hrun', hheld⟩
      rw [hrun] at hrun'
      cases hrun'
      obtain ⟨hissues, hfit⟩ := hwarmed.mp hheld
      exact ⟨hgood, hissues, hfit⟩
    · intro h
      exact ⟨s', hrun, hwarmed.mpr ⟨h.issuesFit, h.pullsFit⟩⟩
  · refine iff_of_false ?_ fun h => hharmed (h.unharmed repo hmem)
    rintro ⟨s'', hrun', -⟩
    rw [hrun] at hrun'
    cases hrun'

/-! ## 4. A hostile pull request -/

/-- Issue 5 of `o/r`, as it is listed. -/
def openIssue : Fields :=
  [("html_url", .str handoffIssue.url), ("number", .int 5), ("title", .str "Work"),
    ("state", .str "open"), ("labels", .arr [.obj [("name", .str handoffLabel)]]),
    ("updated_at", .str "2026-07-01T00:00:01Z")]

/-- A pull request whose body names an issue by 4301 digits. -/
def hostilePull : Fields :=
  [("number", .int 7), ("html_url", .str "https://github.com/o/r/pull/7"), ("state", .str "open"),
    ("user", .obj [("login", .str "anyone")]), ("updated_at", .str "2026-07-01T00:00:02Z"),
    ("title", .str ""), ("body", .str (String.ofList ('#' :: List.replicate 4301 '1')))]

/-- A warm-up of `o/r` with every read in time. -/
def hostileWarmUp : WarmUp where
  repos := {"o/r"}
  warmDeadline := 20
  deadlineText := "20"
  startedAt := 0
  handoffsAt _ := 1
  pullsAt _ := 2
  readOpenHandoffs _ _ := .ok [openIssue]
  readOpenPulls _ _ := .ok [hostilePull]

/-- A run of ones after a `#` is one reference, however long. -/
theorem mem_findReferences_ones (n : ℕ) :
    ⟨none, List.replicate (n + 1) 1⟩ ∈ findReferences IssueLedger.julyRuntime none 0
      (' ' :: '#' :: List.replicate (n + 1) '1') := by
  have hone : IssueLedger.julyRuntime.digit '1' = some 1 := by decide
  have hnumber : number IssueLedger.julyRuntime (List.replicate (n + 1) '1') =
      some (List.replicate (n + 1) 1, []) := by
    unfold number
    rw [List.takeWhile_replicate, List.dropWhile_replicate, hone]
    simp [hone]
  have hspace : referenceAt IssueLedger.julyRuntime none
      (' ' :: '#' :: List.replicate (n + 1) '1') = none := rfl
  have hhash : referenceAt IssueLedger.julyRuntime (some ' ') ('#' :: List.replicate (n + 1) '1') =
      some (⟨none, List.replicate (n + 1) 1⟩, []) := by
    unfold referenceAt hashReference
    rw [if_neg (by decide)]
    split
    · next rest heq =>
      cases heq
      rw [hnumber]
      rfl
    · next cs hnot => exact absurd rfl (hnot _)
  rw [findReferences, hspace]
  dsimp only
  rw [findReferences, hhash]
  exact List.mem_cons_self

theorem overlong_hostile : Overlong IssueLedger.julyRuntime "o/r" hostilePull := by
  have htext : pullText hostilePull = ' ' :: '#' :: List.replicate (4300 + 1) '1' := by
    show [] ++ [' '] ++ (String.ofList ('#' :: List.replicate 4301 '1')).toList = _
    rw [String.toList_ofList]
    rfl
  refine ⟨⟨none, List.replicate (4300 + 1) 1⟩, ?_, rfl, ?_⟩
  · rw [htext]
    exact mem_findReferences_ones 4300
  · rw [List.length_replicate]
    decide

/-- **One pull request's body stops the warm-up**, whatever is listed after it. -/
theorem not_warmed_hostile : ∃ e s',
    ((GithubRoute.init IssueLedger.julyRuntime ∅ fun _ => none).warm hostileWarmUp).run
      ⟨.empty, .empty, []⟩ = (.error e, s') := by
  rcases GithubRoute.warm_run (.init IssueLedger.julyRuntime ∅ fun _ => none) hostileWarmUp
    ⟨.empty, .empty, []⟩ with ⟨-, hgood⟩ | ⟨hraises, -⟩
  · have hread : hostileWarmUp.pulls "o/r" = .ok [hostilePull] :=
      if_neg (by decide +kernel : ¬ (0 + 20 - 2 : ℚ) ≤ 0)
    have hwell : PullWellFormed IssueLedger.julyRuntime hostilePull :=
      ⟨⟨_, rfl⟩, ⟨_, rfl, by decide⟩, ⟨"open", by decide, rfl⟩, ⟨_, rfl⟩, _, rfl⟩
    refine absurd ⟨hwell, overlong_hostile⟩ (hgood "o/r" ?_ ?_ _ hread hostilePull (by simp))
    · decide
    · decide +kernel
  · exact hraises

end BasecradleRouter.Routes
