/-
# The order in which an issue's reports arrive

GitHub promises no delivery order, and the issue ledger goes by `updated_at`: of the reports it
follows it knows the newest, whatever order they came in (`get_recordAll`).  But it follows an
issue only from the first report that shows it carrying handoff.  A report that came before is
gone, and if that was the newest, the ledger keeps an older one for the issue's state
(`not_order_independent_closed`).

`order_independent_iff`: the ledger answers for an issue as the newest of its reports does exactly
if that report is among those it follows, or the newest of those answers alike.
-/
import BasecradleRouter.Routes.Ledgers
import Mathlib.Data.List.MinMax
import Mathlib.Data.List.Pairwise
import Mathlib.Data.List.TakeWhile

namespace BasecradleRouter.Routes

open BasecradleRouter.Lib BasecradleRouter.Models

/-! ## 1. What one report answers -/

namespace IssueState

variable (state : IssueState)

/-- Why a queued wake should not run, by this report alone. -/
def reasonToDrop : Option String :=
  if !state.isOpen then some IssueLedger.issueClosed
  else if doNotWorkLabel ∈ state.labels then some IssueLedger.doNotWork
  else if handoffLabel ∈ state.labels then none
  else some IssueLedger.handoffRemoved

/-- Whether a merge may wake on the issue, by this report alone. -/
def isOpenHandoff : Bool := state.isOpen && decide (handoffLabel ∈ state.labels)

end IssueState

namespace IssueReport

/-- When GitHub last changed the issue a report shows. -/
def instant (report : IssueReport) : ℤ := report.state.updatedAt.instant

/-- Whether a report shows the issue carrying handoff. -/
def showsHandoff (report : IssueReport) : Bool := decide (handoffLabel ∈ report.state.labels)

/-- The reports from the first that shows the issue carrying handoff. -/
def followed (reports : List IssueReport) : List IssueReport :=
  reports.dropWhile fun report => !report.showsHandoff

/-- The report that GitHub changed the issue last before. -/
def newest (reports : List IssueReport) : Option IssueReport :=
  @List.argmax IssueReport ℤ Int.instLinearOrder.toPreorder
    (fun i j => Int.decLt i j) instant reports

/-- A report of the issue at `url` of a repository that names it as such. -/
structure About (py : Runtime) (url repo : String) (report : IssueReport) : Prop where
  url_eq : report.url = url
  named : ∃ ref, report.state.ref = some ref ∧ py.lower ref.repo = py.lower repo

end IssueReport

namespace IssueLedger

open IssueReport

variable (py : Runtime) {ledger : IssueLedger} {url repo : String}

theorem reasonToDrop_of_get {state : IssueState} (h : ledger.get url = some state) :
    ledger.reasonToDrop url = state.reasonToDrop := by
  unfold reasonToDrop IssueState.reasonToDrop
  rw [h]

/-- A known issue that is named as the repository's is a candidate as its report has it. -/
theorem mem_openHandoffs_of_get {state : IssueState} {ref : IssueRef}
    (h : ledger.get url = some state) (href : state.ref = some ref)
    (hrepo : py.lower ref.repo = py.lower repo) :
    (∃ ref' ∈ ledger.openHandoffs py repo, ref'.url = url) ↔ state.isOpenHandoff = true := by
  have hurl : ref.url = url := get_ref_url h ref href
  unfold IssueState.isOpenHandoff
  rw [Bool.and_eq_true, decide_eq_true_eq]
  constructor
  · rintro ⟨ref', hmem, rfl⟩
    obtain ⟨state', hheld⟩ := (ledger.mem_openHandoffs py).mp hmem
    have hstate : state' = state := Option.some.inj (hheld.held.symm.trans h)
    rw [hstate] at hheld
    exact ⟨hheld.isOpen, hheld.handoff⟩
  · rintro ⟨hopen, hhandoff⟩
    refine ⟨ref, (ledger.mem_openHandoffs py).mpr ⟨state, ?_⟩, hurl⟩
    exact ⟨by rw [hurl]; exact h, href, hrepo, hopen, hhandoff⟩

/-! ## 2. What the ledger keeps -/

/-- A report put is known. -/
theorem get_put (report : IssueReport) :
    (ledger.put report).get report.url = some report.state := by
  have hfresh : Lru.Fresh report.url report.state ∅ (ledger.issues.touch report.url report.state) :=
    Lru.fresh_touch_self ..
  have hcapacity : (∅ : Finset String).card < ledger.capacity := ledger.capacity_pos
  exact (hfresh.evict hcapacity).get

/-- The ledger after reports in the order they arrive. -/
def recordAll (ledger : IssueLedger) (reports : List IssueReport) : IssueLedger :=
  reports.foldl record ledger

theorem recordAll_snoc (reports : List IssueReport) (report : IssueReport) :
    ledger.recordAll (reports ++ [report]) = (ledger.recordAll reports).record report := by
  simp [recordAll]

/-- A report of an issue that is not known is kept if it shows handoff. -/
theorem get_record_of_none {report : IssueReport} (h : ledger.get report.url = none) :
    (ledger.record report).get report.url =
      if report.showsHandoff then some report.state else none := by
  unfold record showsHandoff
  split
  · by_cases hhandoff : handoffLabel ∈ report.state.labels
    · simp [hhandoff, get_put]
    · simp [hhandoff, h]
  · next known hknown =>
    rw [h] at hknown
    cases hknown

/-- One of an issue that is known is kept unless it is older. -/
theorem get_record_of_some {report : IssueReport} {known : IssueState}
    (h : ledger.get report.url = some known)
    (hne : report.instant ≠ known.updatedAt.instant) :
    (ledger.record report).get report.url =
      if known.updatedAt.instant < report.instant then some report.state else some known := by
  unfold record
  split
  · next hknown =>
    rw [h] at hknown
    cases hknown
  · next known' hknown =>
    rw [h] at hknown
    cases hknown
    change report.state.updatedAt.instant ≠ known.updatedAt.instant at hne
    unfold instant
    rw [if_neg hne]
    rcases lt_or_gt_of_ne hne with hlt | hgt
    · rw [if_pos hlt, if_neg hlt.not_gt, h]
    · rw [if_neg hgt.not_gt, if_pos hgt, get_put]

/-- **Of the reports it follows the ledger knows the newest**, whatever order they came in. -/
theorem get_recordAll (hunknown : ledger.get url = none) (reports : List IssueReport)
    (habout : ∀ report ∈ reports, report.url = url)
    (hdistinct : reports.Pairwise (·.instant ≠ ·.instant)) :
    (ledger.recordAll reports).get url = (newest (followed reports)).map IssueReport.state := by
  induction reports using List.reverseRecOn with
  | nil => exact hunknown
  | append_singleton reports report ih =>
    have hurl : report.url = url := habout report (by simp)
    rw [List.pairwise_append] at hdistinct
    obtain ⟨hbefore, -, hother⟩ := hdistinct
    have hknown := ih (fun r hr => habout r (List.mem_append_left _ hr)) hbefore
    rw [recordAll_snoc, followed, List.dropWhile_append]
    rw [← hurl] at hknown ⊢
    cases hlast : newest (followed reports) with
    | none =>
      -- nothing followed so far
      have hnil : followed reports = [] := List.argmax_eq_none.mp hlast
      rw [hlast] at hknown
      rw [get_record_of_none hknown]
      unfold followed at hnil
      rw [hnil]
      cases hshows : report.showsHandoff with
      | true => simp [hshows, newest]
      | false => simp [hshows, newest]
    | some last =>
      have hmem : last ∈ followed reports := List.argmax_mem hlast
      have hne : report.instant ≠ last.instant :=
        (hother last (List.dropWhile_sublist _ |>.subset hmem) report (by simp)).symm
      rw [hlast] at hknown
      rw [get_record_of_some hknown hne]
      have hsome : ¬ (reports.dropWhile fun report => !report.showsHandoff).isEmpty := by
        rw [List.isEmpty_iff]
        exact List.ne_nil_of_mem hmem
      rw [if_neg hsome, newest, List.argmax_concat]
      unfold newest followed at hlast
      rw [hlast]
      dsimp only
      by_cases hlt : last.instant < report.instant
      · rw [if_pos hlt]
        exact if_pos hlt
      · rw [if_neg hlt]
        exact if_neg hlt

/-! ## 3. Deliveries -/

/-- What `observe` is called with: a payload and its event type. -/
abbrev Arrival := Fields × String

/-- The ledger after deliveries in the order they arrive. -/
def observeAll (ledger : IssueLedger) (arrivals : List Arrival) : Except Raised IssueLedger :=
  arrivals.foldlM (fun ledger arrival => ledger.observe py arrival.1 arrival.2) ledger

/-- A delivery with a well-formed report. -/
def Reads (arrival : Arrival) (report : IssueReport) : Prop :=
  issueReport py arrival.1 arrival.2 = .ok (some report)

theorem observeAll_eq {arrivals : List Arrival} {reports : List IssueReport}
    (h : List.Forall₂ (Reads py) arrivals reports) :
    ledger.observeAll py arrivals = .ok (ledger.recordAll reports) := by
  induction h generalizing ledger with
  | nil => rfl
  | cons hread hrest ih =>
    rename_i arrival report arrivals reports
    have hobserve : ledger.observe py arrival.1 arrival.2 = .ok (ledger.record report) := by
      unfold observe
      rw [hread]
      rfl
    unfold observeAll
    rw [List.foldlM_cons, hobserve]
    exact ih

/-- **The order of arrival.**  After an issue's reports, each of its own instant and at least one
with the handoff label, the ledger answers as the newest does exactly if that was not gone before
the ledger followed the issue, or the newest of those it followed answers alike. -/
theorem order_independent_iff (ledger : IssueLedger) (arrivals : List Arrival)
    (reports : List IssueReport) (url repo : String) (last : IssueReport)
    (hread : List.Forall₂ (Reads py) arrivals reports)
    (habout : ∀ report ∈ reports, report.About py url repo)
    (hdistinct : reports.Pairwise (·.instant ≠ ·.instant))
    (hhandoff : ∃ report ∈ reports, report.showsHandoff = true)
    (hlast : newest reports = some last) (hunknown : ledger.get url = none) :
    ∃ after, ledger.observeAll py arrivals = .ok after ∧
      ((after.reasonToDrop url = last.state.reasonToDrop ∧
          ((∃ ref ∈ after.openHandoffs py repo, ref.url = url) ↔
            last.state.isOpenHandoff = true)) ↔
        last ∈ followed reports ∨ ∃ kept, newest (followed reports) = some kept ∧
          kept.state.reasonToDrop = last.state.reasonToDrop ∧
          kept.state.isOpenHandoff = last.state.isOpenHandoff) := by
  refine ⟨ledger.recordAll reports, observeAll_eq py hread, ?_⟩
  -- something is followed, and the newest of that is what the ledger knows
  have hsome : followed reports ≠ [] := by
    obtain ⟨report, hmem, hshows⟩ := hhandoff
    intro hnil
    have hnone := List.dropWhile_eq_nil_iff.mp hnil report hmem
    rw [hshows] at hnone
    cases hnone
  obtain ⟨kept, hkept⟩ : ∃ kept, newest (followed reports) = some kept := by
    cases h : newest (followed reports) with
    | none => exact absurd (List.argmax_eq_none.mp h) hsome
    | some kept => exact ⟨kept, rfl⟩
  have hget := get_recordAll hunknown reports (fun r hr => (habout r hr).url_eq) hdistinct
  rw [hkept, Option.map_some] at hget
  have hsub : (followed reports).Sublist reports := List.dropWhile_sublist _
  have hmem : kept ∈ reports := hsub.subset (List.argmax_mem hkept)
  obtain ⟨ref, href, hrepo⟩ := (habout kept hmem).named
  rw [reasonToDrop_of_get hget, mem_openHandoffs_of_get py hget href hrepo, ← Bool.eq_iff_iff]
  constructor
  · rintro ⟨hreason, hopen⟩
    exact Or.inr ⟨kept, hkept, hreason, hopen⟩
  · rintro (hfollowed | ⟨kept', hkept', hreason, hopen⟩)
    · -- the newest of all is the newest of those followed
      have hle : last.instant ≤ kept.instant := List.le_of_mem_argmax hfollowed hkept
      have hge : kept.instant ≤ last.instant := List.le_of_mem_argmax hmem hlast
      have heq : kept = last := by
        by_contra hne
        have hsymm : Std.Symm fun a b : IssueReport => a.instant ≠ b.instant :=
          ⟨fun _ _ h => h.symm⟩
        exact hdistinct.forall hmem (List.argmax_mem hlast) hne (le_antisymm hge hle)
      rw [heq]
      exact ⟨rfl, rfl⟩
    · rw [hkept] at hkept'
      cases hkept'
      exact ⟨hreason, hopen⟩

/-! ## 4. An issue closed before it is known

Issue 5 of `o/r` was labelled handoff, and a second later the label was gone and the issue
closed. -/

/-- A payload that shows the issue as it stood. -/
def issuePayload (action state updatedAt : String) (labels : List Json) : Fields :=
  [("action", .str action), ("repository", .obj [("full_name", .str "o/r")]),
    ("issue", .obj [("html_url", .str handoffIssue.url), ("number", .int 5), ("title", .str "Work"),
      ("state", .str state), ("labels", .arr labels), ("updated_at", .str updatedAt)])]

def labeledArrival : Arrival :=
  (issuePayload "labeled" "open" "2026-07-01T00:00:01Z" [.obj [("name", .str handoffLabel)]],
    issuesEvent)

def closedArrival : Arrival :=
  (issuePayload "closed" "closed" "2026-07-01T00:00:02Z" [], issuesEvent)

/-- Seconds into 2026-07-01, in UTC. -/
def july (seconds : ℕ) (h : 63918460800000000 + seconds * 1000000 < spanMicros) : Datetime :=
  ⟨63918460800000000 + seconds * 1000000, 0, h, no_offset_lt⟩

/-- An interpreter that reads these two times. -/
def julyRuntime : Runtime :=
  Runtime.ascii (fun _ => .error (.other "RecursionError")) fun text =>
    if text = "2026-07-01T00:00:01+00:00" then some (.aware (july 1 (by decide)))
    else if text = "2026-07-01T00:00:02+00:00" then some (.aware (july 2 (by decide)))
    else none

/-- **The answers depend on the order of arrival.**  Where the close arrives first, the ledger
holds the closed issue open. -/
theorem not_order_independent_closed : ∃ first second,
    empty.observeAll julyRuntime [closedArrival, labeledArrival] = .ok first ∧
      empty.observeAll julyRuntime [labeledArrival, closedArrival] = .ok second ∧
      first.reasonToDrop handoffIssue.url = none ∧
        second.reasonToDrop handoffIssue.url = some issueClosed ∧
      (first.openHandoffs julyRuntime "o/r").map IssueRef.url = [handoffIssue.url] ∧
      second.openHandoffs julyRuntime "o/r" = [] :=
  ⟨_, _, rfl, rfl, by decide +kernel, by decide +kernel, by decide +kernel, by decide +kernel⟩

def labeledReport : IssueReport where
  url := handoffIssue.url
  state := {
    updatedAt := july 1 (by decide)
    isOpen := true
    labels := {handoffLabel}
    stateFirstHand := false
    labelsFirstHand := true
    ref := some handoffIssue }
  ref_url ref h := by
    cases h
    rfl

def closedReport : IssueReport where
  url := handoffIssue.url
  state := {
    updatedAt := july 2 (by decide)
    isOpen := false
    labels := ∅
    stateFirstHand := true
    labelsFirstHand := false
    ref := some handoffIssue }
  ref_url ref h := by
    cases h
    rfl

/-- Where the close arrives last, the issue is closed. -/
theorem order_independent_iff_closed : ∃ after,
    empty.observeAll julyRuntime [labeledArrival, closedArrival] = .ok after ∧
      after.reasonToDrop handoffIssue.url = some issueClosed := by
  have hread : List.Forall₂ (Reads julyRuntime) [labeledArrival, closedArrival]
      [labeledReport, closedReport] := .cons rfl (.cons rfl .nil)
  have habout : ∀ report ∈ [labeledReport, closedReport],
      report.About julyRuntime handoffIssue.url "o/r" := by
    intro report hmem
    rcases List.mem_cons.mp hmem with rfl | hmem
    · exact ⟨rfl, handoffIssue, rfl, rfl⟩
    · rw [List.mem_singleton.mp hmem]
      exact ⟨rfl, handoffIssue, rfl, rfl⟩
  have hdistinct : [labeledReport, closedReport].Pairwise (·.instant ≠ ·.instant) := by
    simp only [List.pairwise_pair]
    decide +kernel
  have hlast : newest [labeledReport, closedReport] = some closedReport := by rfl
  obtain ⟨after, hrun, hiff⟩ := order_independent_iff julyRuntime empty _ _ handoffIssue.url "o/r"
    closedReport hread habout hdistinct ⟨labeledReport, by simp, rfl⟩ hlast rfl
  have hfollowed : closedReport ∈ followed [labeledReport, closedReport] :=
    List.mem_cons_of_mem _ List.mem_cons_self
  exact ⟨after, hrun, (hiff.mpr (Or.inl hfollowed)).1⟩

end IssueLedger

end BasecradleRouter.Routes
