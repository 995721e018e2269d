/-
# Reports of the same second

GitHub stamps a report with whole seconds, and several may bear the same one.  Each ledger is a
register of what is stamped: it lets go what is older, takes over what is newer, and settles what
bears the second of what it holds.

The issue ledger settles by authority.  The open or closed state it holds is that of the last of
the newest reports that changed it, or of the last of them where none did, and so, apart from the
state, are the labels (`settled_by_authority`).

The pull request ledger holds a pull request closed exactly if one of the newest reports shows it
closed, and so does not depend on the order in which they arrive (`arrival_order_immaterial`).

Both speak of what is not let go for want of room: `Kept`.  An issue is kept while fewer others than
the capacity are reported (`kept_of_card`), and a pull request likewise.
-/
import BasecradleRouter.Lib.Checked
import BasecradleRouter.Lib.Stamped
import BasecradleRouter.Routes.Arrivals

namespace BasecradleRouter.Routes

open BasecradleRouter.Lib BasecradleRouter.Lib.Stamped BasecradleRouter.Models

/-! ## 1. Issues -/

/-- When GitHub last changed the issue, as it is held. -/
def IssueState.instant (state : IssueState) : ℤ := state.updatedAt.instant

namespace IssueLedger

variable {ledger : IssueLedger} {url : String}

/-- The issue is not let go: once it has been reported it is known. -/
def Kept (ledger : IssueLedger) (url : String) (reports : List IssueReport) : Prop :=
  ∀ earlier later, reports = earlier ++ later → (∃ report ∈ earlier, report.url = url) →
    ((ledger.recordAll earlier).get url).isSome = true

/-- A report of an issue that is known. -/
theorem get_record_known {report : IssueReport} {known : IssueState}
    (h : ledger.get report.url = some known) :
    (ledger.record report).get report.url =
      some (takeIn IssueState.instant settleTie known report.state) := by
  unfold record takeIn IssueState.instant
  split
  · next hknown =>
    rw [h] at hknown
    cases hknown
  · next known' hknown =>
    rw [h] at hknown
    cases hknown
    split
    · exact h
    split
    · exact get_put _
    · exact get_put _

/-- An older report changes nothing. -/
theorem record_older {report : IssueReport} {known : IssueState}
    (h : ledger.get report.url = some known) (hlt : report.state.instant < known.instant) :
    ledger.record report = ledger := by
  unfold record
  split
  · next hknown =>
    rw [h] at hknown
    cases hknown
  · next known' hknown =>
    rw [h] at hknown
    cases hknown
    exact if_pos hlt

/-- A report of another issue leaves this one, or lets it go. -/
theorem get_record_of_ne (ledger : IssueLedger) {report : IssueReport} (h : url ≠ report.url) :
    (ledger.record report).get url = ledger.get url ∨ (ledger.record report).get url = none := by
  have hput : ∀ report' : IssueReport, url ≠ report'.url →
      (ledger.put report').get url = ledger.get url ∨ (ledger.put report').get url = none :=
    fun _ hne => Lru.get_put_of_ne _ _ _ hne
  unfold record
  split
  · split
    · exact hput report h
    · exact Or.inl rfl
  · split
    · exact Or.inl rfl
    split
    · exact hput _ h
    · exact hput report h

/-- **Of an issue that is kept the ledger holds** what a register of its reports does. -/
theorem get_recordAll_kept {reports : List IssueReport} (hunknown : ledger.get url = none)
    (hfirst : ∀ first ∈ (reports.filter (·.url = url)).head?, first.showsHandoff = true)
    (hkept : ledger.Kept url reports) :
    (ledger.recordAll reports).get url = held (takeIn IssueState.instant settleTie)
      ((reports.filter (·.url = url)).map IssueReport.state) := by
  induction reports using List.reverseRecOn with
  | nil => exact hunknown
  | append_singleton reports report ih =>
    have hkeptBefore : ledger.Kept url reports := by
      rintro earlier later rfl hmem
      exact hkept earlier (later ++ [report]) (by rw [List.append_assoc]) hmem
    have hfirstBefore : ∀ first ∈ (reports.filter (·.url = url)).head?,
        first.showsHandoff = true := by
      intro first hmem
      refine hfirst first ?_
      rw [List.filter_append, List.head?_append, hmem]
      rfl
    have hbefore := ih hfirstBefore hkeptBefore
    rw [recordAll_snoc, List.filter_append]
    by_cases hurl : report.url = url
    · subst hurl
      have hself : [report].filter (·.url = report.url) = [report] := by simp
      rw [hself, List.map_append, List.map_singleton, held_snoc, ← hbefore, accept]
      cases hget : (ledger.recordAll reports).get report.url with
      | none =>
        -- the first report of the issue
        rw [hget] at hbefore
        have hnil := List.map_eq_nil_iff.mp ((held_eq_none _).mp hbefore.symm)
        have hshows := hfirst report (by rw [List.filter_append, hself, hnil]; rfl)
        rw [get_record_of_none hget, if_pos hshows, Option.elim_none]
      | some known => rw [get_record_known hget, Option.elim_some]
    · have hother : [report].filter (·.url = url) = [] := by simp [hurl]
      rw [hother, List.append_nil, ← hbefore]
      rcases get_record_of_ne (ledger.recordAll reports) (Ne.symm hurl) with hsame | hgone
      · exact hsame
      · -- it was not let go, so it was not known
        rw [hgone]
        by_contra hne
        have hmem : ∃ report' ∈ reports, report'.url = url := by
          by_contra hnone
          have hnil : reports.filter (·.url = url) = [] :=
            List.filter_eq_nil_iff.mpr fun r hr hrurl => hnone ⟨r, hr, by simpa using hrurl⟩
          rw [hbefore, hnil] at hne
          exact hne rfl
        obtain ⟨report', hin, hrurl⟩ := hmem
        have hsome := hkept (reports ++ [report]) [] (by simp)
          ⟨report', List.mem_append_left _ hin, hrurl⟩
        rw [recordAll_snoc, hgone] at hsome
        cases hsome

/-- A report is put under its url, or changes nothing: then its issue is known, or it shows no
handoff. -/
theorem record_issues (ledger : IssueLedger) (report : IssueReport) :
    (ledger.record report).capacity = ledger.capacity ∧
      ((∃ state, (ledger.record report).issues =
          ledger.issues.put ledger.capacity report.url state) ∨
        (ledger.record report = ledger ∧
          ((ledger.get report.url).isSome = true ∨ report.showsHandoff = false))) := by
  unfold record
  split
  · next hknown =>
    split
    · exact ⟨rfl, Or.inl ⟨_, rfl⟩⟩
    · next hno => exact ⟨rfl, Or.inr ⟨rfl, Or.inr (decide_eq_false hno)⟩⟩
  · next known hknown =>
    split
    · exact ⟨rfl, Or.inr ⟨rfl, Or.inl (by rw [hknown]; rfl)⟩⟩
    split
    · exact ⟨rfl, Or.inl ⟨_, rfl⟩⟩
    · exact ⟨rfl, Or.inl ⟨_, rfl⟩⟩

@[simp] theorem recordAll_capacity (ledger : IssueLedger) (reports : List IssueReport) :
    (ledger.recordAll reports).capacity = ledger.capacity := by
  induction reports using List.reverseRecOn with
  | nil => rfl
  | append_singleton reports report ih => rw [recordAll_snoc, (record_issues _ report).1, ih]

/-- What no report is about stays unknown. -/
theorem get_recordAll_none {reports : List IssueReport} (hunknown : ledger.get url = none)
    (hnone : ∀ report ∈ reports, report.url ≠ url) : (ledger.recordAll reports).get url = none := by
  induction reports using List.reverseRecOn with
  | nil => exact hunknown
  | append_singleton reports report ih =>
    have hbefore := ih fun r hr => hnone r (List.mem_append_left _ hr)
    rw [recordAll_snoc]
    rcases get_record_of_ne (ledger.recordAll reports)
      (hnone report (by simp)).symm with hsame | hgone
    · rw [hsame, hbefore]
    · exact hgone

/-- **An issue is kept while fewer others than the capacity are reported.** -/
theorem kept_of_card {reports : List IssueReport} {T : Finset String}
    (hunknown : ledger.get url = none)
    (hfirst : ∀ first ∈ (reports.filter (·.url = url)).head?, first.showsHandoff = true)
    (hT : ∀ report ∈ reports, report.url ≠ url → report.url ∈ T)
    (hcard : T.card < ledger.capacity) : ledger.Kept url reports := by
  rintro earlier later rfl hmem
  obtain ⟨state, hstate⟩ : ∃ state, Lru.Fresh url state T (ledger.recordAll earlier).issues := by
    refine Lru.fresh_run (fun l => (ledger.recordAll l).issues) IssueReport.url
      (fun r hr => hT r (List.mem_append_left _ hr)) hcard (fun before report after hl => ?_) hmem
    obtain ⟨-, hput | ⟨hsame, hwhy⟩⟩ := (ledger.recordAll before).record_issues report
    · rw [recordAll_capacity] at hput
      rw [recordAll_snoc]
      exact Or.inl hput
    · rw [recordAll_snoc, hsame]
      refine Or.inr ⟨rfl, fun hurl => ?_⟩
      -- the issue's first report is never dropped
      by_contra hno
      have hnone : ∀ r ∈ before, r.url ≠ url := fun r hr hrurl => hno ⟨r, hr, hrurl⟩
      have hnil : before.filter (·.url = url) = [] :=
        List.filter_eq_nil_iff.mpr fun r hr => by simpa using hnone r hr
      have hshows := hfirst report (by
        rw [hl, List.append_assoc, List.filter_append, hnil]
        simp [hurl])
      rw [hurl, get_recordAll_none hunknown hnone, hshows] at hwhy
      simp at hwhy
  have hget : (ledger.recordAll earlier).get url = some state := hstate.get
  rw [hget]
  rfl

/-! ## 2. First-hand reports -/

/-- A delivery with a well-formed report. -/
structure Reported (py : Runtime) where
  payload : Fields
  eventType : String
  report : IssueReport
  reads : issueReport py payload eventType = .ok (some report)

namespace Reported

variable {py : Runtime} (delivery : Reported py)

/-- The delivery as `observe` is called with it. -/
def arrival : Arrival := (delivery.payload, delivery.eventType)

/-- The delivery is of one of the actions. -/
def isOf (actions : List String) : Bool :=
  delivery.eventType == issuesEvent && actions.any (delivery.payload.get "action").isText

/-- The action opened, closed or reopened the issue. -/
def changesState : Bool := delivery.isOf stateActions

/-- The action opened the issue with its labels, or added or took one. -/
def changesLabels : Bool := delivery.isOf labelActions

/-- The state as the delivery reports it. -/
def state : IssueState := delivery.report.state

/-- What is first-hand in a report is what the delivery's action changed. -/
theorem firstHand : delivery.state.stateFirstHand = delivery.changesState ∧
    delivery.state.labelsFirstHand = delivery.changesLabels := by
  obtain ⟨payload, eventType, report, hreads⟩ := delivery
  have htest : ∀ {actions : List String} {b : Bool},
      inSet (if eventType = issuesEvent then payload.get "action" else .null) actions = .ok b →
        b = (eventType == issuesEvent && actions.any (payload.get "action").isText) := by
    intro actions b h
    have hok : Json.inSet (if eventType = issuesEvent then payload.get "action" else .null)
        actions = .ok b := by
      unfold inSet at h
      cases hset : Json.inSet (if eventType = issuesEvent then payload.get "action" else .null)
          actions with
      | error text =>
        rw [hset] at h
        cases h
      | ok b' =>
        rw [hset] at h
        cases h
        rfl
    rw [Json.inSet_ok hok]
    by_cases hissues : eventType = issuesEvent
    · simp [hissues]
    · have hnull : actions.any Json.null.isText = false :=
        List.any_eq_false.mpr fun text _ => by simp [Json.isText, Json.asStr]
      simp [hissues, hnull]
  unfold issueReport at hreads
  split at hreads
  · cases hreads
  split at hreads
  · cases hreads
  split at hreads
  · split at hreads
    · cases hreads
    · obtain ⟨stateFirstHand, hstate, hreads⟩ := bind_eq_ok.mp hreads
      obtain ⟨labelsFirstHand, hlabels, hreads⟩ := bind_eq_ok.mp hreads
      cases hreads
      exact ⟨htest hstate, htest hlabels⟩
  · cases hreads

end Reported

theorem observeAll_arrivals {py : Runtime} (deliveries : List (Reported py)) :
    ledger.observeAll py (deliveries.map Reported.arrival) =
      .ok (ledger.recordAll (deliveries.map Reported.report)) := by
  refine observeAll_eq py ?_
  induction deliveries with
  | nil => exact .nil
  | cons delivery deliveries ih => exact .cons delivery.reads ih

/-- The issue's reports, in the order they arrive. -/
def ofIssue {py : Runtime} (deliveries : List (Reported py)) (url : String) : List (Reported py) :=
  deliveries.filter (·.report.url = url)

/-- Those of them that bear one stamp. -/
def stamped {py : Runtime} (deliveries : List (Reported py)) (url : String) (instant : ℤ) :
    List (Reported py) :=
  (ofIssue deliveries url).filter (·.state.instant = instant)

/-- **Same-second reports are settled by authority.**  After deliveries of which an issue's first
shows the handoff label, and of which it is not let go, the ledger holds the issue as of the
greatest stamp; open or closed as the last of the reports at it that changed that, or as the last
of them where none did; with the labels likewise; and a report of an earlier stamp changes
nothing. -/
theorem settled_by_authority (py : Runtime) (ledger : IssueLedger) (deliveries : List (Reported py))
    (url : String) (first : Reported py) (hunknown : ledger.get url = none)
    (hfirst : (ofIssue deliveries url).head? = some first)
    (hhandoff : first.report.showsHandoff = true)
    (hkept : ledger.Kept url (deliveries.map Reported.report)) :
    ∃ after state, ledger.observeAll py (deliveries.map Reported.arrival) = .ok after ∧
      after.get url = some state ∧
      IsGreatest {t | ∃ d ∈ ofIssue deliveries url, d.state.instant = t} state.instant ∧
      (∃ d, decisive Reported.changesState (stamped deliveries url state.instant) = some d ∧
        state.isOpen = d.state.isOpen) ∧
      (∃ d, decisive Reported.changesLabels (stamped deliveries url state.instant) = some d ∧
        state.labels = d.state.labels) ∧
      ∀ late : Reported py, late.report.url = url → late.state.instant < state.instant →
        after.observe py late.payload late.eventType = .ok after := by
  have hsettle : ∀ a b : IssueState, b.instant = a.instant →
      (settleTie a b).instant = b.instant := fun _ _ _ => rfl
  have hfilter : ((deliveries.map Reported.report).filter (·.url = url)).map IssueReport.state =
      (ofIssue deliveries url).map Reported.state := by
    rw [List.filter_map, List.map_map]
    rfl
  have hget := get_recordAll_kept hunknown (by
    rw [List.filter_map, List.head?_map]
    intro r hr
    have hhead : (ofIssue deliveries url).head?.map Reported.report = some r := hr
    rw [hfirst] at hhead
    cases hhead
    exact hhandoff) hkept
  rw [hfilter] at hget
  have hne : (ofIssue deliveries url).map Reported.state ≠ [] := by
    intro hnil
    rw [List.map_eq_nil_iff.mp hnil] at hfirst
    cases hfirst
  obtain ⟨state, top, hstate, hsettled, -, -⟩ := held_takeIn hsettle hne
  rw [hstate] at hget
  have hgreatest := isGreatest_held hsettle hstate
  -- the reports that are settled are those of the stamp that is held
  have hnewest : atNewest IssueState.instant ((ofIssue deliveries url).map Reported.state) =
      (stamped deliveries url state.instant).map Reported.state := by
    rw [atNewest, List.filter_map, stamped]
    refine congrArg _ (List.filter_congr fun d hd => ?_)
    have hmem : d.state ∈ (ofIssue deliveries url).map Reported.state := List.mem_map_of_mem hd
    rw [Function.comp_apply, Bool.eq_iff_iff, newest_iff, decide_eq_true_iff]
    constructor
    · intro hall
      obtain ⟨v, hv, hvt⟩ := hgreatest.1
      exact le_antisymm (hgreatest.2 ⟨_, hmem, rfl⟩) (hvt ▸ hall v hv)
    · intro heq other hother
      rw [heq]
      exact hgreatest.2 ⟨other, hother, rfl⟩
  rw [hnewest] at hsettled
  obtain ⟨-, ds, hds, hopen⟩ := held_decisive IssueState.isOpen IssueState.stateFirstHand
    (fun _ _ => rfl) (fun _ _ => rfl) hsettled
  obtain ⟨-, dl, hdl, hlabels⟩ := held_decisive IssueState.labels IssueState.labelsFirstHand
    (fun _ _ => rfl) (fun _ _ => rfl) hsettled
  have hstateFlag : IssueState.stateFirstHand ∘ Reported.state =
      (Reported.changesState : Reported py → Bool) := funext fun d => d.firstHand.1
  have hlabelsFlag : IssueState.labelsFirstHand ∘ Reported.state =
      (Reported.changesLabels : Reported py → Bool) := funext fun d => d.firstHand.2
  rw [decisive_map, hstateFlag] at hds
  rw [decisive_map, hlabelsFlag] at hdl
  obtain ⟨d, hd, rfl⟩ := Option.map_eq_some_iff.mp hds
  obtain ⟨d', hd', rfl⟩ := Option.map_eq_some_iff.mp hdl
  refine ⟨_, state, observeAll_arrivals deliveries, hget, ?_, ⟨d, hd, hopen⟩,
    ⟨d', hd', hlabels⟩, ?_⟩
  · simpa only [List.mem_map, exists_exists_and_eq_and] using hgreatest
  · intro late hlate hlt
    unfold observe
    rw [late.reads]
    subst hlate
    have hrecord := (ledger.recordAll (deliveries.map Reported.report)).record_older hget hlt
    exact congrArg Except.ok hrecord

theorem july_second : 63918460800000000 + 2 * 1000000 < spanMicros := by decide

/-- The deliveries of an issue that is labelled handoff, and then closed and commented on within one
second; the comment arrives last and shows the issue open. -/
def completedIssue : List (Reported julyRuntime) :=
  [⟨labeledArrival.1, labeledArrival.2, labeledReport, rfl⟩,
    ⟨closedArrival.1, closedArrival.2, closedReport, rfl⟩,
    ⟨issuePayload "created" "open" "2026-07-01T00:00:02Z" [.obj [("name", .str handoffLabel)]],
      "issue_comment", {
        url := handoffIssue.url
        state := ⟨july 2 july_second, true, {handoffLabel}, false, false, some handoffIssue⟩
        ref_url := closedReport.ref_url }, rfl⟩]

theorem settled_by_authority_completed : ∃ after state,
    empty.observeAll julyRuntime (completedIssue.map Reported.arrival) = .ok after ∧
      after.get handoffIssue.url = some state ∧
      ∃ d, decisive Reported.changesState
          (stamped completedIssue handoffIssue.url state.instant) = some d ∧
        state.isOpen = d.state.isOpen := by
  have hurl : ∀ report ∈ completedIssue.map Reported.report, report.url = handoffIssue.url := by
    intro report hmem
    simp only [completedIssue, List.map_cons, List.map_nil, List.mem_cons, List.not_mem_nil,
      or_false] at hmem
    rcases hmem with rfl | rfl | rfl <;> rfl
  have hkept : empty.Kept handoffIssue.url (completedIssue.map Reported.report) := by
    refine kept_of_card (T := ∅) rfl ?_ (fun report hmem hne => absurd (hurl report hmem) hne)
      (by decide)
    intro first hmem
    cases hmem
    rfl
  obtain ⟨after, state, hrun, hget, -, hopen, -⟩ := settled_by_authority julyRuntime empty
    completedIssue handoffIssue.url _ rfl rfl rfl hkept
  exact ⟨after, state, hrun, hget, hopen⟩

end IssueLedger

/-! ## 3. Pull requests -/

/-- When GitHub last changed the pull request, as it is held. -/
def PullState.instant (state : PullState) : ℤ := state.updatedAt.instant

namespace PullLedger

variable {py : Runtime} {ledger : PullLedger}

/-- Of two reports of one second the later is held, unless it alone shows the pull request open. -/
def settle (known report : PullState) : PullState :=
  if !known.isOpen && report.isOpen then known else report

/-- A delivery with a well-formed report. -/
structure Reported (py : Runtime) where
  repo : String
  pull : Json
  report : PullState
  reads : pullReport py repo pull = .ok (some report)

/-- What the delivery's pull request is kept under. -/
def Reported.key (delivery : Reported py) : String × ℤ :=
  (py.lower delivery.repo, delivery.report.number)

/-- Deliveries observed in the order they arrive. -/
def observeAll (py : Runtime) (ledger : PullLedger) (arrivals : List (String × Json)) :
    Except Raised PullLedger :=
  arrivals.foldlM (fun ledger arrival => ledger.observe py arrival.1 arrival.2) ledger

/-- The ledger after reports in the order they arrive. -/
def recordAll (ledger : PullLedger) (deliveries : List (Reported py)) : PullLedger :=
  deliveries.foldl (fun ledger delivery => ledger.record py delivery.repo delivery.report) ledger

theorem recordAll_snoc (deliveries : List (Reported py)) (delivery : Reported py) :
    ledger.recordAll (deliveries ++ [delivery]) =
      (ledger.recordAll deliveries).record py delivery.repo delivery.report := by
  simp [recordAll]

theorem observeAll_eq (deliveries : List (Reported py)) :
    ledger.observeAll py (deliveries.map fun d => (d.repo, d.pull)) =
      .ok (ledger.recordAll deliveries) := by
  induction deliveries generalizing ledger with
  | nil => rfl
  | cons delivery deliveries ih =>
    have hobserve : ledger.observe py delivery.repo delivery.pull =
        .ok (ledger.record py delivery.repo delivery.report) := by
      unfold observe
      rw [delivery.reads]
      rfl
    unfold observeAll at ih ⊢
    rw [List.map_cons, List.foldlM_cons, hobserve]
    exact ih

/-- The pull request is not let go: once it has been reported it is known. -/
def Kept (ledger : PullLedger) (repo : String) (number : ℤ) (deliveries : List (Reported py)) :
    Prop :=
  ∀ earlier later, deliveries = earlier ++ later →
    (∃ d ∈ earlier, d.key = (py.lower repo, number)) →
      ((ledger.recordAll earlier).get py repo number).isSome = true

/-- A report takes its place under its own key, or changes nothing; what is known then is what a
register makes of it. -/
theorem record_pulls (py : Runtime) (ledger : PullLedger) (repo : String) (report : PullState) :
    (ledger.record py repo report).capacity = ledger.capacity ∧
      (ledger.record py repo report).get py repo report.number =
        accept (takeIn PullState.instant settle) (ledger.get py repo report.number) report ∧
      ((∃ state, (ledger.record py repo report).pulls =
          ledger.pulls.put ledger.capacity (py.lower repo, report.number) state) ∨
        (ledger.record py repo report = ledger ∧
          (ledger.get py repo report.number).isSome = true)) := by
  have hput : (ledger.put py repo report).get py repo report.number = some report :=
    Lru.get_put_self ledger.capacity_pos _ _
  unfold record
  cases hknown : ledger.get py repo report.number with
  | none => exact ⟨rfl, hput, Or.inl ⟨report, rfl⟩⟩
  | some known =>
    dsimp only [accept, Option.elim_some]
    unfold takeIn settle PullState.instant
    split
    · next hkeep =>
      refine ⟨rfl, ?_, Or.inr ⟨rfl, rfl⟩⟩
      rw [hknown]
      rcases hkeep with hlt | ⟨heq, hclosed, hopen⟩
      · rw [if_pos hlt]
      · rw [if_neg heq.not_lt, if_pos heq]
        simp [hclosed, hopen]
    · next htake =>
      refine ⟨rfl, ?_, Or.inl ⟨report, rfl⟩⟩
      rw [hput]
      rw [not_or] at htake
      rw [if_neg htake.1]
      split
      · next heq =>
        have hnot : ¬ (!known.isOpen && report.isOpen) = true := by
          simpa [heq] using htake.2
        rw [if_neg hnot]
      · rfl

/-- The pull request's deliveries, in the order they arrive. -/
def ofPull (deliveries : List (Reported py)) (repo : String) (number : ℤ) : List PullState :=
  (deliveries.filter (·.key = (py.lower repo, number))).map Reported.report

/-- Of a pull request that is kept the ledger holds what a register of its reports does. -/
theorem get_recordAll_kept {deliveries : List (Reported py)} {repo : String} {number : ℤ}
    (hunknown : ledger.get py repo number = none)
    (hkept : ledger.Kept repo number deliveries) :
    (ledger.recordAll deliveries).get py repo number =
      held (takeIn PullState.instant settle) (ofPull deliveries repo number) := by
  induction deliveries using List.reverseRecOn with
  | nil => exact hunknown
  | append_singleton deliveries delivery ih =>
    have hbefore := ih (by
      rintro earlier later rfl hmem
      exact hkept earlier (later ++ [delivery]) (by rw [List.append_assoc]) hmem)
    obtain ⟨-, hself, hput⟩ := (ledger.recordAll deliveries).record_pulls py delivery.repo
      delivery.report
    rw [recordAll_snoc, ofPull, List.filter_append, List.map_append]
    by_cases hkey : delivery.key = (py.lower repo, number)
    · have hone : [delivery].filter (·.key = (py.lower repo, number)) = [delivery] := by
        simp [hkey]
      have hsame : ∀ l : PullLedger, l.get py delivery.repo delivery.report.number =
          l.get py repo number := fun l => congrArg l.pulls.get hkey
      rw [hsame, hsame] at hself
      rw [hone, List.map_singleton, held_snoc, hself, hbefore]
      rfl
    · have hnone : [delivery].filter (·.key = (py.lower repo, number)) = [] := by simp [hkey]
      rw [hnone, List.map_nil, List.append_nil]
      refine Eq.trans ?_ hbefore
      rcases hput with ⟨state, hput⟩ | ⟨hsame, -⟩
      · rcases Lru.get_put_of_ne (ledger.recordAll deliveries).pulls
          (ledger.recordAll deliveries).capacity state (Ne.symm hkey) with hold | hgone
        · unfold get
          rw [hput]
          exact hold
        · -- it was not let go, so it was not known
          by_contra hne
          have hmem : ∃ d ∈ deliveries, d.key = (py.lower repo, number) := by
            by_contra hno
            have hnil : ofPull deliveries repo number = [] := by
              rw [ofPull, List.map_eq_nil_iff]
              exact List.filter_eq_nil_iff.mpr fun d hd hd' => hno ⟨d, hd, by simpa using hd'⟩
            rw [hbefore, hnil] at hne
            unfold get at hne
            rw [hput] at hne
            exact hne hgone
          obtain ⟨d, hd, hdkey⟩ := hmem
          have hsome := hkept (deliveries ++ [delivery]) [] (by simp)
            ⟨d, List.mem_append_left _ hd, hdkey⟩
          rw [recordAll_snoc] at hsome
          unfold get at hsome
          rw [hput] at hsome
          have hgone' : ((ledger.recordAll deliveries).pulls.put
              (ledger.recordAll deliveries).capacity
              (py.lower delivery.repo, delivery.report.number) state).get
                (py.lower repo, number) = none := hgone
          rw [hgone'] at hsome
          cases hsome
      · rw [hsame]

@[simp] theorem recordAll_capacity (ledger : PullLedger) (deliveries : List (Reported py)) :
    (ledger.recordAll deliveries).capacity = ledger.capacity := by
  induction deliveries using List.reverseRecOn with
  | nil => rfl
  | append_singleton deliveries delivery ih =>
    rw [recordAll_snoc, (record_pulls py _ delivery.repo delivery.report).1, ih]

/-- What no report is about stays unknown. -/
theorem get_recordAll_none {deliveries : List (Reported py)} {repo : String} {number : ℤ}
    (hunknown : ledger.get py repo number = none)
    (hnone : ∀ d ∈ deliveries, d.key ≠ (py.lower repo, number)) :
    (ledger.recordAll deliveries).get py repo number = none := by
  have hnil : ofPull deliveries repo number = [] := by
    rw [ofPull, List.map_eq_nil_iff]
    exact List.filter_eq_nil_iff.mpr fun d hd hkey => hnone d hd (by simpa using hkey)
  rw [get_recordAll_kept hunknown, hnil]
  · rfl
  · rintro earlier later rfl ⟨d, hd, hkey⟩
    exact absurd hkey (hnone d (List.mem_append_left _ hd))

/-- **A pull request is kept while fewer others than the capacity are reported.** -/
theorem kept_of_card {deliveries : List (Reported py)} {repo : String} {number : ℤ}
    {T : Finset (String × ℤ)} (hunknown : ledger.get py repo number = none)
    (hT : ∀ d ∈ deliveries, d.key ≠ (py.lower repo, number) → d.key ∈ T)
    (hcard : T.card < ledger.capacity) : ledger.Kept repo number deliveries := by
  rintro earlier later rfl hmem
  obtain ⟨state, hstate⟩ : ∃ state,
      Lru.Fresh (py.lower repo, number) state T (ledger.recordAll earlier).pulls := by
    refine Lru.fresh_run (fun l => (ledger.recordAll l).pulls) Reported.key
      (fun d hd => hT d (List.mem_append_left _ hd)) hcard (fun before delivery after _ => ?_) hmem
    obtain ⟨-, -, hput | ⟨hsame, hwhy⟩⟩ :=
      (ledger.recordAll before).record_pulls py delivery.repo delivery.report
    · rw [recordAll_capacity] at hput
      rw [recordAll_snoc]
      exact Or.inl hput
    · rw [recordAll_snoc, hsame]
      refine Or.inr ⟨rfl, fun hkey => ?_⟩
      -- the pull request's first report is never dropped
      by_contra hno
      have hnone : ∀ d ∈ before, d.key ≠ (py.lower repo, number) :=
        fun d hd hdkey => hno ⟨d, hd, hdkey⟩
      have hsame : (ledger.recordAll before).get py delivery.repo delivery.report.number =
          (ledger.recordAll before).get py repo number :=
        congrArg (ledger.recordAll before).pulls.get hkey
      rw [hsame, get_recordAll_none hunknown hnone] at hwhy
      cases hwhy
  have hget : (ledger.recordAll earlier).get py repo number = some state := hstate.get
  rw [hget]
  rfl

/-- A state that is as of the greatest stamp, and closed exactly if a report at it shows that. -/
structure NewestOf (reports : List PullState) (state : PullState) : Prop where
  greatest : IsGreatest {t | ∃ report ∈ reports, report.instant = t} state.instant
  closed : state.isOpen = false ↔
    ∃ report ∈ reports, report.instant = state.instant ∧ report.isOpen = false

/-- A register of reports holds such a state. -/
theorem newestOf_held {reports : List PullState} {state : PullState}
    (h : held (takeIn PullState.instant settle) reports = some state) :
    NewestOf reports state := by
  have hsettle : ∀ a b : PullState, b.instant = a.instant → (settle a b).instant = b.instant := by
    intro a b heq
    unfold settle
    split
    · exact heq.symm
    · rfl
  have hgreatest := isGreatest_held hsettle h
  rw [held_eq hsettle] at h
  obtain ⟨hany, -⟩ := held_decisive (fun _ => ()) (fun r => !r.isOpen)
    (fun a b => by unfold settle; cases ha : a.isOpen <;> cases hb : b.isOpen <;> simp [ha, hb])
    (fun _ _ => by simp) h
  refine ⟨hgreatest, ?_⟩
  rw [← Bool.not_eq_true', hany, List.any_eq_true]
  constructor
  · rintro ⟨report, hmem, hclosed⟩
    obtain ⟨hin, hmax⟩ := (mem_atNewest reports report).mp hmem
    refine ⟨report, hin, le_antisymm (hgreatest.2 ⟨report, hin, rfl⟩) ?_, by simpa using hclosed⟩
    obtain ⟨top, htop, heq⟩ := hgreatest.1
    exact heq ▸ hmax top htop
  · rintro ⟨report, hin, heq, hclosed⟩
    refine ⟨report, (mem_atNewest reports report).mpr ⟨hin, fun other hother => ?_⟩, by simpa⟩
    rw [heq]
    exact hgreatest.2 ⟨other, hother, rfl⟩

/-- **The pull request ledger is insensitive to the order of arrival.**  Two orders of the same
deliveries, in neither of which the pull request is let go, leave it known as of the same stamp, the
greatest, and alike open or closed: closed exactly if a report at that stamp shows it closed. -/
theorem arrival_order_immaterial (py : Runtime) (ledger : PullLedger)
    (deliveries deliveries' : List (Reported py)) (repo : String) (number : ℤ)
    (hperm : deliveries.Perm deliveries') (hunknown : ledger.get py repo number = none)
    (hkept : ledger.Kept repo number deliveries) (hkept' : ledger.Kept repo number deliveries') :
    ∃ after after', ledger.observeAll py (deliveries.map fun d => (d.repo, d.pull)) = .ok after ∧
      ledger.observeAll py (deliveries'.map fun d => (d.repo, d.pull)) = .ok after' ∧
      (ofPull deliveries repo number = [] →
        after.get py repo number = none ∧ after'.get py repo number = none) ∧
      (ofPull deliveries repo number ≠ [] → ∃ state state',
        after.get py repo number = some state ∧ after'.get py repo number = some state' ∧
        NewestOf (ofPull deliveries repo number) state ∧
        state'.instant = state.instant ∧ state'.isOpen = state.isOpen) := by
  refine ⟨_, _, observeAll_eq deliveries, observeAll_eq deliveries', ?_, ?_⟩
  all_goals
    rw [get_recordAll_kept hunknown hkept, get_recordAll_kept hunknown hkept']
    have hpulls : (ofPull deliveries repo number).Perm (ofPull deliveries' repo number) :=
      (hperm.filter _).map _
  · intro hnil
    rw [hnil, List.nil_perm] at hpulls
    rw [hnil, hpulls]
    exact ⟨rfl, rfl⟩
  · intro hne
    have hne' : ofPull deliveries' repo number ≠ [] := fun hnil => hne (by
      rw [hnil, List.perm_nil] at hpulls
      exact hpulls)
    obtain ⟨state, hstate⟩ := Option.ne_none_iff_exists'.mp
      (mt (held_eq_none (takeIn PullState.instant settle)).mp hne)
    obtain ⟨state', hstate'⟩ := Option.ne_none_iff_exists'.mp
      (mt (held_eq_none (takeIn PullState.instant settle)).mp hne')
    have hnewest := newestOf_held hstate
    have hnewest' := newestOf_held hstate'
    have hinstant : state'.instant = state.instant := by
      refine hnewest'.greatest.unique ?_
      simpa only [hpulls.mem_iff] using hnewest.greatest
    refine ⟨state, state', hstate, hstate', hnewest, hinstant, ?_⟩
    have hclosed : state'.isOpen = false ↔ state.isOpen = false := by
      rw [hnewest'.closed, hnewest.closed, hinstant]
      simp only [hpulls.mem_iff]
    cases h : state.isOpen with
    | false => exact hclosed.mpr h
    | true =>
      by_contra hfalse
      rw [Bool.not_eq_true, hclosed, h] at hfalse
      cases hfalse

open IssueLedger (july julyRuntime)

/-- A pull request as a payload shows it. -/
def pullPayload (state updatedAt : String) : Json :=
  .obj [("number", .int 7), ("html_url", .str "https://github.com/o/r/pull/7"),
    ("state", .str state), ("updated_at", .str updatedAt),
    ("user", .obj [("login", .str "builder")])]

/-- A pull request that is closed and opened again within one second, the second time under its
repository's name in capitals. -/
def reopenedPull : List (Reported julyRuntime) :=
  [⟨"o/r", pullPayload "closed" "2026-07-01T00:00:02Z",
      ⟨july 2 IssueLedger.july_second, false, "builder", 7, "https://github.com/o/r/pull/7", ∅⟩,
        rfl⟩,
    ⟨"O/R", pullPayload "open" "2026-07-01T00:00:02Z",
      ⟨july 2 IssueLedger.july_second, true, "builder", 7, "https://github.com/o/r/pull/7", ∅⟩,
        rfl⟩]

theorem arrival_order_immaterial_reopened : ∃ after after' state state',
    empty.observeAll julyRuntime (reopenedPull.map fun d => (d.repo, d.pull)) = .ok after ∧
      empty.observeAll julyRuntime (reopenedPull.reverse.map fun d => (d.repo, d.pull)) =
        .ok after' ∧
      after.get julyRuntime "o/r" 7 = some state ∧ after'.get julyRuntime "o/r" 7 = some state' ∧
      state'.isOpen = state.isOpen := by
  have hkey : ∀ d ∈ reopenedPull, d.key = (julyRuntime.lower "o/r", 7) := by
    intro d hmem
    simp only [reopenedPull, List.mem_cons, List.not_mem_nil, or_false] at hmem
    rcases hmem with rfl | rfl <;> rfl
  have hkept : empty.Kept "o/r" 7 reopenedPull :=
    kept_of_card (T := ∅) rfl (fun d hmem hne => absurd (hkey d hmem) hne) (by decide)
  have hkept' : empty.Kept "o/r" 7 reopenedPull.reverse :=
    kept_of_card (T := ∅) rfl
      (fun d hmem hne => absurd (hkey d (List.mem_reverse.mp hmem)) hne) (by decide)
  obtain ⟨after, after', hrun, hrun', -, hheld⟩ := arrival_order_immaterial julyRuntime empty
    reopenedPull reopenedPull.reverse "o/r" 7 (List.reverse_perm _).symm rfl hkept hkept'
  have hne : ofPull reopenedPull "o/r" 7 ≠ [] := by
    intro hnil
    cases hnil
  obtain ⟨state, state', hget, hget', -, -, hopen⟩ := hheld hne
  exact ⟨after, after', state, state', hrun, hrun', hget, hget', hopen⟩

end PullLedger

end BasecradleRouter.Routes
