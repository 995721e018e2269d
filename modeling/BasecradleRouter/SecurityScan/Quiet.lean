/-
# The scan is quiet when nothing changed

`plans_settle`: when a run's plans have been applied, a second run with the same advisories and
errors plans nothing; the paging label is on the advisories plan exactly for what is news; and what
a scanner that failed had found stays recorded.

A run raises where `json.loads` does on a marker it reads, for another reason than that the marker
is no JSON, and nowhere else (`plans_returns_iff`).  What it wrote is read back as it was, since no
string it read holds a pair of surrogates (`unsplit_recorded`).

One thing is left over.  A run that reaches a verdict closes one issue of the scan's own that says
it could not, the first; the scan files one at a time.  Where several are open all the same, each
run closes the next (`not_quiet`, `leftOver`).

The two plans are about issues of different titles, so neither goes by what the other does
(`plans_made`), and what each wrote is read back by the next run.
-/
import BasecradleRouter.SecurityScan.Applied
import BasecradleRouter.SecurityScan.Marker
import BasecradleRouter.SecurityScan.Refiling

namespace BasecradleRouter.SecurityScan

open BasecradleRouter.Lib BasecradleRouter.Lib.JsonCodec

/-! ## 1. The states that are read -/

/-- `json.loads` raises nothing on a body's last marker but a `JSONDecodeError`. -/
def Loads (py : Python) (body : Json PyText) : Prop :=
  ∀ data ∈ lastMarker body, ∀ fault : LoadFault,
    (JsonCodec.read (.within py.nesting) data : Except LoadError (Json PyText)) ≠
      .error (.fault fault)

/-- That is when the state in it is read. -/
theorem stateIn_returns_iff {py : Python} {body : Json PyText} :
    (∃ state, stateIn py body = .ok state) ↔ Loads py body := by
  unfold stateIn Loads
  cases lastMarker body with
  | none => simp
  | some data =>
    simp only [Option.mem_def, Option.some.injEq, forall_eq']
    cases (JsonCodec.read (.within py.nesting) data : Except LoadError (Json PyText)) with
    | ok v => simp
    | error e =>
      cases e with
      | decode => simp
      | fault fault => simp

/-- The state in a marker without surrogates has strings without a pair. -/
theorem every_stateIn {py : Python} {body : Json PyText} {state : Fields PyText}
    (hscalars : ∀ data ∈ lastMarker body, Scalars data) (h : stateIn py body = .ok state) :
    Every Unpaired (.obj state) := by
  have hnil : Every Unpaired (.obj []) := .obj (List.forall_mem_nil _) (List.forall_mem_nil _)
  unfold stateIn at h
  split at h
  · cases h
    exact hnil
  · next data hdata =>
    split at h
    · next v hread =>
      cases h
      have hv := unpaired_of_read (hscalars data hdata) hread
      cases v with
      | obj fields => exact hv
      | _ => exact hnil
    · cases h
      exact hnil
    · cases h

/-- What the open issues have on record. -/
def recorded (py : Python) (issues : List Issue) : Except LoadFault (OrderedDict PyText PyText) :=
  knownIn py (ownTitled advisoriesTitle issues).head?

/-- What is filed in a state has no pair where the state has none. -/
theorem unsplit_knownOf {state : Fields PyText} (h : Every Unpaired (.obj state)) :
    DependencySecurityScan.Unsplit (knownOf state) := by
  intro k s hs
  obtain ⟨field, hfield, hitem⟩ := List.mem_filterMap.mp (OrderedDict.mem_of_get_ofItems hs)
  cases hlookup : state.lookup (PyText.ofString "advisories") with
  | none =>
    rw [hlookup] at hfield
    cases hfield
  | some v =>
    obtain ⟨before, after, hstate, -⟩ := List.lookup_eq_some_iff.mp hlookup
    have hv := (h.of_obj (PyText.ofString "advisories", v) (by rw [hstate]; simp)).2
    rw [hlookup, Option.getD_some] at hfield
    cases v with
    | obj fields =>
      obtain ⟨hkey, hvalue⟩ := hv.of_obj field hfield
      obtain ⟨name, value⟩ := field
      cases value with
      | str text =>
        cases hitem
        exact ⟨hkey, hvalue.of_str⟩
      | _ => cases hitem
    | _ => cases hfield

/-- And on record. -/
theorem unsplit_recorded {py : Python} {issues : List Issue} {read : OrderedDict PyText PyText}
    (hscalars : ∀ issue ∈ (ownTitled advisoriesTitle issues).head?,
      ∀ data ∈ lastMarker issue.body, Scalars data)
    (h : recorded py issues = .ok read) : DependencySecurityScan.Unsplit read := by
  unfold recorded knownIn at h
  split at h
  · next issue hissue =>
    cases hstate : stateIn py issue.body with
    | error fault =>
      rw [hstate] at h
      cases h
    | ok state =>
      rw [hstate] at h
      cases h
      exact unsplit_knownOf (every_stateIn (hscalars issue hissue) hstate)
  · cases h
    exact unsplit_knownOf (.obj (List.forall_mem_nil _) (List.forall_mem_nil _))

theorem recorded_returns_iff {py : Python} {issues : List Issue} :
    (∃ read, recorded py issues = .ok read) ↔
      ∀ issue ∈ (ownTitled advisoriesTitle issues).head?, Loads py issue.body := by
  unfold recorded knownIn
  cases (ownTitled advisoriesTitle issues).head? with
  | none => simp
  | some issue =>
    simp only [Option.mem_def, Option.some.injEq, forall_eq', ← stateIn_returns_iff]
    cases stateIn py issue.body with
    | ok state => simp [Except.map]
    | error fault => simp [Except.map]

namespace DependencySecurityScan

variable {scan : DependencySecurityScan} {py : Python} {issues issues' : List Issue}
  {existing : Option Issue} {plan : Option Plan} {failing : List PyText}
  {read : OrderedDict PyText PyText}

/-! ## 2. The advisories plan -/

/-- What is known of what is on record. -/
def known (scan : DependencySecurityScan) (read : OrderedDict PyText PyText) :
    OrderedDict PyText PyText := (scan.refiled read).known

/-- A body for what a run records. -/
def Records (py : Python) (scan : DependencySecurityScan) (read : OrderedDict PyText PyText)
    (body : PyText) : Prop :=
  stateIn py (.str body) =
    .ok [("advisories", respelled rejoined (texts (scan.current (scan.known read))))]

/-- A plan that files what a run found. -/
structure Files (py : Python) (scan : DependencySecurityScan) (read : OrderedDict PyText PyText)
    (p : Plan) : Prop where
  title : p.title = advisoriesTitle
  body : Records py scan read (p.body.getD "")
  labels : p.labels = scan.labels (scan.known read)

/-- What the advisories plan comes to. -/
inductive Planned (py : Python) (scan : DependencySecurityScan) (existing : Option Issue)
    (read : OrderedDict PyText PyText) : Option Plan → Prop
  | nothing (h : Unchanged scan (scan.refiled read)) : Planned py scan existing read none
  | creating {p : Plan} (hexisting : existing = none) (haction : p.action = .create)
      (hnumber : p.number = none) (h : Files py scan read p) :
      Planned py scan existing read (some p)
  | updating {p : Plan} {issue : Issue} (hexisting : existing = some issue)
      (haction : p.action = .update) (hnumber : p.number = some issue.number)
      (h : Files py scan read p) : Planned py scan existing read (some p)

theorem changeComment_returns (h : Reported scan) (py : Python) (filed : Filed) :
    ∃ comment, scan.changeComment py filed = .ok comment := by
  obtain ⟨rows, hrows⟩ := tableOf_returns py fun a ha =>
    h.pypi a (List.mem_filter.mp (show a ∈ scan.added filed.known from ha)).1
  unfold changeComment
  dsimp only
  rw [hrows]
  exact ⟨_, rfl⟩

/-- The plan goes by what is on record, and raises what reading that does. -/
theorem advisoriesPlan_eq :
    scan.advisoriesPlan py (issues.filter Issue.isOwn) =
      ((recorded py issues).mapError .load >>= fun read =>
        scan.planFrom py (ownTitled advisoriesTitle issues).head? (scan.refiled read)) := by
  unfold advisoriesPlan recorded
  rw [find?_own]

theorem advisoriesPlan_of_recorded (h : recorded py issues = .ok read) :
    scan.advisoriesPlan py (issues.filter Issue.isOwn) =
      scan.planFrom py (ownTitled advisoriesTitle issues).head? (scan.refiled read) := by
  rw [advisoriesPlan_eq, h]
  rfl

theorem planFrom_of_unchanged (h : Unchanged scan (scan.refiled read)) :
    scan.planFrom py existing (scan.refiled read) = .ok none := by
  unfold planFrom
  dsimp only
  rw [h.added, h.rerated, h.resolved, h.renamed]
  rfl

theorem planFrom_returns (h : Reported scan) (py : Python) (existing : Option Issue)
    (read : OrderedDict PyText PyText) :
    ∃ plan, scan.planFrom py existing (scan.refiled read) = .ok plan ∧
      Planned py scan existing read plan := by
  obtain ⟨body, hbody, hstate⟩ := advisoriesBody_returns py h.pypi
    (scan.current (scan.known read)) (scan.carried (scan.known read))
  obtain ⟨comment, hcomment⟩ := changeComment_returns h py (scan.refiled read)
  rw [known] at hbody
  unfold planFrom
  dsimp only
  split
  · next hunchanged =>
    simp only [Bool.and_eq_true, List.isEmpty_iff] at hunchanged
    obtain ⟨⟨⟨hadded, hrerated⟩, hresolved⟩, hrenamed⟩ := hunchanged
    exact ⟨none, rfl, .nothing ⟨hadded, hrerated, hresolved, hrenamed⟩⟩
  · rw [hbody]
    cases existing with
    | none => exact ⟨_, rfl, .creating rfl rfl rfl ⟨rfl, hstate, rfl⟩⟩
    | some issue =>
      rw [ok_bind]
      dsimp only
      rw [hcomment]
      exact ⟨_, rfl, .updating rfl rfl rfl ⟨rfl, hstate, rfl⟩⟩

/-- What the advisories plan is about. -/
theorem Planned.about {repo : Repository} {p : Plan}
    (h : Planned py scan (ownTitled advisoriesTitle repo.issues).head? read (some p)) :
    repo.About advisoriesTitle p := by
  cases h with
  | creating hexisting haction hnumber h => exact Repository.about_of_none h.title hnumber
  | updating hexisting haction hnumber h => exact Repository.about_of_head h.title hnumber hexisting

theorem knownOf_texts (d : OrderedDict PyText PyText) :
    knownOf [("advisories", texts d)] = .ofItems d.items := by
  have hitems : (d.items.map fun item => (item.1, Json.str item.2)).filterMap
      (fun field => field.2.asStr.map (field.1, ·)) = d.items := by
    rw [List.filterMap_map]
    exact List.filterMap_some
  unfold knownOf
  rw [List.lookup_cons, beq_self_eq_true]
  dsimp only
  rw [Option.getD_some, texts, Json.asObj, Option.getD_some, hitems]

/-- What was written is on record for the next run, as it is read back. -/
theorem Records.recorded {issue : Issue} {body : PyText} (hbody : Records py scan read body)
    (hhead : (ownTitled advisoriesTitle issues).head? = some issue)
    (hissue : issue.body = .str body) :
    SecurityScan.recorded py issues = .ok (knownOf
      [("advisories", respelled rejoined (texts (scan.current (scan.known read))))]) := by
  rw [SecurityScan.recorded, hhead, knownIn, hissue, hbody]
  rfl

theorem applyAll_some (repo : Repository) (p : Plan) :
    repo.applyAll (some p).toList = repo.apply p := rfl

/-- After the plan is applied, the issue records what the run found, or nothing had changed. -/
theorem Planned.recorded {repo : Repository}
    (h : Planned py scan (ownTitled advisoriesTitle repo.issues).head? read plan) :
    (Unchanged scan (scan.refiled read) ∧
      (ownTitled advisoriesTitle (repo.applyAll plan.toList).issues).head? =
        (ownTitled advisoriesTitle repo.issues).head?) ∨
    SecurityScan.recorded py (repo.applyAll plan.toList).issues = .ok (knownOf
      [("advisories", respelled rejoined (texts (scan.current (scan.known read))))]) := by
  cases h with
  | nothing h => exact Or.inl ⟨h, rfl⟩
  | creating hexisting haction hnumber h =>
    rw [applyAll_some]
    exact Or.inr (h.body.recorded (Repository.head?_apply_create haction h.title) rfl)
  | updating hexisting haction hnumber h =>
    rw [applyAll_some]
    exact Or.inr (h.body.recorded (Repository.head?_apply_update haction hnumber hexisting) rfl)

/-- A second run finds on record what is settled, or what nothing had changed of. -/
theorem Planned.again {repo : Repository} (h : Reported scan)
    (hread : SecurityScan.recorded py repo.issues = .ok read)
    (hplan : Planned py scan (ownTitled advisoriesTitle repo.issues).head? read plan)
    (hunsplit : Unsplit (scan.current (scan.known read))) :
    ∃ now, SecurityScan.recorded py (repo.applyAll plan.toList).issues = .ok now ∧
      Unchanged scan (scan.refiled now) ∧
        ∀ k s, (scan.current (scan.known read)).get k = some s → read.get k = some s →
          now.get k = some s := by
  rcases hplan.recorded with ⟨hunchanged, hsame⟩ | hnow
  · rw [SecurityScan.recorded] at hread
    exact ⟨read, by rw [SecurityScan.recorded, hsame, hread], hunchanged, fun k s _ hs => hs⟩
  · have hwritten : respelled rejoined (texts (scan.current (scan.known read))) =
        texts (scan.current (scan.known read)) := by
      refine (respelled_eq_iff (textual_texts _)).mpr (every_texts.mpr fun item hitem => ?_)
      exact hunsplit item.1 item.2 (OrderedDict.mem_items.mp hitem)
    rw [hwritten, knownOf_texts] at hnow
    have hcurrent := OrderedDict.get_ofItems (scan.current (scan.known read))
    refine ⟨_, hnow, ((settled_current h _).congr hcurrent).unchanged h, fun k s hs _ => ?_⟩
    rw [hcurrent k, hs]

/-! ## 3. The error plan -/

/-- The issue a run that reaches a verdict leaves open: the second of the scan's own that say it
could not. -/
def leftOver (scan : DependencySecurityScan) (issues : List Issue) : Option Issue :=
  if scan.errors.items.isEmpty then (ownTitled errorTitle issues).tail.head? else none

theorem isEmpty_failing (scan : DependencySecurityScan) :
    scan.errors.sorted.keys.isEmpty = scan.errors.items.isEmpty := by
  have hperm : scan.errors.sorted.items.Perm scan.errors.items := List.perm_insertionSort _ _
  rw [OrderedDict.keys, List.isEmpty_map, Bool.eq_iff_iff, List.isEmpty_iff, List.isEmpty_iff]
  exact ⟨fun h => (h ▸ hperm).symm.eq_nil, fun h => (h ▸ hperm).eq_nil⟩

theorem mapM_asStr (strings : List PyText) :
    (strings.map Json.str).mapM Json.asStr = some strings := by
  induction strings with
  | nil => rfl
  | cons s strings ih =>
    rw [List.map_cons, List.mapM_cons, ih]
    rfl

/-- The names of the scanners that fail are read back as they are. -/
theorem rejoined_failing (h : Reported scan) :
    scan.errors.sorted.keys.map rejoined = scan.errors.sorted.keys := by
  conv => rhs; rw [← List.map_id' scan.errors.sorted.keys]
  refine List.map_congr_left fun name hname => rejoined_eq_iff.mpr (h.scanners name ?_)
  obtain ⟨reason, hreason⟩ := OrderedDict.mem_keys.mp hname
  rw [OrderedDict.get_sorted] at hreason
  exact OrderedDict.mem_keys.mpr ⟨reason, hreason⟩

/-- An issue that was written for the scanners that fail. -/
def Written (py : Python) (scan : DependencySecurityScan) (issue : Issue) : Prop :=
  ∃ state, stateIn py issue.body = .ok state ∧
    isFailing scan.errors.sorted.keys (state.get "failing") = true

theorem written_errorBody (h : Reported scan) {issue : Issue}
    (hissue : issue.body = .str (scan.errorBody py scan.errors.sorted.keys)) :
    Written py scan issue := by
  refine ⟨_, by rw [hissue, stateIn_errorBody, rejoined_failing h], ?_⟩
  rw [Fields.get, List.lookup_cons, beq_self_eq_true]
  dsimp only
  rw [Option.getD_some, isFailing, Json.asArr, Option.bind_some, mapM_asStr]
  exact beq_self_eq_true _

/-- The plan goes by the first issue under its title. -/
theorem errorPlan_congr
    (h : (ownTitled errorTitle issues').head? = (ownTitled errorTitle issues).head?) :
    scan.errorPlan py (issues'.filter Issue.isOwn) =
      scan.errorPlan py (issues.filter Issue.isOwn) := by
  unfold errorPlan
  rw [find?_own, find?_own, h]

theorem errorPlan_of_verdict (hverdict : scan.errors.items.isEmpty = true) :
    scan.errorPlan py (issues.filter Issue.isOwn) =
      .ok ((ownTitled errorTitle issues).head?.map scan.closing) := by
  unfold errorPlan
  rw [find?_own]
  dsimp only
  rw [isEmpty_failing, hverdict]
  cases (ownTitled errorTitle issues).head? with
  | none => rfl
  | some issue => rfl

/-- What the error plan comes to where a scanner fails. -/
inductive ErrorPlanned (py : Python) (scan : DependencySecurityScan) (existing : Option Issue) :
    Option Plan → Prop
  | nothing {issue : Issue} (hexisting : existing = some issue) (h : Written py scan issue) :
      ErrorPlanned py scan existing none
  | creating {p : Plan} (hexisting : existing = none) (haction : p.action = .create)
      (hnumber : p.number = none) (htitle : p.title = errorTitle)
      (hbody : p.body.getD "" = scan.errorBody py scan.errors.sorted.keys) :
      ErrorPlanned py scan existing (some p)
  | updating {p : Plan} {issue : Issue} (hexisting : existing = some issue)
      (haction : p.action = .update) (hnumber : p.number = some issue.number)
      (htitle : p.title = errorTitle)
      (hbody : p.body.getD "" = scan.errorBody py scan.errors.sorted.keys) :
      ErrorPlanned py scan existing (some p)

theorem errorPlan_of_failing (hfails : scan.errors.items.isEmpty = false)
    (hreads : ∀ issue ∈ (ownTitled errorTitle issues).head?, Loads py issue.body) :
    ∃ plan, scan.errorPlan py (issues.filter Issue.isOwn) = .ok plan ∧
      ErrorPlanned py scan (ownTitled errorTitle issues).head? plan := by
  unfold errorPlan
  rw [find?_own]
  dsimp only
  rw [isEmpty_failing, hfails]
  cases hhead : (ownTitled errorTitle issues).head? with
  | none => exact ⟨_, rfl, .creating rfl rfl rfl rfl rfl⟩
  | some issue =>
    obtain ⟨state, hstate⟩ := stateIn_returns_iff.mpr (hreads issue hhead)
    dsimp only
    rw [hstate, if_neg Bool.false_ne_true, Except.mapError, ok_bind]
    split
    · next hwritten => exact ⟨none, rfl, .nothing rfl ⟨state, hstate, hwritten⟩⟩
    · exact ⟨_, rfl, .updating rfl rfl rfl rfl rfl⟩

/-- Where the first issue was written for the scanners that fail, nothing is planned. -/
theorem errorPlan_of_written (hfails : scan.errors.items.isEmpty = false) {issue : Issue}
    (hhead : (ownTitled errorTitle issues).head? = some issue) (h : Written py scan issue) :
    scan.errorPlan py (issues.filter Issue.isOwn) = .ok none := by
  obtain ⟨state, hstate, hwritten⟩ := h
  unfold errorPlan
  rw [find?_own, hhead]
  dsimp only
  rw [isEmpty_failing, hfails, hstate, Except.mapError, ok_bind, hwritten]
  rfl

theorem ErrorPlanned.about {repo : Repository} {p : Plan}
    (h : ErrorPlanned py scan (ownTitled errorTitle repo.issues).head? (some p)) :
    repo.About errorTitle p := by
  cases h with
  | creating hexisting haction hnumber htitle hbody =>
    exact Repository.about_of_none htitle hnumber
  | updating hexisting haction hnumber htitle hbody =>
    exact Repository.about_of_head htitle hnumber hexisting

/-- **A second run plans nothing more about scanners that fail.** -/
theorem ErrorPlanned.again {repo : Repository} (h : Reported scan)
    (hfails : scan.errors.items.isEmpty = false)
    (hplan : ErrorPlanned py scan (ownTitled errorTitle repo.issues).head? plan) :
    scan.errorPlan py ((repo.applyAll plan.toList).issues.filter Issue.isOwn) = .ok none := by
  cases hplan with
  | nothing hexisting hwritten => exact errorPlan_of_written hfails hexisting hwritten
  | creating hexisting haction hnumber htitle hbody =>
    rw [applyAll_some]
    exact errorPlan_of_written hfails (Repository.head?_apply_create haction htitle)
      (written_errorBody h (congrArg Json.str hbody))
  | updating hexisting haction hnumber htitle hbody =>
    rw [applyAll_some]
    exact errorPlan_of_written hfails (Repository.head?_apply_update haction hnumber hexisting)
      (written_errorBody h (congrArg Json.str hbody))

/-- **The error plan comes to rest**: it is about issues under its own title, and a second run plans
nothing more but to close what was left over. -/
theorem errorPlan_settles (h : Reported scan) (repo : Repository)
    (hreads : scan.errors.items.isEmpty = false →
      ∀ issue ∈ (ownTitled errorTitle repo.issues).head?, Loads py issue.body) :
    ∃ plan, scan.errorPlan py (repo.issues.filter Issue.isOwn) = .ok plan ∧
      (∀ p ∈ plan, repo.About errorTitle p) ∧
      scan.errorPlan py ((repo.applyAll plan.toList).issues.filter Issue.isOwn) =
        .ok ((scan.leftOver repo.issues).map scan.closing) := by
  unfold leftOver
  cases hverdict : scan.errors.items.isEmpty with
  | true =>
    refine ⟨_, errorPlan_of_verdict hverdict, ?_⟩
    rw [if_pos rfl, errorPlan_of_verdict hverdict]
    cases hown : ownTitled errorTitle repo.issues with
    | nil =>
      have hsame : ownTitled errorTitle (repo.applyAll []).issues = [] := hown
      refine ⟨nofun, ?_⟩
      rw [List.head?_nil, Option.map_none, Option.toList_none, hsame]
      rfl
    | cons issue rest =>
      rw [List.head?_cons, Option.map_some, applyAll_some,
        Repository.ownTitled_apply_close rfl rfl hown]
      refine ⟨fun p hp => ?_, rfl⟩
      obtain rfl := Option.some.inj hp
      exact Repository.about_of_head rfl rfl (by rw [hown, List.head?_cons])
  | false =>
    rw [if_neg Bool.false_ne_true, Option.map_none]
    obtain ⟨plan, hplan, hplanned⟩ := errorPlan_of_failing hverdict (hreads hverdict)
    refine ⟨plan, hplan, ?_, hplanned.again h hverdict⟩
    rintro p rfl
    exact hplanned.about

/-! ## 4. Both plans -/

/-- The markers a run reads are read: of its own issues that of the first about advisories and,
where a scanner fails, that of the first about errors. -/
structure Readable (py : Python) (scan : DependencySecurityScan) (issues : List Issue) : Prop where
  advisories : ∀ issue ∈ (ownTitled advisoriesTitle issues).head?, Loads py issue.body
  errors : scan.errors.items.isEmpty = false →
    ∀ issue ∈ (ownTitled errorTitle issues).head?, Loads py issue.body

/-- Both plans, as they were made before either is applied. -/
theorem plans_eq {advisories error : Option Plan}
    (h : scan.advisoriesPlan py (issues.filter Issue.isOwn) = .ok advisories)
    (herror : scan.errorPlan py (issues.filter Issue.isOwn) = .ok error) :
    scan.plans py issues = .ok (advisories.toList ++ error.toList) := by
  unfold plans
  dsimp only
  rw [h, herror]
  rfl

/-- **A run raises exactly where a marker it reads does.** -/
theorem plans_returns_iff (h : Reported scan) :
    (∃ plans, scan.plans py issues = .ok plans) ↔ Readable py scan issues := by
  constructor
  · rintro ⟨plans, hplans⟩
    unfold DependencySecurityScan.plans at hplans
    obtain ⟨advisories, hadvisories, hplans⟩ := bind_eq_ok.mp hplans
    obtain ⟨error, herror, -⟩ := bind_eq_ok.mp hplans
    constructor
    · rw [advisoriesPlan_eq] at hadvisories
      obtain ⟨read, hread, -⟩ := bind_eq_ok.mp hadvisories
      refine recorded_returns_iff.mp ⟨read, ?_⟩
      cases hrecorded : recorded py issues with
      | error fault =>
        rw [hrecorded] at hread
        cases hread
      | ok now =>
        rw [hrecorded] at hread
        cases hread
        rfl
    · intro hfails issue hissue
      unfold errorPlan at herror
      rw [find?_own, hissue] at herror
      dsimp only at herror
      rw [isEmpty_failing, hfails, if_neg Bool.false_ne_true] at herror
      obtain ⟨state, hstate, -⟩ := bind_eq_ok.mp herror
      refine stateIn_returns_iff.mp ⟨state, ?_⟩
      cases hread : stateIn py issue.body with
      | error fault =>
        rw [hread] at hstate
        cases hstate
      | ok now =>
        rw [hread] at hstate
        cases hstate
        rfl
  · intro hreadable
    obtain ⟨read, hread⟩ := recorded_returns_iff.mpr hreadable.advisories
    obtain ⟨advisories, hadvisories, -⟩ :=
      planFrom_returns h py (ownTitled advisoriesTitle issues).head? read
    rw [← advisoriesPlan_of_recorded hread] at hadvisories
    cases hverdict : scan.errors.items.isEmpty with
    | true => exact ⟨_, plans_eq hadvisories (errorPlan_of_verdict hverdict)⟩
    | false =>
      obtain ⟨error, herror, -⟩ := errorPlan_of_failing hverdict (hreadable.errors hverdict)
      exact ⟨_, plans_eq hadvisories herror⟩

theorem titles_ne : advisoriesTitle ≠ errorTitle := by decide

/-- A plan about one title leaves the issues about another as they are. -/
theorem ownTitled_applyAll {repo : Repository} {title title' : PyText}
    (h : ∀ p ∈ plan, repo.About title p) (hne : title ≠ title') :
    ownTitled title' (repo.applyAll plan.toList).issues = ownTitled title' repo.issues := by
  cases plan with
  | none => rfl
  | some p => exact Repository.ownTitled_apply (h p rfl) hne

/-- The paging label is on the advisories plan for what is announced. -/
theorem Planned.paging_iff (h : Planned py scan existing read plan) :
    (∃ p ∈ plan, pagingLabel ∈ p.labels) ↔
      ∃ a ∈ scan.added (scan.known read) ++ scan.escalated (scan.known read),
        a.pages = true := by
  rw [← pagingLabel_mem_labels]
  cases h with
  | nothing h =>
    have hlabels : scan.labels (scan.known read) = [] := by
      rw [labels, known, escalated, h.added, h.rerated]
      rfl
    rw [hlabels]
    simp
  | creating hexisting haction hnumber h => simp [h.labels]
  | updating hexisting haction hnumber h => simp [h.labels]

/-- What a run plans, the two plans apart: the error plan neither goes by what the advisories plan
does nor touches what that records. -/
theorem plans_made (h : Reported scan) (repo : Repository)
    (hreadable : Readable py scan repo.issues) :
    ∃ (read : OrderedDict PyText PyText) (plan error : Option Plan),
      recorded py repo.issues = .ok read ∧
      Planned py scan (ownTitled advisoriesTitle repo.issues).head? read plan ∧
      scan.plans py repo.issues = .ok (plan.toList ++ error.toList) ∧
      (∀ p ∈ error, p.title = errorTitle) ∧
      recorded py (repo.applyAll (plan.toList ++ error.toList)).issues =
        recorded py (repo.applyAll plan.toList).issues ∧
      scan.errorPlan py
        ((repo.applyAll (plan.toList ++ error.toList)).issues.filter Issue.isOwn) =
          .ok ((scan.leftOver repo.issues).map scan.closing) := by
  obtain ⟨read, hread⟩ := recorded_returns_iff.mpr hreadable.advisories
  obtain ⟨plan, hplan, hplanned⟩ :=
    planFrom_returns h py (ownTitled advisoriesTitle repo.issues).head? read
  rw [← advisoriesPlan_of_recorded hread] at hplan
  have habout : ∀ p ∈ plan, repo.About advisoriesTitle p := by
    rintro p rfl
    exact hplanned.about
  have herrors := ownTitled_applyAll habout titles_ne
  obtain ⟨error, herror, herrorAbout, hrest⟩ :=
    errorPlan_settles h (repo.applyAll plan.toList) fun hfails issue hissue =>
      hreadable.errors hfails issue (herrors ▸ hissue)
  have hsame : scan.errorPlan py ((repo.applyAll plan.toList).issues.filter Issue.isOwn) =
      scan.errorPlan py (repo.issues.filter Issue.isOwn) := errorPlan_congr (by rw [herrors])
  have hleft : scan.leftOver (repo.applyAll plan.toList).issues = scan.leftOver repo.issues := by
    rw [leftOver, leftOver, herrors]
  rw [hsame] at herror
  rw [← Repository.applyAll_append, hleft] at hrest
  refine ⟨read, plan, error, hread, hplanned, plans_eq hplan herror,
    fun p hp => (herrorAbout p hp).titled, ?_, hrest⟩
  rw [Repository.applyAll_append, recorded, ownTitled_applyAll herrorAbout titles_ne.symm]
  rfl

/-- **The scan is quiet when nothing changed, and pages for what is news.**  A second run plans
nothing, but to close an issue that was left over; the paging label is on the advisories plan
exactly if an advisory rated High or Critical is news; and what a scanner that failed had found is
neither resolved nor dropped from the record. -/
theorem plans_settle (py : Python) (scan : DependencySecurityScan) (h : Reported scan)
    (repo : Repository) (hreadable : Readable py scan repo.issues)
    (hscalars : ∀ issue ∈ (ownTitled advisoriesTitle repo.issues).head?,
      ∀ data ∈ lastMarker issue.body, Scalars data) :
    ∃ read plans, recorded py repo.issues = .ok read ∧
      scan.plans py repo.issues = .ok plans ∧
      scan.plans py (repo.applyAll plans).issues =
        .ok ((scan.leftOver repo.issues).map scan.closing).toList ∧
      ((∃ p ∈ plans, p.title = advisoriesTitle ∧ pagingLabel ∈ p.labels) ↔
        ∃ a ∈ scan.advisories, a.pages = true ∧ IsNews read a) ∧
      ∀ k s, scan.failing k = true → read.get k = some s →
        k ∉ scan.resolved (scan.refiled read).known ∧
          ∃ now, recorded py (repo.applyAll plans).issues = .ok now ∧ now.get k = some s := by
  obtain ⟨read, plan, error, hread, hplanned, hplans, herror, hsame, hrest⟩ :=
    plans_made h repo hreadable
  obtain ⟨now, hnow, hunchanged, hkept⟩ := hplanned.again h hread
    (unsplit_current h (unsplit_refiled h (unsplit_recorded hscalars hread)))
  rw [← hsame] at hnow
  refine ⟨read, _, hread, hplans, ?_, ?_, ?_⟩
  · have hquiet : scan.advisoriesPlan py
        ((repo.applyAll (plan.toList ++ error.toList)).issues.filter Issue.isOwn) = .ok none := by
      rw [advisoriesPlan_of_recorded hnow, planFrom_of_unchanged hunchanged]
    rw [plans_eq hquiet hrest]
    rfl
  · rw [← announced_paging_iff h]
    refine Iff.trans ?_ hplanned.paging_iff
    constructor
    · rintro ⟨p, hp, htitle, hlabel⟩
      rcases List.mem_append.mp hp with hp | hp
      · exact ⟨p, Option.mem_toList.mp hp, hlabel⟩
      · exact absurd (htitle.symm.trans (herror p (Option.mem_toList.mp hp))) titles_ne
    · rintro ⟨p, hp, hlabel⟩
      obtain rfl : plan = some p := hp
      exact ⟨p, List.mem_append_left _ (Option.mem_toList.mpr rfl), hplanned.about.titled, hlabel⟩
  · intro k s hk hs
    obtain ⟨hresolved, hcurrent⟩ := carried_forward h hk hs
    exact ⟨hresolved, now, hnow, hkept k s hcurrent hs⟩

/-- A repository without an open issue. -/
def noIssues : Repository := ⟨[], 1, List.forall_mem_nil _, List.nodup_nil⟩

/-- One advisory rated High. -/
def anyioScan : DependencySecurityScan :=
  .init
    [{ ecosystem := "pypi", package := "anyio", affected := "4.0", id := "GHSA-a",
       severity := "high", title := "A race", url := none, aliases := ["GHSA-a", "PYSEC-1"] }]
    .empty "main" "0" "url" "2026-11-05 06:00Z"

/-- Where it is filed under another of its names, at a lower rating. -/
def anyioFiled : Repository :=
  noIssues.create advisoriesTitle ("<!-- dependency-security-scan " ++
    "\x7b\"advisories\":\x7b\"pypi:anyio:PYSEC-1\":\"low\"\x7d\x7d" ++ " -->")

theorem plans_settle_anyio : ∃ plans, anyioScan.plans .ascii anyioFiled.issues = .ok plans ∧
    (∃ p ∈ plans, p.title = advisoriesTitle ∧ pagingLabel ∈ p.labels) ∧
    anyioScan.plans .ascii (anyioFiled.applyAll plans).issues = .ok [] := by
  have hreported : Reported anyioScan := by
    constructor
    · decide
    · intro a ha
      obtain rfl := List.mem_singleton.mp ha
      have hletters : ∀ c ∈ PyText.ofString "anyio", (charOf c).isAlphanum = true :=
        List.all_eq_true.mp (by decide)
      exact fun c hc => Or.inl (hletters c hc)
    · decide
    · exact List.pairwise_singleton _ _
    · decide
    · decide
    · exact List.forall_mem_nil _
  have hreadable : Readable .ascii anyioScan anyioFiled.issues := by
    refine ⟨fun issue hissue => stateIn_returns_iff.mp ?_, nofun⟩
    obtain rfl := Option.some.inj hissue
    exact ⟨_, rfl⟩
  obtain ⟨read, plans, hread, hplans, hagain, hpages, -⟩ :=
    plans_settle .ascii anyioScan hreported anyioFiled hreadable (by decide)
  refine ⟨plans, hplans, hpages.mpr ⟨_, List.mem_singleton_self _, by decide, Or.inr ?_⟩, hagain⟩
  have hrecorded : recorded .ascii anyioFiled.issues =
      .ok (OrderedDict.empty.set "pypi:anyio:PYSEC-1" "low") := rfl
  rw [hrecorded] at hread
  cases hread
  exact ⟨"low", ⟨by decide, by decide⟩, by decide⟩

/-! ## 5. Where it is not quiet -/

/-- Nothing is found, and every scanner reached a verdict. -/
def clean : DependencySecurityScan := .init [] .empty "main" "0" "url" "2026-11-05 06:00Z"

theorem reported_clean : Reported clean where
  pypi := List.forall_mem_nil _
  legal := List.forall_mem_nil _
  named := List.forall_mem_nil _
  apart := List.Pairwise.nil
  reached := List.forall_mem_nil _
  unpaired := List.forall_mem_nil _
  scanners := List.forall_mem_nil _

/-- Two issues of the scan's own say that it could not reach a verdict. -/
def twoErrors : Repository := (noIssues.create errorTitle "").create errorTitle ""

/-- An integer as the one entry of a state. -/
def counted (digits : List Char) : PyText :=
  "\x7b\"n\":" ++ (digits.map CodePoint.ofChar ++ [CodePoint.ofChar '\x7d'])

/-- An issue with a state, on a line of its own. -/
def holding (data : PyText) : Repository :=
  noIssues.create advisoriesTitle ([] ++ Enclosed.newline ::
    (markerExpression.opening ++ (data ++ markerExpression.closing) ++ [Enclosed.newline]))

theorem notMem_counted {digits : List Char} (h : ∀ c ∈ digits, c.isDigit = true) :
    Enclosed.newline ∉
      markerExpression.opening ++ (counted digits ++ markerExpression.closing) := by
  simp only [counted, List.mem_append, List.mem_map]
  rintro (hmem | (hmem | ⟨c, hc, hnewline⟩ | hmem) | hmem)
  · exact absurd hmem (by decide)
  · exact absurd hmem (by decide)
  · have hdigit := h c hc
    rw [CodePoint.ofChar_inj hnewline] at hdigit
    exact absurd hdigit (by decide)
  · exact absurd hmem (by decide)
  · exact absurd hmem (by decide)

/-- Where an integer has too many digits, the run raises. -/
theorem plans_counted {digits : List Char} (h : ∀ c ∈ digits, c.isDigit = true)
    (hne : digits ≠ []) (hhead : digits.head? ≠ some '0') (hlong : maxStrDigits < digits.length)
    (scan : DependencySecurityScan) :
    scan.plans .ascii (holding (counted digits)).issues = .error (.load .digits) := by
  have hreads : (Limits.within 1000).reads digits.length = false :=
    decide_eq_false (Nat.not_le.mpr hlong)
  have hread : (JsonCodec.read (.within 1000) (counted digits) : Except LoadError (Json PyText)) =
      .error (.fault .digits) := by
    have hstart : (JsonCodec.read (.within 1000) (counted digits) :
        Except LoadError (Json PyText)) = (JsonCodec.scan (.within 1000) .nothing
          (.reading [.member (PyText.ofString "n"), .obj []] .value)
          (digits.map CodePoint.ofChar ++ [CodePoint.ofChar '\x7d']) >>= State.result) := rfl
    rw [hstart, scan_long h hne hhead hreads]
    rfl
  have hbraces : Enclosed.inBraces (counted digits) = true := by
    rw [counted, ← List.append_assoc, Enclosed.inBraces, List.getLast?_concat]
    rfl
  have hrecorded : recorded .ascii (holding (counted digits)).issues = .error .digits := by
    have hfirst : (ownTitled advisoriesTitle (holding (counted digits)).issues).head? =
        some (Repository.filedIssue 1 advisoriesTitle _) := rfl
    rw [recorded, hfirst, knownIn, Repository.filedIssue, stateIn,
      lastMarker_line hbraces (notMem_counted h)]
    dsimp only
    rw [Python.ascii, hread]
    rfl
  unfold plans
  dsimp only
  rw [advisoriesPlan_eq, hrecorded]
  rfl

/-- A key with a pair of surrogates in it, each by itself. -/
def pairKey : PyText := "pypi:" ++ [firstHalf, secondHalf]

def pairState : PyText :=
  "\x7b\"advisories\":\x7b\"" ++ pairKey ++ "\":\"high\",\"npm:a\":\"low\"\x7d\x7d"

/-- No verdict on `pypi`. -/
def unreached : DependencySecurityScan :=
  .init [] (OrderedDict.empty.set "pypi" "timed out") "main" "0" "url" "2026-11-05 06:00Z"

theorem reported_unreached : Reported unreached where
  pypi := List.forall_mem_nil _
  legal := List.forall_mem_nil _
  named := List.forall_mem_nil _
  apart := List.Pairwise.nil
  reached := List.forall_mem_nil _
  unpaired := List.forall_mem_nil _
  scanners := List.forall_mem_singleton.mpr (by decide)

/-- What is filed under it is not filed so any more, where the record is written anew. -/
theorem get_pairKey : ∃ read plans now, recorded .ascii (holding pairState).issues = .ok read ∧
    read.get pairKey = some (PyText.ofString "high") ∧
    unreached.plans .ascii (holding pairState).issues = .ok plans ∧
    recorded .ascii ((holding pairState).applyAll plans).issues = .ok now ∧
    now.get pairKey = none := by
  have hrecorded : recorded .ascii (holding pairState).issues =
      .ok ((OrderedDict.empty.set pairKey (PyText.ofString "high")).set "npm:a" "low") := rfl
  have hreadable : Readable .ascii unreached (holding pairState).issues :=
    ⟨recorded_returns_iff.mp ⟨_, hrecorded⟩, nofun⟩
  obtain ⟨read, plan, error, hread, hplanned, hplans, -, hsame, -⟩ :=
    plans_made reported_unreached (holding pairState) hreadable
  rw [hrecorded] at hread
  cases hread
  rcases hplanned.recorded with ⟨hunchanged, -⟩ | hnow
  · exact absurd hunchanged.resolved (by decide)
  · exact ⟨_, _, _, hrecorded, by decide, hplans, hsame.trans hnow, by decide⟩

/-- The second of two issues about errors is closed by a second run; a run raises on an integer of
too many digits; and of two surrogates the record makes one character. -/
theorem not_quiet :
    (Reported clean ∧ ∃ plans, clean.plans .ascii twoErrors.issues = .ok plans ∧
      clean.plans .ascii (twoErrors.applyAll plans).issues ≠ .ok []) ∧
    (∀ plans, clean.plans .ascii
      (holding (counted (List.replicate (maxStrDigits + 1) '9'))).issues ≠ .ok plans) ∧
    Reported unreached ∧ unreached.failing pairKey = true ∧
      ∃ read plans now, recorded .ascii (holding pairState).issues = .ok read ∧
        read.get pairKey = some (PyText.ofString "high") ∧
        unreached.plans .ascii (holding pairState).issues = .ok plans ∧
        recorded .ascii ((holding pairState).applyAll plans).issues = .ok now ∧
        now.get pairKey = none := by
  have hfirst : clean.plans .ascii twoErrors.issues =
      .ok [clean.closing (Repository.filedIssue 2 errorTitle "")] := rfl
  have hsecond : clean.plans .ascii (twoErrors.applyAll
      [clean.closing (Repository.filedIssue 2 errorTitle "")]).issues =
        .ok [clean.closing (Repository.filedIssue 1 errorTitle "")] := rfl
  refine ⟨⟨reported_clean, _, hfirst, ?_⟩, fun plans => ?_, reported_unreached, by decide,
    get_pairKey⟩
  · rw [hsecond]
    intro h
    cases h
  · have hdigits : ∀ c ∈ List.replicate (maxStrDigits + 1) '9', c.isDigit = true := by
      intro c hc
      rw [List.eq_of_mem_replicate hc]
      rfl
    rw [plans_counted hdigits (by simp) (by simp [List.head?_replicate]) (by simp) clean]
    exact nofun

end DependencySecurityScan

end BasecradleRouter.SecurityScan
