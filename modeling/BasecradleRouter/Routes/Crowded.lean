/-
# Ledgers with no room left

A ledger has room for a bounded number of entries.  A report of something it does not hold lets the
entry go that was reported longest ago, where the ledger is full (`LetsGo`), and nothing else lets
one go.  What is let go may be brought back by a later report.

`allHeld_iff` says of a list of reports which of them the ledger holds in the end: all that are
wanted, exactly if it loses none (`Loses`).  Where there is room for whatever it held and whatever
is reported, it loses none (`not_loses_of_card`).
-/
import BasecradleRouter.Lib.Retained
import BasecradleRouter.Routes.Ties

namespace BasecradleRouter.Routes

open BasecradleRouter.Lib BasecradleRouter.Lib.Stamped

/-! ## 1. Issues -/

namespace IssueLedger

variable {ledger : IssueLedger}

/-- Recording the report lets the issue at `url` go: its own issue is not known and carries handoff,
the ledger is full, and nothing was reported longer ago. -/
def LetsGo (ledger : IssueLedger) (report : IssueReport) (url : String) : Prop :=
  (ledger.get report.url = none ∧ report.showsHandoff = true) ∧
    ledger.issues.toList.length = ledger.capacity ∧ ledger.issues.oldest = some url

/-- When the issue was last changed, as far as the ledger knows. -/
def instantAt (ledger : IssueLedger) (url : String) : Option ℤ :=
  (ledger.get url).map IssueState.instant

theorem settleTie_instant (known report : IssueState) :
    (settleTie known report).instant = report.instant := rfl

/-- What is held is found by what was touched longest ago. -/
theorem get_of_oldest {url : String} (h : ledger.issues.oldest = some url) :
    (ledger.get url).isSome = true := by
  unfold Lru.oldest at h
  obtain ⟨⟨url', state⟩, hhead, rfl⟩ := Option.map_eq_some_iff.mp h
  exact Option.isSome_iff_exists.mpr
    ⟨state, Lru.get_eq_some.mpr (List.mem_of_mem_head? hhead)⟩

theorem get_record_other (ledger : IssueLedger) {report : IssueReport} {url : String}
    (hne : url ≠ report.url) :
    (ledger.LetsGo report url → (ledger.record report).get url = none) ∧
      (¬ ledger.LetsGo report url → (ledger.record report).get url = ledger.get url) := by
  obtain ⟨-, ⟨state, hput⟩ | ⟨hsame, hwhy⟩⟩ := ledger.record_issues report
  · have hget := Lru.get_put_other ledger.bounded hne state
    rw [← hput] at hget
    refine ⟨fun hgo => ?_, fun hnot => ?_⟩
    · exact hget.trans (if_pos ⟨hgo.1.1, hgo.2⟩)
    · refine hget.trans (if_neg fun hgo => hnot ⟨⟨hgo.1, ?_⟩, hgo.2⟩)
      -- what was put shows handoff, or it would not have been
      have hself := get_record_of_none hgo.1
      by_contra hno
      rw [if_neg hno] at hself
      unfold get at hself
      rw [hput, Lru.get_put_self ledger.capacity_pos] at hself
      cases hself
  · rw [hsame]
    refine ⟨fun hgo => ?_, fun _ => rfl⟩
    rw [hgo.1.1, hgo.1.2] at hwhy
    simp at hwhy

/-- The ledger is a store of stamped entries. -/
def retaining : Retaining IssueLedger String IssueReport ℤ where
  record := record
  key := IssueReport.url
  stamp := IssueReport.instant
  opens := IssueReport.showsHandoff
  stampAt := instantAt
  LetsGo := LetsGo
  of_letsGo ledger report url hgo := by
    have hheld := get_of_oldest hgo.2.2
    have hne : url ≠ report.url := by
      rintro rfl
      rw [hgo.1.1] at hheld
      cases hheld
    unfold instantAt
    exact ⟨hne, by simpa using hheld, by rw [(ledger.get_record_other hne).1 hgo]; rfl⟩
  self_none ledger report hnone := by
    unfold instantAt at hnone ⊢
    rw [get_record_of_none (Option.map_eq_none_iff.mp hnone)]
    split <;> rfl
  self_some ledger report t hsome := by
    unfold instantAt at hsome ⊢
    obtain ⟨known, hknown, rfl⟩ := Option.map_eq_some_iff.mp hsome
    rw [get_record_known hknown, Option.map_some]
    exact congrArg some (stamp_takeIn (fun a b _ => settleTie_instant a b) known report.state)
  other ledger report url hne hnot :=
    congrArg (Option.map IssueState.instant) ((ledger.get_record_other hne).2 hnot)

/-- An open handoff that was reported is let go for another, and not brought back. -/
def Loses (ledger : IssueLedger) (reports : List IssueReport) : Prop :=
  retaining.Loses (fun report => report.state.isOpenHandoff = true) ledger reports

/-- **Every open handoff that is reported is held in the end**, as newly as it was reported, exactly
if the ledger loses none. -/
theorem allHeld_iff (ledger : IssueLedger) (reports : List IssueReport) :
    (∀ report ∈ reports, report.state.isOpenHandoff = true →
      ∃ state, (ledger.recordAll reports).get report.url = some state ∧
        report.instant ≤ state.instant) ↔ ¬ ledger.Loses reports := by
  have hopens : ∀ report : IssueReport, report.state.isOpenHandoff = true →
      retaining.opens report = true := by
    intro report hopen
    unfold IssueState.isOpenHandoff at hopen
    exact (Bool.and_eq_true _ _ ▸ hopen).2
  refine Iff.trans ?_ (Retaining.allHeld_iff hopens ledger reports)
  refine forall₃_congr fun report _ _ => ?_
  have hholds : retaining.Holds (retaining.recordAll ledger reports) report.url report.instant ↔
      ∃ t, ((ledger.recordAll reports).get report.url).map IssueState.instant = some t ∧
        report.instant ≤ t := Iff.rfl
  refine Iff.trans ?_ hholds.symm
  simp [Option.map_eq_some_iff]

/-- The urls a ledger holds. -/
def urls (ledger : IssueLedger) : Finset String := (ledger.issues.toList.map Prod.fst).toFinset

/-- What is held after reports was held before or is theirs. -/
theorem recordAll_within (ledger : IssueLedger) (reports : List IssueReport) :
    Lru.Within (ledger.urls ∪ (reports.map IssueReport.url).toFinset)
      (ledger.recordAll reports).issues := by
  refine Lru.within_run (fun l => (ledger.recordAll l).issues) IssueReport.url ?_ ?_ ?_
  · exact fun p hp =>
      Finset.mem_union_left _ (List.mem_toFinset.mpr (List.mem_map_of_mem hp))
  · exact fun report hmem =>
      Finset.mem_union_right _ (List.mem_toFinset.mpr (List.mem_map_of_mem hmem))
  · intro before report after _
    rw [recordAll_snoc]
    obtain ⟨-, hput | ⟨hsame, -⟩⟩ := (ledger.recordAll before).record_issues report
    · exact Or.inl ⟨_, hput⟩
    · exact Or.inr (congrArg issues hsame)

/-- **Where there is room for all**, none is lost. -/
theorem not_loses_of_card {reports : List IssueReport}
    (h : (ledger.urls ∪ (reports.map IssueReport.url).toFinset).card ≤ ledger.capacity) :
    ¬ ledger.Loses reports := by
  rintro ⟨before, report, mid, last, after, rfl, -, ⟨⟨hnone, -⟩, hfull, -⟩, -⟩
  have hwithin : Lru.Within
      (ledger.urls ∪ ((before ++ report :: (mid ++ last :: after)).map IssueReport.url).toFinset)
      (ledger.recordAll (before ++ report :: mid)).issues := by
    refine fun p hp => Finset.union_subset_union_right ?_
      (ledger.recordAll_within (before ++ report :: mid) p hp)
    intro url hurl
    simp only [List.mem_toFinset, List.map_append, List.map_cons, List.mem_append,
      List.mem_cons] at hurl ⊢
    tauto
  have hlt := hwithin.length_lt (k := last.url) (Finset.mem_union_right _ (by simp)) hnone
  have hcapacity : (ledger.recordAll (before ++ report :: mid)).capacity = ledger.capacity :=
    recordAll_capacity ledger _
  change (ledger.recordAll (before ++ report :: mid)).issues.toList.length = _ at hfull
  change (ledger.recordAll (before ++ report :: mid)).issues.toList.length < _ at hlt
  have hfull' := hfull.trans hcapacity
  omega

end IssueLedger

/-! ## 2. Pull requests -/

namespace PullLedger

variable {py : Runtime} {ledger : PullLedger}

/-- The ledger after listed pull requests, each with its repository. -/
def recordListed (py : Runtime) (ledger : PullLedger) (listed : List (String × PullState)) :
    PullLedger :=
  listed.foldl (fun ledger pull => ledger.record py pull.1 pull.2) ledger

theorem recordListed_snoc (listed : List (String × PullState)) (pull : String × PullState) :
    ledger.recordListed py (listed ++ [pull]) =
      (ledger.recordListed py listed).record py pull.1 pull.2 := by
  simp [recordListed]

theorem recordListed_capacity (ledger : PullLedger) (listed : List (String × PullState)) :
    (ledger.recordListed py listed).capacity = ledger.capacity := by
  induction listed using List.reverseRecOn with
  | nil => rfl
  | append_singleton listed pull ih =>
    rw [recordListed_snoc, (record_pulls py _ pull.1 pull.2).1, ih]

/-- What a listed pull request is kept under. -/
def listedKey (py : Runtime) (pull : String × PullState) : String × ℤ :=
  (py.lower pull.1, pull.2.number)

/-- Recording the pull request lets the one under `key` go: it is itself not known, the ledger is
full, and nothing was reported longer ago. -/
def LetsGo (py : Runtime) (ledger : PullLedger) (pull : String × PullState) (key : String × ℤ) :
    Prop :=
  ledger.pulls.get (listedKey py pull) = none ∧
    ledger.pulls.toList.length = ledger.capacity ∧ ledger.pulls.oldest = some key

/-- When the pull request was last changed, as far as the ledger knows. -/
def instantAt (ledger : PullLedger) (key : String × ℤ) : Option ℤ :=
  (ledger.pulls.get key).map PullState.instant

theorem settle_instant {known report : PullState} (h : report.instant = known.instant) :
    (settle known report).instant = report.instant := by
  unfold settle
  split
  · exact h.symm
  · rfl

theorem get_of_oldest {key : String × ℤ} (h : ledger.pulls.oldest = some key) :
    (ledger.pulls.get key).isSome = true := by
  unfold Lru.oldest at h
  obtain ⟨⟨key', state⟩, hhead, rfl⟩ := Option.map_eq_some_iff.mp h
  exact Option.isSome_iff_exists.mpr
    ⟨state, Lru.get_eq_some.mpr (List.mem_of_mem_head? hhead)⟩

theorem get_record_other (ledger : PullLedger) {pull : String × PullState} {key : String × ℤ}
    (hne : key ≠ listedKey py pull) :
    (ledger.LetsGo py pull key → (ledger.record py pull.1 pull.2).pulls.get key = none) ∧
      (¬ ledger.LetsGo py pull key →
        (ledger.record py pull.1 pull.2).pulls.get key = ledger.pulls.get key) := by
  obtain ⟨-, -, ⟨state, hput⟩ | ⟨hsame, hknown⟩⟩ := ledger.record_pulls py pull.1 pull.2
  · rw [hput]
    have hget := Lru.get_put_other ledger.bounded hne state
    exact ⟨fun hgo => hget.trans (if_pos hgo), fun hnot => hget.trans (if_neg hnot)⟩
  · rw [hsame]
    refine ⟨fun hgo => ?_, fun _ => rfl⟩
    unfold get at hknown
    rw [show ledger.pulls.get (py.lower pull.1, pull.2.number) = none from hgo.1] at hknown
    cases hknown

/-- The ledger is a store of stamped entries. -/
def retaining (py : Runtime) : Retaining PullLedger (String × ℤ) (String × PullState) ℤ where
  record ledger pull := ledger.record py pull.1 pull.2
  key := listedKey py
  stamp pull := pull.2.instant
  opens _ := true
  stampAt := instantAt
  LetsGo := LetsGo py
  of_letsGo ledger pull key hgo := by
    have hheld := get_of_oldest hgo.2.2
    have hne : key ≠ listedKey py pull := by
      rintro rfl
      rw [hgo.1] at hheld
      cases hheld
    unfold instantAt
    exact ⟨hne, by simpa using hheld, by rw [(ledger.get_record_other hne).1 hgo]; rfl⟩
  self_none ledger pull hnone := by
    have hself := (ledger.record_pulls py pull.1 pull.2).2.1
    have hget : ledger.get py pull.1 pull.2.number = none := Option.map_eq_none_iff.mp hnone
    rw [hget] at hself
    exact congrArg (Option.map PullState.instant) hself
  self_some ledger pull t hsome := by
    obtain ⟨known, hknown, rfl⟩ := Option.map_eq_some_iff.mp hsome
    have hself := (ledger.record_pulls py pull.1 pull.2).2.1
    rw [show ledger.get py pull.1 pull.2.number = some known from hknown] at hself
    refine (congrArg (Option.map PullState.instant) hself).trans ?_
    exact congrArg some (stamp_takeIn (fun _ _ h => settle_instant h) known pull.2)
  other ledger pull key hne hnot :=
    congrArg (Option.map PullState.instant) ((ledger.get_record_other hne).2 hnot)

/-- A pull request that was listed open is let go for another, and not brought back. -/
def Loses (py : Runtime) (ledger : PullLedger) (listed : List (String × PullState)) : Prop :=
  (retaining py).Loses (fun pull => pull.2.isOpen = true) ledger listed

/-- **Every open pull request that is listed is held in the end**, as newly as it was listed,
exactly if the ledger loses none. -/
theorem allHeld_iff (ledger : PullLedger) (listed : List (String × PullState)) :
    (∀ pull ∈ listed, pull.2.isOpen = true →
      ∃ state, (ledger.recordListed py listed).get py pull.1 pull.2.number = some state ∧
        pull.2.instant ≤ state.instant) ↔ ¬ ledger.Loses py listed := by
  refine Iff.trans ?_ (Retaining.allHeld_iff (fun _ _ => rfl) ledger listed)
  refine forall₃_congr fun pull _ _ => ?_
  have hholds : (retaining py).Holds ((retaining py).recordAll ledger listed) (listedKey py pull)
      pull.2.instant ↔
      ∃ t, ((ledger.recordListed py listed).get py pull.1 pull.2.number).map PullState.instant =
        some t ∧ pull.2.instant ≤ t := Iff.rfl
  refine Iff.trans ?_ hholds.symm
  simp [Option.map_eq_some_iff]

/-- The keys a ledger holds. -/
def keys (ledger : PullLedger) : Finset (String × ℤ) := (ledger.pulls.toList.map Prod.fst).toFinset

theorem recordListed_within (ledger : PullLedger) (listed : List (String × PullState)) :
    Lru.Within (ledger.keys ∪ (listed.map (listedKey py)).toFinset)
      (ledger.recordListed py listed).pulls := by
  refine Lru.within_run (fun l => (ledger.recordListed py l).pulls) (listedKey py) ?_ ?_ ?_
  · exact fun p hp =>
      Finset.mem_union_left _ (List.mem_toFinset.mpr (List.mem_map_of_mem hp))
  · exact fun pull hmem =>
      Finset.mem_union_right _ (List.mem_toFinset.mpr (List.mem_map_of_mem hmem))
  · intro before pull after _
    rw [recordListed_snoc]
    obtain ⟨-, -, hput | ⟨hsame, -⟩⟩ :=
      (ledger.recordListed py before).record_pulls py pull.1 pull.2
    · exact Or.inl ⟨_, hput⟩
    · exact Or.inr (congrArg pulls hsame)

/-- **Where there is room for all**, none is lost. -/
theorem not_loses_of_card {listed : List (String × PullState)}
    (h : (ledger.keys ∪ (listed.map (listedKey py)).toFinset).card ≤ ledger.capacity) :
    ¬ ledger.Loses py listed := by
  rintro ⟨before, pull, mid, last, after, rfl, -, ⟨hnone, hfull, -⟩, -⟩
  have hwithin : Lru.Within
      (ledger.keys ∪ ((before ++ pull :: (mid ++ last :: after)).map (listedKey py)).toFinset)
      (ledger.recordListed py (before ++ pull :: mid)).pulls := by
    refine fun p hp => Finset.union_subset_union_right ?_
      (ledger.recordListed_within (before ++ pull :: mid) p hp)
    intro key hkey
    simp only [List.mem_toFinset, List.map_append, List.map_cons, List.mem_append,
      List.mem_cons] at hkey ⊢
    tauto
  have hlt := hwithin.length_lt (k := listedKey py last) (Finset.mem_union_right _ (by simp)) hnone
  have hfull' := hfull.trans (ledger.recordListed_capacity (before ++ pull :: mid))
  change (ledger.recordListed py (before ++ pull :: mid)).pulls.toList.length = _ at hfull'
  omega

end PullLedger

end BasecradleRouter.Routes
