/-
# What applying a plan does

The two plans of a run are about the scan's own issues of different titles, so that applying one
leaves the other's issues as they are (`ownTitled_apply`).  A new issue is the first under its title
(`head?_apply_create`), one whose body is written stays where it was (`head?_apply_update`), and
closing the first leaves the rest (`ownTitled_apply_close`).
-/
import BasecradleRouter.SecurityScan.Plans

namespace BasecradleRouter.SecurityScan

open BasecradleRouter.Lib

/-! ## 1. The scan's own issues -/

/-- The scan's own issues under a title. -/
def ownTitled (title : PyText) (issues : List Issue) : List Issue :=
  (issues.filter Issue.isOwn).filter (·.titled title)

theorem find?_own (title : PyText) (issues : List Issue) :
    (issues.filter Issue.isOwn).find? (·.titled title) = (ownTitled title issues).head? :=
  List.head?_filter.symm

theorem mem_ownTitled {title : PyText} {issues : List Issue} {issue : Issue} :
    issue ∈ ownTitled title issues ↔
      issue ∈ issues ∧ issue.isOwn = true ∧ issue.titled title = true := by
  rw [ownTitled, List.mem_filter, List.mem_filter, and_assoc]

/-- An issue has one title. -/
theorem titled_unique {issue : Issue} {title title' : PyText} (h : issue.titled title = true)
    (h' : issue.titled title' = true) : title = title' := by
  have htitle := Json.isText_iff.mp h
  rw [Json.isText_iff.mp h'] at htitle
  exact (Option.some.inj htitle).symm

/-! ## 2. Creating, editing and closing -/

namespace Repository

variable {repo : Repository} {title title' body : PyText} {number : ℕ} {issue other : Issue}
  {rest : List Issue} {plan : Plan}

theorem isOwn_filedIssue (number : ℕ) (title body : PyText) :
    (filedIssue number title body).isOwn = true := by
  unfold Issue.isOwn
  exact beq_self_eq_true (some scanAuthor)

theorem titled_filedIssue (number : ℕ) (title title' body : PyText) :
    (filedIssue number title body).titled title' = true ↔ title = title' := by
  rw [Issue.titled, Json.isText_iff]
  exact Option.some_inj

theorem ownTitled_create_same (repo : Repository) (title body : PyText) :
    ownTitled title (repo.create title body).issues =
      filedIssue repo.next title body :: ownTitled title repo.issues := by
  have htitled := (titled_filedIssue repo.next title title body).mpr rfl
  rw [ownTitled, create, List.filter_cons_of_pos (isOwn_filedIssue _ _ _), List.filter_cons,
    htitled, if_pos rfl]
  rfl

theorem ownTitled_create_other (repo : Repository) (body : PyText) (h : title ≠ title') :
    ownTitled title' (repo.create title body).issues = ownTitled title' repo.issues := by
  have htitled : (filedIssue repo.next title body).titled title' ≠ true :=
    fun htitled => h ((titled_filedIssue _ _ _ _).mp htitled)
  rw [ownTitled, create, List.filter_cons_of_pos (isOwn_filedIssue _ _ _), List.filter_cons,
    if_neg htitled]
  rfl

theorem rewritten_of_ne (h : issue.number ≠ number) : rewritten number body issue = issue :=
  if_neg h

theorem isOwn_rewritten (number : ℕ) (body : PyText) (issue : Issue) :
    (rewritten number body issue).isOwn = issue.isOwn := by
  unfold rewritten
  split
  · rfl
  · rfl

theorem titled_rewritten (number : ℕ) (body title : PyText) (issue : Issue) :
    (rewritten number body issue).titled title = issue.titled title := by
  unfold rewritten
  split
  · rfl
  · rfl

theorem ownTitled_edit (repo : Repository) (number : ℕ) (body title : PyText) :
    ownTitled title (repo.edit number body).issues =
      (ownTitled title repo.issues).map (rewritten number body) := by
  have hown : Issue.isOwn ∘ rewritten number body = Issue.isOwn :=
    funext (isOwn_rewritten number body)
  have htitled : (fun issue : Issue => issue.titled title) ∘ rewritten number body =
      fun issue => issue.titled title := funext (titled_rewritten number body title)
  rw [ownTitled, edit, List.filter_map, hown, List.filter_map, htitled]
  rfl

theorem ownTitled_close (repo : Repository) (number : ℕ) (title : PyText) :
    ownTitled title (repo.close number).issues =
      (ownTitled title repo.issues).filter (·.number ≠ number) := by
  rw [ownTitled, ownTitled, close, List.filter_filter, List.filter_filter, List.filter_filter,
    List.filter_filter]
  refine List.filter_congr fun issue _ => ?_
  ac_rfl

/-! ## 3. Plans -/

/-- Issues are told apart by their numbers. -/
theorem eq_of_number (hissue : issue ∈ repo.issues) (hother : other ∈ repo.issues)
    (h : issue.number = other.number) : issue = other :=
  List.inj_on_of_nodup_map repo.distinct hissue hother h

/-- The first of the scan's own issues has none of the others' numbers. -/
theorem number_ne (hown : ownTitled title repo.issues = issue :: rest) :
    ∀ other ∈ rest, other.number ≠ issue.number := by
  have hnodup : (ownTitled title repo.issues).Nodup :=
    ((List.Nodup.of_map _ repo.distinct).filter _).filter _
  rw [hown, List.nodup_cons] at hnodup
  intro other hother heq
  have hmem : ∀ i ∈ issue :: rest, i ∈ repo.issues := by
    intro i hi
    rw [← hown] at hi
    exact (mem_ownTitled.mp hi).1
  have hsame := eq_of_number (hmem other (List.mem_cons_of_mem issue hother))
    (hmem issue List.mem_cons_self) heq
  exact hnodup.1 (hsame ▸ hother)

/-- A plan about the scan's own issues under a title. -/
structure About (repo : Repository) (title : PyText) (plan : Plan) : Prop where
  titled : plan.title = title
  numbered : ∀ number, plan.number = some number →
    ∃ issue ∈ ownTitled title repo.issues, issue.number = number

theorem about_of_none (htitle : plan.title = title) (hnumber : plan.number = none) :
    repo.About title plan := by
  refine ⟨htitle, fun number hsome => ?_⟩
  rw [hnumber] at hsome
  cases hsome

theorem about_of_head (htitle : plan.title = title) (hnumber : plan.number = some issue.number)
    (hfirst : (ownTitled title repo.issues).head? = some issue) : repo.About title plan := by
  refine ⟨htitle, fun number hsome => ?_⟩
  rw [hnumber] at hsome
  exact ⟨issue, List.mem_of_mem_head? hfirst, Option.some.inj hsome⟩

/-- **Applying a plan leaves the issues under other titles as they are.** -/
theorem ownTitled_apply (h : About repo title plan) (hne : title ≠ title') :
    ownTitled title' (repo.apply plan).issues = ownTitled title' repo.issues := by
  -- no issue under the other title has the plan's number
  have hnumber : ∀ number, plan.number = some number →
      ∀ other ∈ ownTitled title' repo.issues, other.number ≠ number := by
    intro number hplan other hother heq
    obtain ⟨issue, hissue, hnumber⟩ := h.numbered number hplan
    obtain ⟨hmem, -, htitled⟩ := mem_ownTitled.mp hissue
    obtain ⟨hmem', -, htitled'⟩ := mem_ownTitled.mp hother
    rw [eq_of_number hmem' hmem (heq.trans hnumber.symm)] at htitled'
    exact hne (titled_unique htitled htitled')
  unfold apply
  split
  · exact ownTitled_create_other repo _ (h.titled ▸ hne)
  · next number _ hplan =>
    have hsame : ∀ other ∈ ownTitled title' repo.issues,
        rewritten number (plan.body.getD "") other = other :=
      fun other hother => rewritten_of_ne (hnumber number hplan other hother)
    rw [ownTitled_edit, List.map_congr_left hsame, List.map_id']
  · next number _ hplan =>
    rw [ownTitled_close]
    refine List.filter_eq_self.mpr fun other hother => ?_
    exact decide_eq_true (hnumber number hplan other hother)
  · rfl

/-- A new issue is the first under its title. -/
theorem head?_apply_create (haction : plan.action = .create) (htitle : plan.title = title) :
    (ownTitled title (repo.apply plan).issues).head? =
      some (filedIssue repo.next title (plan.body.getD "")) := by
  have happly : repo.apply plan = repo.create title (plan.body.getD "") := by
    rw [apply, haction, htitle]
  rw [happly, ownTitled_create_same]
  rfl

/-- The first issue under a title stays so when its body is written. -/
theorem head?_apply_update (haction : plan.action = .update)
    (hnumber : plan.number = some issue.number)
    (hfirst : (ownTitled title repo.issues).head? = some issue) :
    (ownTitled title (repo.apply plan).issues).head? =
      some { issue with body := .str (plan.body.getD "") } := by
  have happly : repo.apply plan = repo.edit issue.number (plan.body.getD "") := by
    rw [apply, haction, hnumber]
  rw [happly, ownTitled_edit, List.head?_map, hfirst, Option.map_some, rewritten, if_pos rfl]

/-- Closing the first issue under a title leaves the rest. -/
theorem ownTitled_apply_close (haction : plan.action = .close)
    (hnumber : plan.number = some issue.number)
    (hown : ownTitled title repo.issues = issue :: rest) :
    ownTitled title (repo.apply plan).issues = rest := by
  have happly : repo.apply plan = repo.close issue.number := by
    rw [apply, haction, hnumber]
  have hrest : rest.filter (·.number ≠ issue.number) = rest :=
    List.filter_eq_self.mpr fun other hother => decide_eq_true (number_ne hown other hother)
  rw [happly, ownTitled_close, hown, List.filter_cons_of_neg (by simp), hrest]

theorem applyAll_append (repo : Repository) (plans plans' : List Plan) :
    repo.applyAll (plans ++ plans') = (repo.applyAll plans).applyAll plans' :=
  List.foldl_append

end Repository

end BasecradleRouter.SecurityScan
