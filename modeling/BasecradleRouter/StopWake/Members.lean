/-
# What a wake's members are

`LiveMember` says it of a snapshot without an algorithm: a live process that descends from the
wake's root, or from a live process of the agent's account that carries the wake's mark.  `members`
is the list of them (`mem_members`).
-/
import BasecradleRouter.StopWake

namespace BasecradleRouter.StopWake.Procs

open BasecradleRouter.Lib

variable (procs : Procs)

/-- `child` is there, and is a child of `parent`. -/
def IsChild (parent child : ℕ) : Prop := ∃ p, procs.get child = some p ∧ p.ppid = parent

/-- A live process of the agent's account that carries the wake's mark. -/
def Marked (wake : Wake) (pid : ℕ) : Prop :=
  ∃ p delivery, procs.get pid = some p ∧ p.alive = true ∧ p.uid = wake.agentUid ∧
    wake.delivery = some delivery ∧ p.delivery = some delivery

/-- A live process in the tree of the wake's root, or in that of a marked one. -/
def LiveMember (wake : Wake) (pid : ℕ) : Prop :=
  procs.aliveAt pid = true ∧ ∃ root, (root = wake.root.pid ∨ procs.Marked wake root) ∧
    root ∈ procs.pids ∧ Relation.ReflTransGen procs.IsChild root pid

variable {procs} {wake : Wake} {pid parent child : ℕ}

theorem mem_pids : pid ∈ procs.pids ↔ ∃ p, procs.get pid = some p := by
  unfold pids get
  rw [List.mem_map]
  constructor
  · rintro ⟨⟨pid', p⟩, hitem, rfl⟩
    exact ⟨p, OrderedDict.mem_items.mp hitem⟩
  · rintro ⟨p, hget⟩
    exact ⟨(pid, p), OrderedDict.mem_items.mpr hget, rfl⟩

theorem aliveAt_iff : procs.aliveAt pid = true ↔ ∃ p, procs.get pid = some p ∧ p.alive = true := by
  unfold aliveAt
  cases procs.get pid with
  | none => simp
  | some p => simp

theorem mem_childrenOf {pids : List ℕ} :
    child ∈ procs.childrenOf pids parent ↔ child ∈ pids ∧ procs.IsChild parent child := by
  unfold childrenOf IsChild
  rw [List.mem_filter, List.mem_insertionSort]
  simp

theorem mem_marked : pid ∈ procs.marked wake ↔ procs.Marked wake pid := by
  unfold marked Marked
  cases hdelivery : wake.delivery with
  | none => simp
  | some delivery =>
    simp only [List.mem_map, List.mem_filter, Bool.and_eq_true, beq_iff_eq]
    constructor
    · rintro ⟨p, ⟨hmem, ⟨halive, huid⟩, hmark⟩, rfl⟩
      obtain ⟨pid, hitem⟩ := OrderedDict.mem_values.mp hmem
      have hget := OrderedDict.mem_items.mp hitem
      rw [procs.keyed pid p hget]
      exact ⟨p, delivery, hget, halive, huid, rfl, hmark⟩
    · rintro ⟨p, delivery', hget, halive, huid, hsome, hmark⟩
      cases hsome
      refine ⟨p, ⟨OrderedDict.mem_values.mpr ⟨pid, OrderedDict.mem_items.mpr hget⟩,
        ⟨halive, huid⟩, hmark⟩, procs.keyed pid p hget⟩

/-- The live processes under the roots. -/
theorem mem_tree {roots : List ℕ} : pid ∈ procs.tree roots ↔
    procs.aliveAt pid = true ∧ ∃ root ∈ roots, root ∈ procs.pids ∧
      Relation.ReflTransGen procs.IsChild root pid := by
  have hchildren : (fun a b => b ∈ procs.childrenOf procs.pids a) = procs.IsChild := by
    funext a b
    refine propext (mem_childrenOf.trans ⟨And.right, fun hchild => ⟨?_, hchild⟩⟩)
    obtain ⟨p, hget, -⟩ := hchild
    exact mem_pids.mpr ⟨p, hget⟩
  unfold tree
  rw [List.mem_filter, Search.mem_reach, hchildren, and_comm]
  · refine and_congr_right fun _ => exists_congr fun root => ?_
    rw [List.mem_reverse, List.mem_filter, decide_eq_true_eq, and_assoc]
  · exact fun a _ b hb => (mem_childrenOf.mp hb).1
  · intro root hroot
    simpa using (List.mem_filter.mp (List.mem_reverse.mp hroot)).2

/-- **The members of a wake** are what `LiveMember` says. -/
theorem mem_members : pid ∈ procs.members wake ↔ procs.LiveMember wake pid := by
  unfold members LiveMember
  rw [mem_tree]
  refine and_congr_right fun _ => exists_congr fun root => ?_
  rw [List.mem_cons, mem_marked]

/-- A member is in the table, and alive. -/
theorem LiveMember.get (h : procs.LiveMember wake pid) :
    ∃ p, procs.get pid = some p ∧ p.alive = true := aliveAt_iff.mp h.1

end BasecradleRouter.StopWake.Procs
