/-
# Whom a stop leaves to a relay, and who is signalled first

`left_to_relay` goes down from the wake's root through its live members: past a `sudo`, which it
exempts, and as far as a `runuser`, whose children it exempts (`mem_leftToRelay`).  So nothing below
those children is exempt (`not_relayed_below`), and a process that has exited ends the way down.

What needs parent links that do not go round is that the walk ends (`leftToRelay_ends`), that no way
leads below a `runuser` but through its children, and that `by_depth` puts a process before what is
under it (`byDepth_parents_first`).
-/
import BasecradleRouter.Lib.Forest
import BasecradleRouter.StopWake.Members

namespace BasecradleRouter.StopWake.Procs

open BasecradleRouter.Lib BasecradleRouter.Lib.Forest Relation

variable (procs : Procs)

/-- A process's parent link. -/
def parentOf (pid : ℕ) : Option ℕ := (procs.get pid).map Proc.ppid

/-- Parent links do not go round. -/
def Acyclic : Prop := Forest.Acyclic procs.parentOf

/-- The wake's root reaches the process over live ones, none of them a `runuser`. -/
def BeforeDrop (wake : Wake) (pid : ℕ) : Prop :=
  procs.aliveAt wake.root.pid = true ∧
    ReflTransGen (fun a b => procs.named a "runuser" = false ∧ procs.IsChild a b ∧
      procs.aliveAt b = true) wake.root.pid pid

/-- A relay signals it already: a `sudo` on the way from the root to its `runuser`, or a child of
that `runuser`. -/
def HeldByRelay (wake : Wake) (pid : ℕ) : Prop :=
  (procs.BeforeDrop wake pid ∧ procs.named pid "sudo" = true) ∨
    ∃ runuser, procs.BeforeDrop wake runuser ∧ procs.named runuser "runuser" = true ∧
      procs.IsChild runuser pid ∧ procs.aliveAt pid = true

variable {procs} {wake : Wake} {pid parent child : ℕ}

theorem under_iff : Under procs.parentOf parent child ↔ procs.IsChild parent child := by
  unfold Under parentOf IsChild
  rw [Option.map_eq_some_iff]

theorem under_eq : Under procs.parentOf = procs.IsChild := by
  funext a b
  exact propext under_iff

theorem parentOf_isSome : (procs.parentOf pid).isSome = true ↔ pid ∈ procs.pids := by
  unfold parentOf
  rw [Option.isSome_map, mem_pids, Option.isSome_iff_exists]

/-- Links that lead from a pid to a smaller one do not go round. -/
theorem acyclic_of_lt (h : ∀ parent child, procs.IsChild parent child → parent < child) :
    procs.Acyclic := by
  intro pid hpath
  rw [under_eq] at hpath
  have hlt : ∀ {a b}, TransGen procs.IsChild a b → a < b := by
    intro a b hab
    induction hab with
    | single hstep => exact h _ _ hstep
    | tail _ hstep ih => exact lt_trans ih (h _ _ hstep)
  exact lt_irrefl pid (hlt hpath)

/-! ## 1. The walk -/

theorem members_nodup (procs : Procs) (wake : Wake) : (procs.members wake).Nodup := by
  unfold members tree Search.reach
  exact (Search.nodup_search List.nodup_nil).filter _

theorem named_sudo (h : procs.named pid "sudo" = true) : procs.named pid "runuser" = false := by
  unfold named at h ⊢
  cases hget : procs.get pid with
  | none => rfl
  | some p =>
    rw [hget] at h
    dsimp only at h ⊢
    rw [beq_iff_eq.mp h]
    rfl

/-- **The walk's result**: what it had, and what is exempt of those it comes by. -/
theorem mem_relayWalk {children : ℕ → List ℕ} : ∀ {turns : ℕ} {path exempt relayed : List ℕ},
    procs.relayWalk children turns path exempt = some relayed → (pid ∈ relayed ↔ pid ∈ exempt ∨
      ∃ top ∈ path, ∃ at_, ReflTransGen (fun a b => procs.named a "runuser" = false ∧
        b ∈ children a) top at_ ∧ ((procs.named at_ "runuser" = true ∧ pid ∈ children at_) ∨
          (procs.named at_ "sudo" = true ∧ pid = at_)))
  | _, [], exempt, relayed, h => by
    unfold relayWalk at h
    cases h
    simp
  | 0, _ :: _, _, _, h => by cases h
  | turns + 1, top :: path, exempt, relayed, h => by
    unfold relayWalk at h
    split at h
    · next hrunuser =>
      rw [mem_relayWalk h, List.mem_append, or_comm (a := pid ∈ children top), or_assoc]
      refine or_congr_right ⟨?_, ?_⟩
      · rintro (hchild | ⟨top', htop', at_, hway, hat⟩)
        · exact ⟨top, List.mem_cons_self, top, .refl, Or.inl ⟨hrunuser, hchild⟩⟩
        · exact ⟨top', List.mem_cons_of_mem _ htop', at_, hway, hat⟩
      · rintro ⟨top', htop', at_, hway, hat⟩
        rcases List.mem_cons.mp htop' with rfl | htop'
        · rcases ReflTransGen.cases_head hway with rfl | ⟨next, ⟨hnot, -⟩, -⟩
          · rcases hat with ⟨-, hchild⟩ | ⟨hsudo, -⟩
            · exact Or.inl hchild
            · rw [named_sudo hsudo] at hrunuser
              cases hrunuser
          · rw [hnot] at hrunuser
            cases hrunuser
        · exact Or.inr ⟨top', htop', at_, hway, hat⟩
    · next hnot =>
      have hnot := eq_false_of_ne_true hnot
      rw [mem_relayWalk h]
      constructor
      · rintro (hexempt | ⟨top', htop', at_, hway, hat⟩)
        · split at hexempt
          · next hsudo =>
            rcases List.mem_cons.mp hexempt with rfl | hexempt
            · exact Or.inr ⟨pid, List.mem_cons_self, pid, .refl, Or.inr ⟨hsudo, rfl⟩⟩
            · exact Or.inl hexempt
          · exact Or.inl hexempt
        · rcases List.mem_append.mp htop' with htop' | htop'
          · exact Or.inr ⟨top, List.mem_cons_self, at_,
              .head ⟨hnot, List.mem_reverse.mp htop'⟩ hway, hat⟩
          · exact Or.inr ⟨top', List.mem_cons_of_mem _ htop', at_, hway, hat⟩
      · rintro (hexempt | ⟨top', htop', at_, hway, hat⟩)
        · refine Or.inl ?_
          split
          · exact List.mem_cons_of_mem _ hexempt
          · exact hexempt
        · rcases List.mem_cons.mp htop' with rfl | htop'
          · rcases ReflTransGen.cases_head hway with rfl | ⟨next, ⟨-, hchild⟩, hrest⟩
            · rcases hat with ⟨hrunuser, -⟩ | ⟨hsudo, rfl⟩
              · rw [hnot] at hrunuser
                cases hrunuser
              · rw [if_pos hsudo]
                exact Or.inl List.mem_cons_self
            · exact Or.inr ⟨next, List.mem_append_left _ (List.mem_reverse.mpr hchild), at_, hrest,
                hat⟩
          · exact Or.inr ⟨top', List.mem_append_right _ htop', at_, hway, hat⟩

theorem BeforeDrop.liveMember (h : procs.BeforeDrop wake pid) : procs.LiveMember wake pid := by
  obtain ⟨hroot, hway⟩ := h
  obtain ⟨p, hget, -⟩ := aliveAt_iff.mp hroot
  induction hway with
  | refl => exact ⟨hroot, _, Or.inl rfl, mem_pids.mpr ⟨p, hget⟩, .refl⟩
  | tail _ hstep ih =>
    obtain ⟨-, top, htop, hmem, hpath⟩ := ih
    exact ⟨hstep.2.2, top, htop, hmem, hpath.tail hstep.2.1⟩

/-- A live child of a member is a member. -/
theorem LiveMember.of_child (h : procs.LiveMember wake parent) (hchild : procs.IsChild parent child)
    (halive : procs.aliveAt child = true) : procs.LiveMember wake child := by
  obtain ⟨-, top, htop, hmem, hpath⟩ := h
  exact ⟨halive, top, htop, hmem, hpath.tail hchild⟩

theorem mem_children (h : procs.LiveMember wake parent) :
    child ∈ procs.childrenOf (procs.members wake) parent ↔
      procs.IsChild parent child ∧ procs.aliveAt child = true := by
  rw [mem_childrenOf, mem_members]
  constructor
  · rintro ⟨hmember, hchild⟩
    exact ⟨hchild, hmember.1⟩
  · rintro ⟨hchild, halive⟩
    exact ⟨h.of_child hchild halive, hchild⟩

/-- The walk's ways are those before the drop. -/
theorem way_iff (halive : procs.aliveAt wake.root.pid = true) :
    ReflTransGen (fun a b => procs.named a "runuser" = false ∧
        b ∈ procs.childrenOf (procs.members wake) a) wake.root.pid pid ↔
      procs.BeforeDrop wake pid := by
  constructor
  · intro hway
    refine ⟨halive, ReflTransGen.mono (fun a b hstep => ?_) _ _ hway⟩
    obtain ⟨hmember, hchild⟩ := mem_childrenOf.mp hstep.2
    exact ⟨hstep.1, hchild, (mem_members.mp hmember).1⟩
  · rintro ⟨-, hway⟩
    induction hway with
    | refl => exact .refl
    | tail hway hstep ih =>
      have hmember := BeforeDrop.liveMember ⟨halive, hway⟩
      exact ih.tail ⟨hstep.1, (mem_children hmember).mpr hstep.2⟩

/-- **What is left to relays** is what they hold. -/
theorem mem_leftToRelay {relayed : List ℕ}
    (h : procs.leftToRelay wake (procs.members wake) = some relayed) :
    pid ∈ relayed ↔ procs.HeldByRelay wake pid := by
  unfold leftToRelay at h
  rw [mem_relayWalk h]
  unfold HeldByRelay
  constructor
  · rintro (hnil | ⟨top, htop, at_, hway, hat⟩)
    · exact absurd hnil List.not_mem_nil
    · split at htop
      · next hroot =>
        obtain rfl := List.mem_singleton.mp htop
        have hbefore := (way_iff (mem_members.mp hroot).1).mp hway
        rcases hat with ⟨hrunuser, hchild⟩ | ⟨hsudo, rfl⟩
        · exact Or.inr ⟨at_, hbefore, hrunuser, (mem_children hbefore.liveMember).mp hchild⟩
        · exact Or.inl ⟨hbefore, hsudo⟩
      · exact absurd htop List.not_mem_nil
  · intro hheld
    have hroot : procs.aliveAt wake.root.pid = true := by
      rcases hheld with ⟨hbefore, -⟩ | ⟨_, hbefore, -⟩
      · exact hbefore.1
      · exact hbefore.1
    have hmember : wake.root.pid ∈ procs.members wake :=
      mem_members.mpr (BeforeDrop.liveMember ⟨hroot, .refl⟩)
    rw [if_pos hmember]
    rcases hheld with ⟨hbefore, hsudo⟩ | ⟨runuser, hbefore, hrunuser, hchild⟩
    · exact Or.inr ⟨_, List.mem_singleton_self _, pid, (way_iff hroot).mpr hbefore,
        Or.inr ⟨hsudo, rfl⟩⟩
    · exact Or.inr ⟨_, List.mem_singleton_self _, runuser, (way_iff hroot).mpr hbefore,
        Or.inl ⟨hrunuser, (mem_children hbefore.liveMember).mpr hchild⟩⟩

/-! ## 2. With links that do not go round -/

theorem childrenOf_nodup {pids : List ℕ} (h : pids.Nodup) (parent : ℕ) :
    (procs.childrenOf pids parent).Nodup :=
  ((List.perm_insertionSort _ pids).nodup_iff.mpr h).filter _

theorem relayWalk_ends (hacyclic : procs.Acyclic) {pids : List ℕ} (hpids : pids.Nodup) {root : ℕ} :
    ∀ {turns : ℕ} {visited path exempt : List ℕ},
      Visit procs.parentOf pids root visited path → pids.length ≤ visited.length + turns →
        ∃ relayed, procs.relayWalk (procs.childrenOf pids) turns path exempt = some relayed
  | _, _, [], exempt, _, _ => ⟨exempt, by unfold relayWalk; rfl⟩
  | 0, _, _ :: _, _, hvisit, hturns => by
    have := hvisit.length_lt
    omega
  | turns + 1, visited, pid :: path, exempt, hvisit, hturns => by
    have hturns' : pids.length ≤ (pid :: visited).length + turns := by
      rw [List.length_cons]
      omega
    unfold relayWalk
    split
    · exact relayWalk_ends hacyclic hpids hvisit.pass hturns'
    · refine relayWalk_ends hacyclic hpids (hvisit.expand hacyclic
        (List.nodup_reverse.mpr (childrenOf_nodup hpids pid)) fun c hc => ?_) hturns'
      obtain ⟨hmem, hchild⟩ := mem_childrenOf.mp (List.mem_reverse.mp hc)
      exact ⟨hmem, under_iff.mpr hchild⟩

/-- **The walk ends.** -/
theorem leftToRelay_ends (hacyclic : procs.Acyclic) (wake : Wake) :
    (procs.leftToRelay wake (procs.members wake)).isSome = true := by
  rw [Option.isSome_iff_exists]
  unfold leftToRelay
  split
  · next hroot =>
    exact relayWalk_ends hacyclic (members_nodup procs wake) (Visit.start hroot) (by simp)
  · exact ⟨[], by unfold relayWalk; rfl⟩

/-- No way before the drop leads past a `runuser`. -/
theorem BeforeDrop.not_runuser_above (hacyclic : procs.Acyclic) (h : procs.BeforeDrop wake pid)
    {runuser : ℕ} (hroot : ReflTransGen procs.IsChild wake.root.pid runuser)
    (hbelow : TransGen procs.IsChild runuser pid) : procs.named runuser "runuser" = false := by
  obtain ⟨-, hway⟩ := h
  unfold Acyclic Forest.Acyclic at hacyclic
  rw [under_eq] at hacyclic
  induction hway with
  | refl => exact absurd (TransGen.trans_right hroot hbelow) (hacyclic _)
  | tail _ hstep ih =>
    rw [← under_eq] at hbelow
    have habove := above_parent hbelow (under_iff.mpr hstep.2.1)
    rw [under_eq] at habove
    rcases reflTransGen_iff_eq_or_transGen.mp habove with rfl | hbelow'
    · exact hstep.1
    · exact ih hbelow'

/-- **Nothing below the children of a `runuser`** that the root is above is left to a relay. -/
theorem not_held_below (hacyclic : procs.Acyclic) {runuser : ℕ}
    (hroot : ReflTransGen procs.IsChild wake.root.pid runuser)
    (hrunuser : procs.named runuser "runuser" = true) (hchild : procs.IsChild runuser child)
    (hbelow : TransGen procs.IsChild child pid) : ¬ procs.HeldByRelay wake pid := by
  rintro (⟨hbefore, -⟩ | ⟨other, hbefore, -, hother, -⟩)
  · rw [hbefore.not_runuser_above hacyclic hroot (.head hchild hbelow)] at hrunuser
    cases hrunuser
  · rw [← under_eq] at hbelow
    have habove := above_parent hbelow (under_iff.mpr hother)
    rw [under_eq] at habove
    rw [hbefore.not_runuser_above hacyclic hroot (TransGen.head' hchild habove)] at hrunuser
    cases hrunuser

/-! ## 3. The order -/

/-- How deep a process is: how many there are on its line. -/
theorem depthFrom_eq (hacyclic : procs.Acyclic) {l : List ℕ}
    (hline : Line procs.parentOf pid l) : ∀ {turns : ℕ} {seen : List ℕ}, l.length ≤ turns →
      (∀ below ∈ seen, TransGen (Under procs.parentOf) pid below) →
        procs.depthFrom turns seen pid = seen.length + l.length := by
  induction hline with
  | @top pid htop =>
    intro turns seen _ _
    have hget : procs.get pid = none := Option.map_eq_none_iff.mp htop
    cases turns with
    | zero => rfl
    | succ turns =>
      unfold depthFrom
      rw [hget]
      rfl
  | @up pid parent l hup _ ih =>
    intro turns seen hturns hseen
    obtain ⟨p, hget, hp⟩ := Option.map_eq_some_iff.mp hup
    cases turns with
    | zero =>
      rw [List.length_cons] at hturns
      omega
    | succ turns =>
      have hfresh : pid ∉ seen := fun hmem => hacyclic pid (hseen pid hmem)
      have hbelow : ∀ below ∈ pid :: seen, TransGen (Under procs.parentOf) parent below := by
        intro below hmem
        rcases List.mem_cons.mp hmem with rfl | hmem
        · exact .single hup
        · exact .head hup (hseen below hmem)
      have hturns' : l.length ≤ turns := by
        rw [List.length_cons] at hturns
        omega
      have hrest := ih hturns' hbelow
      unfold depthFrom
      rw [hget]
      dsimp only
      rw [if_neg hfresh, hp, hrest, List.length_cons, List.length_cons]
      omega

theorem depth_eq (hacyclic : procs.Acyclic) {l : List ℕ} (hline : Line procs.parentOf pid l) :
    procs.depth pid = l.length := by
  have hlength : l.length ≤ procs.pids.length :=
    hline.length_le hacyclic fun _ h => parentOf_isSome.mp h
  unfold depth
  rw [depthFrom_eq hacyclic hline (by omega) fun _ h => absurd h List.not_mem_nil]
  exact Nat.zero_add _

/-- A process under another is deeper. -/
theorem depth_lt (hacyclic : procs.Acyclic) (h : TransGen procs.IsChild parent child) :
    procs.depth parent < procs.depth child := by
  have hnodes : ∀ a, (procs.parentOf a).isSome = true → a ∈ procs.pids :=
    fun _ h => parentOf_isSome.mp h
  obtain ⟨l, hparent⟩ := exists_line hacyclic hnodes parent
  obtain ⟨l', hchild⟩ := exists_line hacyclic hnodes child
  rw [depth_eq hacyclic hparent, depth_eq hacyclic hchild]
  rw [← under_eq] at h
  exact Line.length_lt h hparent hchild

/-- Every process stands before those under it. -/
def ParentsFirst (procs : Procs) (pids : List ℕ) : Prop :=
  pids.Pairwise fun earlier later => ¬ TransGen procs.IsChild later earlier

instance (procs : Procs) : Std.Total fun a b : ℕ =>
    procs.depth a < procs.depth b ∨ (procs.depth a = procs.depth b ∧ a ≤ b) where
  total a b := by omega

instance (procs : Procs) : IsTrans ℕ fun a b =>
    procs.depth a < procs.depth b ∨ (procs.depth a = procs.depth b ∧ a ≤ b) where
  trans a b c := by omega

/-- **`by_depth` puts parents first.** -/
theorem byDepth_parents_first (hacyclic : procs.Acyclic) (pids : List ℕ) :
    procs.ParentsFirst (procs.byDepth pids) := by
  refine (List.pairwise_insertionSort _ pids).imp fun hle hunder => ?_
  have hlt := depth_lt hacyclic hunder
  omega

end BasecradleRouter.StopWake.Procs
