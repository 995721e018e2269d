/-
# Whom a stop leaves running

What the stopper tracks is what its sweeps have sighted: a pid, with the start time of the first
member that stood on it.  The loop after SIGKILL watches these and nothing else.  A member that is
born after the last sweep, or that stands on a pid another member had, is not among them, and a stop
that returns an empty list can leave it running.

`survivors_eq_nil_iff` says when the list is empty, and `stops_all_iff` when that means that nothing
is left.
-/
import BasecradleRouter.StopWake.Members

namespace BasecradleRouter.StopWake

open BasecradleRouter.Lib

/-! ## 1. Sightings -/

/-- The start time of a pid's process. -/
def Procs.startAt (procs : Procs) (pid : ℕ) : ℕ := ((procs.get pid).map Proc.start).getD 0

/-- The pid is a member of one of the wakes. -/
def Procs.MemberOf (procs : Procs) (wakes : List Wake) (pid : ℕ) : Prop :=
  ∃ wake ∈ wakes, pid ∈ procs.members wake

instance (procs : Procs) (wakes : List Wake) (pid : ℕ) : Decidable (procs.MemberOf wakes pid) :=
  inferInstanceAs (Decidable (∃ wake ∈ wakes, pid ∈ procs.members wake))

/-- The start time of the first member that stood on the pid in the snapshots. -/
def sighted (wakes : List Wake) (snapshots : List Procs) (pid : ℕ) : Option ℕ :=
  snapshots.findSome? fun procs =>
    if procs.MemberOf wakes pid then some (procs.startAt pid) else none

/-- A process that was sighted is there, and alive. -/
def Procs.Standing (procs : Procs) (wakes : List Wake) (snapshots : List Procs) (pid : ℕ) : Prop :=
  ∃ p, procs.get pid = some p ∧ p.alive = true ∧ sighted wakes snapshots pid = some p.start

/-- A process that the sweeps of the snapshots passed by: on its pid they sighted no member, as it
was born since, or one with another start time. -/
def Procs.Missed (procs : Procs) (wakes : List Wake) (snapshots : List Procs) (pid : ℕ) : Prop :=
  ∃ p, procs.get pid = some p ∧ ((∀ swept ∈ snapshots, ¬ swept.MemberOf wakes pid) ∨
    ∃ start, sighted wakes snapshots pid = some start ∧ start ≠ p.start)

variable {wakes : List Wake} {procs : Procs} {pid : ℕ}

/-- Nothing is sighted on a pid where no member stood. -/
theorem sighted_eq_none {snapshots : List Procs} : sighted wakes snapshots pid = none ↔
    ∀ swept ∈ snapshots, ¬ swept.MemberOf wakes pid := by
  unfold sighted
  rw [List.findSome?_eq_none_iff]
  refine forall₂_congr fun swept _ => ?_
  split
  · next hmember => simp [hmember]
  · next hmember => simp [hmember]

/-- A process that is alive is one of the sightings, or was missed. -/
theorem Procs.missed_iff {snapshots : List Procs} {p : Proc} (hget : procs.get pid = some p)
    (halive : p.alive = true) :
    procs.Missed wakes snapshots pid ↔ ¬ procs.Standing wakes snapshots pid := by
  unfold Missed Standing
  rw [hget, ← sighted_eq_none]
  cases sighted wakes snapshots pid with
  | none => simp
  | some start => simp [halive]

/-- One more snapshot is looked in for what was not sighted before. -/
theorem sighted_append (snapshots : List Procs) :
    sighted wakes (snapshots ++ [procs]) pid = (sighted wakes snapshots pid).or
      (if procs.MemberOf wakes pid then some (procs.startAt pid) else none) := by
  unfold sighted
  rw [List.findSome?_append, List.findSome?_singleton]

namespace Stopper

/-- The start time a pid is tracked with. -/
def startOf (s : Stopper) (pid : ℕ) : Option ℕ := (s.tracked.get pid).map Tracked.start

/-- The live processes are the tracked ones that still stand. -/
theorem mem_live {s : Stopper} : pid ∈ s.live procs ↔
    ∃ p, procs.get pid = some p ∧ p.alive = true ∧ s.startOf pid = some p.start := by
  unfold live startOf
  rw [List.mem_insertionSort, List.mem_map]
  constructor
  · rintro ⟨⟨pid', t⟩, hmem, rfl⟩
    obtain ⟨hitem, hstands⟩ := List.mem_filter.mp hmem
    obtain ⟨p, hget, hp⟩ := (Option.any_eq_true _ _).mp hstands
    rw [Bool.and_eq_true, beq_iff_eq] at hp
    exact ⟨p, hget, hp.2, by rw [OrderedDict.mem_items.mp hitem, Option.map_some, hp.1]⟩
  · rintro ⟨p, hget, halive, hstart⟩
    obtain ⟨t, ht, hstart⟩ := Option.map_eq_some_iff.mp hstart
    refine ⟨(pid, t), List.mem_filter.mpr ⟨OrderedDict.mem_items.mpr ht, ?_⟩, rfl⟩
    simp [hget, halive, hstart]

/-! ## 2. One sweep -/

/-- What a part of a sweep over some pids does: those not tracked are tracked with their start
times, and are fresh. -/
structure Tracks (procs : Procs) (members : ℕ → Prop) (before after : Stopper × List ℕ) : Prop where
  kept : ∀ pid, ¬ members pid → after.1.startOf pid = before.1.startOf pid
  tracked : ∀ pid, members pid →
    after.1.startOf pid = (before.1.startOf pid).or (some (procs.startAt pid))
  fresh : ∀ pid, pid ∈ after.2 ↔
    pid ∈ before.2 ∨ (before.1.startOf pid = none ∧ members pid)
  reads : after.1.reads = before.1.reads
  times : after.1.times = before.1.times

theorem Tracks.refl (procs : Procs) (state : Stopper × List ℕ) :
    Tracks procs (fun _ => False) state state where
  kept _ _ := rfl
  tracked _ h := h.elim
  fresh pid := by simp
  reads := rfl
  times := rfl

/-- One part after another. -/
theorem Tracks.trans {P Q : ℕ → Prop} {a b c : Stopper × List ℕ} (hab : Tracks procs P a b)
    (hbc : Tracks procs Q b c) : Tracks procs (fun pid => P pid ∨ Q pid) a c where
  kept pid h := by
    rw [hbc.kept pid fun hq => h (Or.inr hq), hab.kept pid fun hp => h (Or.inl hp)]
  tracked pid h := by
    by_cases hq : Q pid
    · rw [hbc.tracked pid hq]
      by_cases hp : P pid
      · rw [hab.tracked pid hp, Option.or_assoc, Option.or_self]
      · rw [hab.kept pid hp]
    · rw [hbc.kept pid hq, hab.tracked pid (h.resolve_right hq)]
  fresh pid := by
    rw [hbc.fresh, hab.fresh]
    by_cases hp : P pid
    · rw [hab.tracked pid hp]
      simp [hp]
    · rw [hab.kept pid hp]
      simp [hp]
  reads := hbc.reads.trans hab.reads
  times := hbc.times.trans hab.times

/-- A signal does not change what is tracked. -/
theorem startOf_send (s : Stopper) (pid : ℕ) (sig : Signal) (q : ℕ) :
    (s.send pid sig).startOf q = s.startOf q := by
  unfold send startOf
  cases hget : s.tracked.get pid with
  | none => rfl
  | some t =>
    dsimp only
    rw [OrderedDict.get_set]
    split
    · next heq => rw [heq, hget, Option.map_some, Option.map_some]
    · rfl

theorem startOf_sendUnless (relayed : List ℕ) (sig : Signal) (s : Stopper) (pid q : ℕ) :
    (sendUnless relayed sig s pid).startOf q = s.startOf q := by
  unfold sendUnless
  split
  · rfl
  · exact startOf_send s pid sig q

theorem counts_sendUnless (relayed : List ℕ) (sig : Signal) (s : Stopper) (pid : ℕ) :
    (sendUnless relayed sig s pid).reads = s.reads ∧
      (sendUnless relayed sig s pid).times = s.times := by
  unfold sendUnless
  split
  · exact ⟨rfl, rfl⟩
  · exact ⟨rfl, rfl⟩

/-- **One member.** -/
theorem sweepMember_tracks (procs : Procs) (sig : Signal) (relayed : List ℕ) (index : ℕ)
    (state : Stopper × List ℕ) (pid : ℕ) :
    Tracks procs (· = pid) state (sweepMember procs sig relayed index state pid) := by
  obtain ⟨s, fresh⟩ := state
  unfold sweepMember
  dsimp only
  cases hget : s.tracked.get pid with
  | none =>
    have hnone : s.startOf pid = none := by
      unfold startOf
      rw [hget, Option.map_none]
    have hset : ∀ q, (sendUnless relayed sig { s with
        tracked := s.tracked.set pid ⟨procs.startAt pid, index, false⟩ } pid).startOf q =
          if q = pid then some (procs.startAt pid) else s.startOf q := by
      intro q
      rw [startOf_sendUnless]
      unfold startOf
      rw [OrderedDict.get_set]
      split
      · rfl
      · rfl
    have hcounts := counts_sendUnless relayed sig { s with
      tracked := s.tracked.set pid ⟨procs.startAt pid, index, false⟩ } pid
    refine ⟨fun q hq => ?_, fun q hq => ?_, fun q => ?_, hcounts.1, hcounts.2⟩
    · exact (hset q).trans (if_neg hq)
    · subst hq
      rw [hnone, Option.none_or]
      exact (hset q).trans (if_pos rfl)
    · rw [List.mem_append, List.mem_singleton]
      refine or_congr_right ⟨fun heq => ⟨?_, heq⟩, And.right⟩
      rw [heq, hnone]
  | some t =>
    have hsome : s.startOf pid = some t.start := by
      unfold startOf
      rw [hget, Option.map_some]
    have hsame : ∀ s' : Stopper, (∀ q, s'.startOf q = s.startOf q) →
        s'.reads = s.reads ∧ s'.times = s.times →
        Tracks procs (· = pid) (s, fresh) (s', fresh) := by
      intro s' hstart hcounts
      refine ⟨fun q _ => hstart q, fun q hq => ?_, fun q => ?_, hcounts.1, hcounts.2⟩
      · rw [hstart, hq, hsome, Option.some_or]
      · refine ⟨Or.inl, fun h => h.resolve_right ?_⟩
        rintro ⟨hnone, rfl⟩
        rw [hsome] at hnone
        cases hnone
    dsimp only
    split
    · exact hsame s (fun _ => rfl) ⟨rfl, rfl⟩
    · exact hsame _ (startOf_sendUnless relayed sig s pid) (counts_sendUnless _ _ _ _)

/-- One wake's members. -/
theorem sweepMembers_tracks (sig : Signal) (relayed : List ℕ) (index : ℕ) :
    ∀ (pids : List ℕ) (state : Stopper × List ℕ), Tracks procs (· ∈ pids) state
      (pids.foldl (sweepMember procs sig relayed index) state)
  | [], state => by
    simpa using Tracks.refl procs state
  | pid :: pids, state => by
    rw [List.foldl_cons]
    have htracks := (sweepMember_tracks procs sig relayed index state pid).trans
      (sweepMembers_tracks sig relayed index pids _)
    simpa only [List.mem_cons] using htracks

theorem mem_byDepth {pids : List ℕ} : pid ∈ procs.byDepth pids ↔ pid ∈ pids :=
  List.mem_insertionSort _

/-- The wakes one after another. -/
theorem sweepWakes_tracks {sig : Signal} : ∀ {items : List (Wake × ℕ)}
    {state state' : Stopper × List ℕ}, items.foldlM (sweepWake procs sig) state = some state' →
      Tracks procs (fun pid => ∃ item ∈ items, pid ∈ procs.members item.1) state state'
  | [], state, state', h => by
    cases h
    simpa using Tracks.refl procs state
  | (wake, index) :: items, state, state', h => by
    rw [List.foldlM_cons] at h
    obtain ⟨state₁, hfirst, hrest⟩ := Option.bind_eq_some_iff.mp h
    obtain ⟨relayed, -, rfl⟩ := Option.map_eq_some_iff.mp hfirst
    have htracks := (sweepMembers_tracks sig relayed index (procs.byDepth (procs.members wake))
      state).trans (sweepWakes_tracks hrest)
    simpa only [mem_byDepth, List.mem_cons, exists_eq_or_imp] using htracks

/-- **A sweep** tracks the members of the wakes. -/
theorem sweep_tracks {s : Stopper} {sig : Signal} {state : Stopper × List ℕ}
    (h : s.sweep procs wakes sig = some state) :
    Tracks procs (procs.MemberOf wakes) (s, []) state := by
  have htracks := sweepWakes_tracks h
  have hitems : ∀ pid, (∃ item ∈ wakes.zipIdx, pid ∈ procs.members item.1) ↔
      procs.MemberOf wakes pid := by
    intro pid
    unfold Procs.MemberOf
    nth_rewrite 2 [← List.zipIdx_map_fst 0 wakes]
    simp only [List.mem_map, exists_exists_and_eq_and]
  simpa only [hitems] using htracks

/-! ## 3. What is tracked -/

variable {machine : Machine}

/-- The snapshots that were read. -/
def snapshots (machine : Machine) (reads : ℕ) : List Procs := (List.range reads).map machine.read

/-- What is tracked is what was sighted in the snapshots that were read. -/
def Follows (machine : Machine) (wakes : List Wake) (s : Stopper) : Prop :=
  ∀ pid, s.startOf pid = sighted wakes (snapshots machine s.reads) pid

/-- **A sweep of the snapshot that is read next** keeps it so. -/
theorem Follows.sweep {s s' : Stopper} (h : Follows machine wakes s)
    (hsame : ∀ pid, s'.startOf pid = s.startOf pid) (hread : s'.reads = s.reads + 1)
    {sig : Signal} {state : Stopper × List ℕ}
    (hsweep : s'.sweep (machine.read s.reads) wakes sig = some state) :
    Follows machine wakes state.1 ∧ state.1.reads = s.reads + 1 := by
  have htracks := sweep_tracks hsweep
  have hreads : state.1.reads = s.reads + 1 := htracks.reads.trans hread
  refine ⟨fun pid => ?_, hreads⟩
  have hstart : s'.startOf pid = sighted wakes (snapshots machine s.reads) pid :=
    (hsame pid).trans (h pid)
  rw [hreads]
  unfold snapshots
  rw [List.range_succ, List.map_append, List.map_singleton, sighted_append]
  by_cases hmember : (machine.read s.reads).MemberOf wakes pid
  · rw [htracks.tracked pid hmember, if_pos hmember, hstart]
    rfl
  · rw [htracks.kept pid hmember, if_neg hmember, hstart, Option.or_none]
    rfl

theorem Follows.drained {started grace : ℚ} : ∀ {turns : ℕ} {s s' : Stopper},
    Follows machine wakes s → drain machine wakes started grace turns s = some s' →
      Follows machine wakes s'
  | 0, _, _, _, h => by cases h
  | turns + 1, s, s', hs, h => by
    unfold drain at h
    split at h
    · dsimp only at h
      split at h
      · cases h
      · next s₁ fresh hsweep =>
        have hsame : ∀ pid, s.timing.reading.startOf pid = s.startOf pid := fun _ => rfl
        have hfollows := (hs.sweep hsame rfl hsweep).1
        split at h
        · cases h
          exact hfollows
        · exact hfollows.drained h
    · cases h
      exact hs

/-- Watching reads on, and tracks nothing new: it ends with the live processes of the last
snapshot, or with what it began with where there was none. -/
theorem watch_spec (machine : Machine) : ∀ (turns : ℕ) (s : Stopper) (survivors : List ℕ),
    let ended := watch machine turns s survivors
    ended.1.tracked = s.tracked ∧
      ((ended = (s, survivors) ∧ (survivors = [] ∨ turns = 0)) ∨
        (s.reads < ended.1.reads ∧ ended.2 = s.live (machine.read (ended.1.reads - 1))))
  | 0, s, survivors => ⟨rfl, Or.inl ⟨rfl, Or.inr rfl⟩⟩
  | turns + 1, s, survivors => by
    intro ended
    by_cases hnil : survivors = []
    · have hended : ended = (s, survivors) := by
        unfold ended watch
        rw [if_pos hnil]
      rw [hended]
      exact ⟨rfl, Or.inl ⟨rfl, Or.inl hnil⟩⟩
    · have hended : ended =
          watch machine turns s.reading (s.reading.live (machine.read s.reads)) := by
        unfold ended
        conv_lhs => unfold watch
        rw [if_neg hnil]
      obtain ⟨htracked, hcases⟩ := watch_spec machine turns s.reading
        (s.reading.live (machine.read s.reads))
      rw [← hended] at htracked hcases
      refine ⟨htracked, Or.inr ?_⟩
      rcases hcases with ⟨hsame, -⟩ | ⟨hreads, hlive⟩
      · rw [hsame]
        exact ⟨Nat.lt_succ_self _, rfl⟩
      · exact ⟨Nat.lt_of_succ_lt hreads, hlive⟩

/-- Lines that are logged change nothing else. -/
theorem log_all {α : Type} (line : Stopper → α → List (String × Logfmt.Value)) (l : List α)
    (s : Stopper) :
    (l.foldl (fun s a => s.log (line s a)) s).tracked = s.tracked ∧
      (l.foldl (fun s a => s.log (line s a)) s).reads = s.reads ∧
      (l.foldl (fun s a => s.log (line s a)) s).times = s.times := by
  induction l generalizing s with
  | nil => exact ⟨rfl, rfl, rfl⟩
  | cons a l ih => exact ih (s.log (line s a))

theorem send_all (sig : Signal) (pids : List ℕ) (s : Stopper) :
    (∀ q, (pids.foldl (fun s pid => s.send pid sig) s).startOf q = s.startOf q) ∧
      (pids.foldl (fun s pid => s.send pid sig) s).reads = s.reads := by
  induction pids generalizing s with
  | nil => exact ⟨fun _ => rfl, rfl⟩
  | cons pid pids ih =>
    obtain ⟨hstart, hreads⟩ := ih (s.send pid sig)
    exact ⟨fun q => (hstart q).trans (startOf_send s pid sig q), hreads⟩

theorem startOf_congr {s s' : Stopper} (h : s.tracked = s'.tracked) (pid : ℕ) :
    s.startOf pid = s'.startOf pid := by
  unfold startOf
  rw [h]

/-! ## 4. What a stop leaves -/

/-- The SIGKILL pass: its sweep, what was live before it, and what it tracked first. -/
structure Escalated (machine : Machine) (wakes : List Wake) (stopped : Stopped) (s : Stopper)
    (killed : List ℕ) : Prop where
  follows : Follows machine wakes s
  swept : s.reads = stopped.swept
  pos : 0 < stopped.swept
  live : ∀ pid, pid ∈ killed ↔ pid ∈ s.live (machine.read (stopped.swept - 1))
  survivors : (watch machine killPolls s killed).2 = stopped.survivors
  reads : (watch machine killPolls s killed).1.reads = stopped.stopper.reads

/-- What is live after the sweep of a snapshot was live before it, or is fresh. -/
theorem mem_live_swept {s : Stopper} {sig : Signal} {state : Stopper × List ℕ}
    (h : s.sweep procs wakes sig = some state) :
    pid ∈ s.live procs ++ state.2 ↔ pid ∈ state.1.live procs := by
  have htracks := sweep_tracks h
  rw [List.mem_append, mem_live, mem_live, htracks.fresh]
  by_cases hmember : procs.MemberOf wakes pid
  · obtain ⟨wake, -, hlisted⟩ := id hmember
    obtain ⟨p, hget, halive⟩ := (Procs.mem_members.mp hlisted).get
    have hstart : procs.startAt pid = p.start := by
      unfold Procs.startAt
      rw [hget, Option.map_some, Option.getD_some]
    rw [htracks.tracked pid hmember, hstart, hget]
    cases s.startOf pid with
    | none => simp [halive, hmember]
    | some start => simp [halive]
  · rw [htracks.kept pid hmember]
    simp [hmember]

/-- **A stop** escalates, and then watches. -/
theorem escalated {who : String} {grace : ℚ} {turns : ℕ} {stopped : Stopped}
    (h : Stopper.new.stop machine wakes who grace turns = some stopped) :
    ∃ s killed, Escalated machine wakes stopped s killed := by
  unfold stop at h
  dsimp only at h
  obtain ⟨⟨s₁, _⟩, hterm, h⟩ := Option.bind_eq_some_iff.mp h
  obtain ⟨s₂, hdrain, h⟩ := Option.bind_eq_some_iff.mp h
  obtain ⟨⟨s₃, fresh⟩, hkill, h⟩ := Option.bind_eq_some_iff.mp h
  cases h
  have hnew : Follows machine wakes Stopper.new := fun _ => rfl
  have hlogged := log_all (fun _ wake => requestedLine (machine.read new.reads) who wake) wakes
    new.timing.reading
  have hdrained := (hnew.sweep (startOf_congr hlogged.1) hlogged.2.1 hterm).1.drained hdrain
  obtain ⟨hsent, hread⟩ := send_all .kill (s₂.reading.live (machine.read s₂.reads)) s₂.reading
  obtain ⟨hfollows, hreads⟩ := hdrained.sweep hsent hread hkill
  refine ⟨s₃, s₂.reading.live (machine.read s₂.reads) ++ fresh, hfollows, rfl, ?_, fun pid => ?_,
    rfl, (log_all (fun s item => s.doneLine who _ _ _ item) _ (timing _)).2.1.symm⟩
  · exact hreads ▸ Nat.succ_pos _
  · dsimp only at hreads ⊢
    rw [hreads, Nat.add_sub_cancel, ← mem_live_swept hkill, List.mem_append, List.mem_append,
      mem_live, mem_live]
    simp only [hsent]

/-- **An empty list** says that no process a sweep sighted still stands in the last snapshot. -/
theorem survivors_eq_nil_iff {who : String} {grace : ℚ} {turns : ℕ} {stopped : Stopped}
    (h : Stopper.new.stop machine wakes who grace turns = some stopped) :
    stopped.survivors = [] ↔ ∀ pid, ¬ (machine.read (stopped.stopper.reads - 1)).Standing wakes
      (snapshots machine stopped.swept) pid := by
  obtain ⟨s, killed, hescalated⟩ := escalated h
  have hstanding : ∀ (procs : Procs) (pid : ℕ), pid ∈ s.live procs ↔
      procs.Standing wakes (snapshots machine stopped.swept) pid := by
    intro procs pid
    rw [mem_live, ← hescalated.swept]
    simp only [hescalated.follows pid]
    rfl
  simp only [← hstanding, ← List.eq_nil_iff_forall_not_mem]
  obtain ⟨-, hwatched⟩ := watch_spec machine killPolls s killed
  rw [← hescalated.survivors, ← hescalated.reads]
  rcases hwatched with ⟨hsame, hnone⟩ | ⟨-, hlive⟩
  · have hkilled : killed = [] := hnone.resolve_right (by decide)
    have hlive : s.live (machine.read (stopped.swept - 1)) = [] := by
      rw [List.eq_nil_iff_forall_not_mem]
      intro pid hpid
      rw [← hescalated.live, hkilled] at hpid
      cases hpid
    rw [hsame, hkilled, hescalated.swept, hlive]
  · rw [hlive]

/-- **A stop that returns an empty list leaves no live member** in the last snapshot it read, if and
only if one of its sightings still stands there, so that the list is not empty, or every live member
there is one of them.  So it does where none of them stands and its sweeps missed a live member. -/
theorem stops_all_iff {who : String} {grace : ℚ} {turns : ℕ} {stopped : Stopped}
    (h : Stopper.new.stop machine wakes who grace turns = some stopped) :
    let last := machine.read (stopped.stopper.reads - 1)
    let swept := snapshots machine stopped.swept
    ((stopped.survivors = [] → ∀ wake ∈ wakes, ∀ pid, ¬ last.LiveMember wake pid) ↔
      (∃ pid, last.Standing wakes swept pid) ∨
        ∀ wake ∈ wakes, ∀ pid, last.LiveMember wake pid → last.Standing wakes swept pid) ∧
    (¬ (stopped.survivors = [] → ∀ wake ∈ wakes, ∀ pid, ¬ last.LiveMember wake pid) ↔
      (∀ pid, ¬ last.Standing wakes swept pid) ∧
        ∃ wake ∈ wakes, ∃ pid, last.LiveMember wake pid ∧ last.Missed wakes swept pid) := by
  intro last swept
  have hiff : (stopped.survivors = [] → ∀ wake ∈ wakes, ∀ pid, ¬ last.LiveMember wake pid) ↔
      (∃ pid, last.Standing wakes swept pid) ∨
        ∀ wake ∈ wakes, ∀ pid, last.LiveMember wake pid → last.Standing wakes swept pid := by
    rw [survivors_eq_nil_iff h]
    by_cases hstanding : ∃ pid, last.Standing wakes swept pid
    · exact iff_of_true (fun hnone => absurd hstanding (not_exists.mpr hnone)) (Or.inl hstanding)
    · have hnone := not_exists.mp hstanding
      constructor
      · intro hempty
        exact Or.inr fun wake hwake pid hmember => absurd hmember (hempty hnone wake hwake pid)
      · intro hall _ wake hwake pid hmember
        exact hnone pid (hall.resolve_left hstanding wake hwake pid hmember)
  have hmissed : ∀ wake pid, last.LiveMember wake pid →
      (last.Missed wakes swept pid ↔ ¬ last.Standing wakes swept pid) := by
    intro wake pid hmember
    obtain ⟨p, hget, halive⟩ := hmember.get
    exact Procs.missed_iff hget halive
  refine ⟨hiff, ?_⟩
  rw [hiff, not_or, not_exists]
  refine and_congr_right fun _ => ?_
  simp only [not_forall, exists_prop]
  refine exists_congr fun wake => and_congr_right fun _ => exists_congr fun pid => ?_
  exact and_congr_right fun hmember => (hmissed wake pid hmember).symm

/-! ## 5. That a stop ends -/

/-- The walks down the wakes' parent links end. -/
def WalksEnd (wakes : List Wake) (procs : Procs) : Prop :=
  ∀ wake ∈ wakes, (procs.leftToRelay wake (procs.members wake)).isSome = true

theorem sweepWakes_ends {sig : Signal} : ∀ {items : List (Wake × ℕ)},
    (∀ item ∈ items, (procs.leftToRelay item.1 (procs.members item.1)).isSome = true) →
      ∀ state : Stopper × List ℕ, ∃ state', items.foldlM (sweepWake procs sig) state = some state'
  | [], _, state => ⟨state, rfl⟩
  | (wake, index) :: items, hwalks, state => by
    have hfirst : ∃ state', sweepWake procs sig state (wake, index) = some state' := by
      unfold sweepWake
      dsimp only
      obtain ⟨relayed, hrelayed⟩ :=
        Option.isSome_iff_exists.mp (hwalks (wake, index) List.mem_cons_self)
      split
      · exact ⟨_, by rw [hrelayed, Option.map_some]⟩
      · exact ⟨_, rfl⟩
    obtain ⟨state', hstate'⟩ := hfirst
    rw [List.foldlM_cons, hstate']
    exact sweepWakes_ends (fun item hitem => hwalks item (List.mem_cons_of_mem _ hitem)) state'

theorem sweep_ends (hwalks : WalksEnd wakes procs) (s : Stopper) (sig : Signal) :
    ∃ state, s.sweep procs wakes sig = some state := by
  refine sweepWakes_ends (fun item hitem => hwalks item.1 ?_) (s, [])
  have hmem := List.mem_map_of_mem (f := Prod.fst) hitem
  rwa [List.zipIdx_map_fst] at hmem

/-- The loop ends when the clock has passed the grace period, if not before. -/
theorem drain_ends (hwalks : ∀ n, WalksEnd wakes (machine.read n)) {started grace : ℚ} {n : ℕ}
    (hgrace : grace ≤ machine.now n - started) : ∀ (turns : ℕ) (s : Stopper),
      n = s.times + turns → ∃ s', drain machine wakes started grace (turns + 1) s = some s'
  | 0, s, hn => by
    unfold drain
    rw [if_neg (not_lt.mpr (by rwa [hn, Nat.add_zero] at hgrace))]
    exact ⟨_, rfl⟩
  | turns + 1, s, hn => by
    unfold drain
    split
    · obtain ⟨⟨s', fresh⟩, hsweep⟩ :=
        sweep_ends (hwalks s.reads) s.timing.reading .term
      dsimp only
      rw [hsweep]
      dsimp only
      split
      · exact ⟨_, rfl⟩
      · have htimes : s'.times = s.times + 1 := (sweep_tracks hsweep).times
        exact drain_ends hwalks hgrace turns s' (by omega)
    · exact ⟨_, rfl⟩

/-- **A stop returns** once the clock has passed the grace period. -/
theorem stop_returns (hwalks : ∀ n, WalksEnd wakes (machine.read n)) (who : String) {grace : ℚ}
    {n : ℕ} (hn : 0 < n) (hgrace : grace ≤ machine.now n - machine.now 0) :
    ∃ stopped, Stopper.new.stop machine wakes who grace n = some stopped := by
  obtain ⟨-, -, hlogged⟩ := log_all
    (fun _ wake => requestedLine (machine.read new.reads) who wake) wakes new.timing.reading
  obtain ⟨⟨s₁, fresh⟩, hterm⟩ := sweep_ends (hwalks new.reads)
    (wakes.foldl (fun s wake => s.log (requestedLine (machine.read new.reads) who wake))
      new.timing.reading) .term
  have htimes : s₁.times = 1 := (sweep_tracks hterm).times.trans hlogged
  obtain ⟨s₂, hdrain⟩ := drain_ends hwalks hgrace (n - 1) s₁ (by omega)
  rw [Nat.sub_add_cancel hn] at hdrain
  obtain ⟨⟨s₃, killed⟩, hkill⟩ := sweep_ends (hwalks s₂.reads)
    ((s₂.reading.live (machine.read s₂.reads)).foldl (fun s pid => s.send pid .kill) s₂.reading)
    .kill
  unfold stop
  exact ⟨_, Option.bind_eq_some_iff.mpr ⟨_, hterm, Option.bind_eq_some_iff.mpr ⟨_, hdrain,
    Option.bind_eq_some_iff.mpr ⟨_, hkill, rfl⟩⟩⟩⟩

/-! ## 6. A child of the last moment -/

/-- The `sudo` of a wake. -/
def rootProc : Proc where
  pid := 100
  ppid := 50
  uid := 990
  start := 4000
  state := "S"
  argv := ["sudo", "/opt/basecradle-router/bin/wake-runner", "--user", "jt"]
  delivery := none

/-- A process of its session. -/
def sessionProc : Proc where
  pid := 102
  ppid := 100
  uid := 1001
  start := 4010
  state := "S"
  argv := ["claude"]
  delivery := some "d-1"

/-- What that process forked before it was killed. -/
def lateProc : Proc where
  pid := 203
  ppid := 1
  uid := 1001
  start := 4990
  state := "S"
  argv := ["server"]
  delivery := some "d-1"

def jtWake : Wake := ⟨rootProc, "jt", 1001, some "d-1"⟩

/-- A table of processes, each under its pid. -/
def tableOf (l : List Proc) (h : (l.map Proc.pid).Nodup) : Procs where
  table := ⟨l.map fun p => (p.pid, p), by simpa [List.map_map, Function.comp_def] using h⟩
  keyed pid p hget := by
    obtain ⟨q, -, heq⟩ := List.mem_map.mp (OrderedDict.mem_items.mpr hget)
    cases heq
    rfl

/-- The wake runs when it is first looked at and when it is killed, and then `rest` is left; the
clock does not move. -/
def killedWake (rest : Procs) : Machine where
  read reads := if reads < 2 then tableOf [rootProc, sessionProc] (by decide) else rest
  now _ := 0
  seconds _ := "0.0"

/-- The stop reads three snapshots, of which it sweeps two, and returns nothing. -/
theorem killedWake_stop (rest : List Proc) (hrest : rest = [] ∨ rest = [lateProc])
    (h : (rest.map Proc.pid).Nodup) : ∃ stopped,
    Stopper.new.stop (killedWake (tableOf rest h)) [jtWake] "origin" 0 1 = some stopped ∧
      stopped.survivors = [] ∧ stopped.stopper.reads = 3 := by
  have hstop : (Stopper.new.stop (killedWake (tableOf rest h)) [jtWake] "origin" 0 1).map
      (fun stopped => (stopped.survivors, stopped.stopper.reads)) = some ([], 3) := by
    rcases hrest with rfl | rfl
    · decide +kernel +revert
    · decide +kernel +revert
  obtain ⟨stopped, hstopped, hpair⟩ := Option.map_eq_some_iff.mp hstop
  exact ⟨stopped, hstopped, congrArg Prod.fst hpair, congrArg Prod.snd hpair⟩

theorem stops_all_iff_empty : ∃ stopped,
    Stopper.new.stop (killedWake (tableOf [] List.nodup_nil)) [jtWake] "origin" 0 1 =
      some stopped ∧
    ∀ pid, ¬ ((killedWake (tableOf [] List.nodup_nil)).read
      (stopped.stopper.reads - 1)).LiveMember jtWake pid := by
  obtain ⟨stopped, hstop, hsurvivors, hreads⟩ := killedWake_stop [] (Or.inl rfl) List.nodup_nil
  refine ⟨stopped, hstop, (stops_all_iff hstop).1.mpr (Or.inr fun wake _ pid hmember => ?_)
    hsurvivors jtWake List.mem_cons_self⟩
  obtain ⟨p, hget, -⟩ := hmember.get
  rw [hreads] at hget
  cases hget

/-- **The list is empty, and a member is alive**: it was born after the last sweep. -/
theorem not_stopped_late : ∃ stopped,
    Stopper.new.stop (killedWake (tableOf [lateProc] (List.nodup_singleton _))) [jtWake] "origin" 0
      1 = some stopped ∧ stopped.survivors = [] ∧
    ((killedWake (tableOf [lateProc] (List.nodup_singleton _))).read
      (stopped.stopper.reads - 1)).LiveMember jtWake 203 := by
  obtain ⟨stopped, hstop, hsurvivors, hreads⟩ :=
    killedWake_stop [lateProc] (Or.inr rfl) (List.nodup_singleton _)
  refine ⟨stopped, hstop, hsurvivors, ?_⟩
  rw [hreads]
  exact Procs.mem_members.mp (by decide +kernel)

end Stopper

end BasecradleRouter.StopWake
