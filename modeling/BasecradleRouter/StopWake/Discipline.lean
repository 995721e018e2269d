/-
# Whom a stop signals, and when

A process gets its one SIGTERM when a sweep first finds it due, and no process gets a signal that
was not a member when it was tracked, or that has taken the pid of one (`Disciplined`).  The order
within one wake's pass and what no relay may hold need parent links that do not go round.

A relay is one only while it is alive.  Where a process on the way from the root to `runuser` has
exited, what is under it is signalled like any other (`not_spared`).
-/
import BasecradleRouter.StopWake.Relays
import BasecradleRouter.StopWake.Survivors

namespace BasecradleRouter.StopWake

open BasecradleRouter.Lib Relation

/-- The snapshot a signal was sent at. -/
def Sent.snapshot (machine : Machine) (x : Sent) : Procs := machine.read (x.read - 1)

/-- The process that stood on its pid there. -/
def Sent.identity (machine : Machine) (x : Sent) : ℕ × ℕ :=
  (x.pid, (x.snapshot machine).startAt x.pid)

namespace Stopper

/-- A pid is marked as signalled. -/
def signalled (s : Stopper) (pid : ℕ) : Bool := (s.tracked.get pid).any Tracked.signalled

/-! ## 1. One sweep -/

/-- What a part of a sweep signals: each pid once, none that was signalled before, and each with the
start time it is tracked with. -/
structure Sends (procs : Procs) (sig : Signal) (before after : Stopper) (pids : List ℕ) : Prop where
  sent : after.sent = before.sent ++ pids.map (⟨before.reads, ·, sig⟩)
  reads : after.reads = before.reads
  nodup : pids.Nodup
  unsent : ∀ pid ∈ pids, before.signalled pid = false
  signalled : ∀ pid, after.signalled pid = true ↔ before.signalled pid = true ∨ pid ∈ pids
  starts : ∀ pid ∈ pids, after.startOf pid = some (procs.startAt pid)
  kept : ∀ pid start, before.startOf pid = some start → after.startOf pid = some start

variable {procs : Procs} {wakes : List Wake} {sig : Signal} {s s' a b c : Stopper}
  {pids pids' relayed : List ℕ} {pid : ℕ}

/-- A part that signals nobody. -/
theorem Sends.none (hsent : s'.sent = s.sent) (hreads : s'.reads = s.reads)
    (hsignalled : ∀ pid, s'.signalled pid = s.signalled pid)
    (hkept : ∀ pid start, s.startOf pid = some start → s'.startOf pid = some start) :
    Sends procs sig s s' [] where
  sent := by rw [hsent, List.map_nil, List.append_nil]
  reads := hreads
  nodup := List.nodup_nil
  unsent _ h := absurd h List.not_mem_nil
  signalled pid := by rw [hsignalled]; simp
  starts _ h := absurd h List.not_mem_nil
  kept := hkept

theorem Sends.refl (s : Stopper) : Sends procs sig s s [] :=
  .none rfl rfl (fun _ => rfl) fun _ _ h => h

/-- One part after another. -/
theorem Sends.trans (hab : Sends procs sig a b pids) (hbc : Sends procs sig b c pids') :
    Sends procs sig a c (pids ++ pids') where
  sent := by rw [hbc.sent, hab.sent, hab.reads, List.map_append, List.append_assoc]
  reads := hbc.reads.trans hab.reads
  nodup := by
    refine List.nodup_append.mpr ⟨hab.nodup, hbc.nodup, ?_⟩
    rintro pid hpid pid' hpid' rfl
    have hsignalled := (hab.signalled pid).mpr (Or.inr hpid)
    rw [hbc.unsent pid hpid'] at hsignalled
    cases hsignalled
  unsent pid hpid := by
    rcases List.mem_append.mp hpid with hpid | hpid
    · exact hab.unsent pid hpid
    · refine eq_false_of_ne_true fun hbefore => ?_
      have hsignalled := (hab.signalled pid).mpr (Or.inl hbefore)
      rw [hbc.unsent pid hpid] at hsignalled
      cases hsignalled
  signalled pid := by rw [hbc.signalled, hab.signalled, List.mem_append, or_assoc]
  starts pid hpid := by
    rcases List.mem_append.mp hpid with hpid | hpid
    · exact hbc.kept pid _ (hab.starts pid hpid)
    · exact hbc.starts pid hpid
  kept pid start h := hbc.kept pid start (hab.kept pid start h)

theorem signalled_send (s : Stopper) (pid q : ℕ) (sig : Signal) :
    (s.send pid sig).signalled q = true ↔
      s.signalled q = true ∨ q = pid ∧ (s.tracked.get pid).isSome = true := by
  unfold send signalled
  cases hget : s.tracked.get pid with
  | none => simp
  | some t =>
    dsimp only
    rw [OrderedDict.get_set]
    split
    · next heq => simp [heq]
    · next hne => simp [hne]

/-- A process that is due is signalled, unless a relay will. -/
theorem sendUnless_sends (sig : Signal) (relayed : List ℕ)
    (hstart : s.startOf pid = some (procs.startAt pid)) (hunsent : s.signalled pid = false) :
    ∃ pids, Sends procs sig s (sendUnless relayed sig s pid) pids ∧ pids.Sublist [pid] ∧
        ∀ q ∈ pids, q ∉ relayed := by
  unfold sendUnless
  split
  · exact ⟨[], .refl s, List.nil_sublist _, fun _ h => absurd h List.not_mem_nil⟩
  · next hnot =>
    have htracked : (s.tracked.get pid).isSome = true := by
      obtain ⟨t, ht, -⟩ := Option.map_eq_some_iff.mp hstart
      rw [ht]
      rfl
    refine ⟨[pid], ?_, List.Sublist.refl _, fun q hq => List.mem_singleton.mp hq ▸ hnot⟩
    refine ⟨rfl, rfl, List.pairwise_singleton _ _, fun q hq => ?_, fun q => ?_, fun q hq => ?_,
      fun q start h => ?_⟩
    · rwa [List.mem_singleton.mp hq]
    · rw [signalled_send, htracked, List.mem_singleton]
      simp
    · rwa [startOf_send, List.mem_singleton.mp hq]
    · rwa [startOf_send]

/-- **One member.** -/
theorem sweepMember_sends (procs : Procs) (sig : Signal) (relayed : List ℕ) (index : ℕ)
    (state : Stopper × List ℕ) (pid : ℕ) : ∃ pids,
      Sends procs sig state.1 (sweepMember procs sig relayed index state pid).1 pids ∧
        pids.Sublist [pid] ∧ ∀ q ∈ pids, q ∉ relayed := by
  obtain ⟨s, fresh⟩ := state
  have hnobody : ∃ pids, Sends procs sig s s pids ∧ pids.Sublist [pid] ∧ ∀ q ∈ pids, q ∉ relayed :=
    ⟨[], .refl s, List.nil_sublist _, fun _ h => absurd h List.not_mem_nil⟩
  unfold sweepMember
  dsimp only
  cases hget : s.tracked.get pid with
  | none =>
    let s' : Stopper := { s with tracked := s.tracked.set pid ⟨procs.startAt pid, index, false⟩ }
    have hget' : ∀ q, s'.tracked.get q =
        if q = pid then some ⟨procs.startAt pid, index, false⟩ else s.tracked.get q :=
      fun q => OrderedDict.get_set _ _ _ _
    have htracks : Sends procs sig s s' [] := by
      refine .none rfl rfl (fun q => ?_) fun q start h => ?_
      · unfold signalled
        rw [hget']
        split
        · next heq =>
          rw [heq, hget]
          rfl
        · rfl
      · unfold startOf at h ⊢
        rw [hget']
        split
        · next heq =>
          rw [heq, hget] at h
          cases h
        · exact h
    have hstart : s'.startOf pid = some (procs.startAt pid) := by
      unfold startOf
      rw [hget', if_pos rfl]
      rfl
    have hunsent : s'.signalled pid = false := by
      unfold signalled
      rw [hget', if_pos rfl]
      rfl
    obtain ⟨pids, hsends, hsub, hfree⟩ := sendUnless_sends sig relayed hstart hunsent
    exact ⟨pids, htracks.trans hsends, hsub, hfree⟩
  | some t =>
    dsimp only
    split
    · exact hnobody
    · next hdue =>
      rw [Bool.or_eq_true, not_or, Bool.not_eq_true, bne_iff_ne, not_not] at hdue
      refine sendUnless_sends sig relayed ?_ ?_
      · unfold startOf
        rw [hget, Option.map_some, hdue.2]
        rfl
      · unfold signalled
        rw [hget, Option.any_some, hdue.1]

/-- One wake's members. -/
theorem sweepMembers_sends (procs : Procs) (sig : Signal) (relayed : List ℕ) (index : ℕ) :
    ∀ (members : List ℕ) (state : Stopper × List ℕ), ∃ pids,
      Sends procs sig state.1 (members.foldl (sweepMember procs sig relayed index) state).1 pids ∧
        pids.Sublist members ∧ ∀ q ∈ pids, q ∉ relayed
  | [], state => ⟨[], .refl _, List.Sublist.refl _, fun _ h => absurd h List.not_mem_nil⟩
  | pid :: members, state => by
    obtain ⟨first, hfirst, hone, hfree⟩ := sweepMember_sends procs sig relayed index state pid
    obtain ⟨rest, hrest, hsub, hfree'⟩ := sweepMembers_sends procs sig relayed index members
      (sweepMember procs sig relayed index state pid)
    refine ⟨first ++ rest, hfirst.trans hrest, hone.append hsub, fun q hq => ?_⟩
    rcases List.mem_append.mp hq with hq | hq
    · exact hfree q hq
    · exact hfree' q hq

/-- A wake's member that no relay will signal. -/
def Due (procs : Procs) (sig : Signal) (wake : Wake) (pid : ℕ) : Prop :=
  pid ∈ procs.members wake ∧ (sig = .term → ¬ procs.HeldByRelay wake pid)

/-- **One wake's pass** signals its members in their order. -/
theorem sweepWake_sends {state state' : Stopper × List ℕ} {wake : Wake} {index : ℕ}
    (h : sweepWake procs sig state (wake, index) = some state') : ∃ pids,
      Sends procs sig state.1 state'.1 pids ∧ pids.Sublist (procs.byDepth (procs.members wake)) ∧
        ∀ pid ∈ pids, Due procs sig wake pid := by
  unfold sweepWake at h
  dsimp only at h
  obtain ⟨relayed, hrelayed, rfl⟩ := Option.map_eq_some_iff.mp h
  obtain ⟨pids, hsends, hsub, hfree⟩ := sweepMembers_sends procs sig relayed index
    (procs.byDepth (procs.members wake)) state
  refine ⟨pids, hsends, hsub, fun pid hpid => ⟨mem_byDepth.mp (hsub.subset hpid), ?_⟩⟩
  rintro rfl hheld
  rw [if_pos rfl] at hrelayed
  exact hfree pid hpid ((Procs.mem_leftToRelay hrelayed).mpr hheld)

theorem sweepWakes_sends : ∀ {items : List (Wake × ℕ)} {state state' : Stopper × List ℕ},
    items.foldlM (sweepWake procs sig) state = some state' → ∃ pids,
      Sends procs sig state.1 state'.1 pids ∧
        ∀ pid ∈ pids, ∃ item ∈ items, Due procs sig item.1 pid
  | [], state, state', h => by
    cases h
    exact ⟨[], .refl _, fun _ h => absurd h List.not_mem_nil⟩
  | (wake, index) :: items, state, state', h => by
    rw [List.foldlM_cons] at h
    obtain ⟨state₁, hfirst, hrest⟩ := Option.bind_eq_some_iff.mp h
    obtain ⟨first, hsends, -, hdue⟩ := sweepWake_sends hfirst
    obtain ⟨rest, hsends', hdue'⟩ := sweepWakes_sends hrest
    refine ⟨first ++ rest, hsends.trans hsends', fun pid hpid => ?_⟩
    rcases List.mem_append.mp hpid with hpid | hpid
    · exact ⟨(wake, index), List.mem_cons_self, hdue pid hpid⟩
    · obtain ⟨item, hitem, hdue⟩ := hdue' pid hpid
      exact ⟨item, List.mem_cons_of_mem _ hitem, hdue⟩

/-- **A sweep** signals who is due in one of the wakes. -/
theorem sweep_sends {state : Stopper × List ℕ} (h : s.sweep procs wakes sig = some state) :
    ∃ pids, Sends procs sig s state.1 pids ∧
      ∀ pid ∈ pids, ∃ wake ∈ wakes, Due procs sig wake pid := by
  obtain ⟨pids, hsends, hdue⟩ := sweepWakes_sends h
  refine ⟨pids, hsends, fun pid hpid => ?_⟩
  obtain ⟨item, hitem, hitemDue⟩ := hdue pid hpid
  have hmem := List.mem_map_of_mem (f := Prod.fst) hitem
  rw [List.zipIdx_map_fst] at hmem
  exact ⟨item.1, hmem, hitemDue⟩

/-! ## 2. A stop -/

variable {machine : Machine}

/-- A process stands on the pid of a signal, with the start time that is recorded for it. -/
def Recorded (machine : Machine) (wakes : List Wake) (x : Sent) : Prop :=
  ∃ p, (x.snapshot machine).get x.pid = some p ∧
    sighted wakes (snapshots machine x.read) x.pid = some p.start

/-- What holds of the signals at any time. -/
structure Sending (machine : Machine) (wakes : List Wake) (s : Stopper) : Prop where
  recorded : ∀ x ∈ s.sent, Recorded machine wakes x
  due : ∀ x ∈ s.sent, x.sig = .term → ∃ wake ∈ wakes, Due (x.snapshot machine) .term wake x.pid
  marked : ∀ x ∈ s.sent, x.sig = .term → s.signalled x.pid = true
  once : ((s.sent.filter (·.sig == .term)).map Sent.pid).Nodup

theorem signalled_congr (h : s'.tracked = s.tracked) (pid : ℕ) :
    s'.signalled pid = s.signalled pid := by
  unfold signalled
  rw [h]

theorem Sending.congr (h : Sending machine wakes s) (hsent : s'.sent = s.sent)
    (htracked : s'.tracked = s.tracked) : Sending machine wakes s' where
  recorded x hx := h.recorded x (hsent ▸ hx)
  due x hx := h.due x (hsent ▸ hx)
  marked x hx hterm := (signalled_congr htracked x.pid).trans (h.marked x (hsent ▸ hx) hterm)
  once := by rw [hsent]; exact h.once

theorem sending_new (machine : Machine) (wakes : List Wake) : Sending machine wakes .new where
  recorded _ hx := absurd hx List.not_mem_nil
  due _ hx := absurd hx List.not_mem_nil
  marked _ hx := absurd hx List.not_mem_nil
  once := List.nodup_nil

/-- **A sweep** of the snapshot that was read last. -/
theorem Sending.sweep (h : Sending machine wakes s) {n : ℕ} (hreads : s.reads = n + 1)
    {state : Stopper × List ℕ} (hsweep : s.sweep (machine.read n) wakes sig = some state)
    (hfollows : Follows machine wakes state.1) : Sending machine wakes state.1 := by
  obtain ⟨pids, hsends, hdue⟩ := sweep_sends hsweep
  have hsnapshot : ∀ pid, (Sent.mk s.reads pid sig).snapshot machine = machine.read n := by
    intro pid
    unfold Sent.snapshot
    rw [hreads, Nat.add_sub_cancel]
  have hcases : ∀ x ∈ state.1.sent, x ∈ s.sent ∨ ∃ pid ∈ pids, x = ⟨s.reads, pid, sig⟩ := by
    intro x hx
    rw [hsends.sent] at hx
    rcases List.mem_append.mp hx with hx | hx
    · exact Or.inl hx
    · obtain ⟨pid, hpid, rfl⟩ := List.mem_map.mp hx
      exact Or.inr ⟨pid, hpid, rfl⟩
  refine ⟨fun x hx => ?_, fun x hx hterm => ?_, fun x hx hterm => ?_, ?_⟩
  · rcases hcases x hx with hx | ⟨pid, hpid, rfl⟩
    · exact h.recorded x hx
    · obtain ⟨wake, -, hmember, -⟩ := hdue pid hpid
      obtain ⟨p, hget, -⟩ := (Procs.mem_members.mp hmember).get
      refine ⟨p, by rw [hsnapshot]; exact hget, ?_⟩
      have hstart := hsends.starts pid hpid
      rw [hfollows pid, hsends.reads] at hstart
      refine hstart.trans ?_
      unfold Procs.startAt
      rw [hget, Option.map_some, Option.getD_some]
  · rcases hcases x hx with hx | ⟨pid, hpid, rfl⟩
    · exact h.due x hx hterm
    · obtain ⟨wake, hwake, hdueWake⟩ := hdue pid hpid
      obtain rfl : sig = .term := hterm
      exact ⟨wake, hwake, by rw [hsnapshot]; exact hdueWake⟩
  · refine (hsends.signalled x.pid).mpr ?_
    rcases hcases x hx with hx | ⟨pid, hpid, rfl⟩
    · exact Or.inl (h.marked x hx hterm)
    · exact Or.inr hpid
  · rw [hsends.sent, List.filter_append, List.map_append]
    cases sig with
    | kill =>
      have hnone : (pids.map (⟨s.reads, ·, .kill⟩ : ℕ → Sent)).filter (·.sig == .term) = [] := by
        rw [List.filter_map]
        simp [Function.comp_def]
      rw [hnone, List.map_nil, List.append_nil]
      exact h.once
    | term =>
      have hall : (pids.map (⟨s.reads, ·, .term⟩ : ℕ → Sent)).filter (·.sig == .term) =
          pids.map (⟨s.reads, ·, .term⟩ : ℕ → Sent) := by
        rw [List.filter_map]
        simp [Function.comp_def]
      rw [hall, List.map_map]
      have hid : Sent.pid ∘ (⟨s.reads, ·, .term⟩ : ℕ → Sent) = id := rfl
      rw [hid, List.map_id]
      refine List.nodup_append.mpr ⟨h.once, hsends.nodup, ?_⟩
      rintro pid hpid _ hpid' rfl
      obtain ⟨x, hx, rfl⟩ := List.mem_map.mp hpid
      obtain ⟨hx, hterm⟩ := List.mem_filter.mp hx
      have hmarked := h.marked x hx (beq_iff_eq.mp hterm)
      rw [hsends.unsent _ hpid'] at hmarked
      cases hmarked

/-- The loop while the wakes drain. -/
theorem Sending.drained {started grace : ℚ} : ∀ {turns : ℕ} {s s' : Stopper},
    Sending machine wakes s → Follows machine wakes s →
      drain machine wakes started grace turns s = some s' → Sending machine wakes s'
  | 0, _, _, _, _, h => by cases h
  | turns + 1, s, s', hs, hfollows, h => by
    unfold drain at h
    split at h
    · dsimp only at h
      split at h
      · cases h
      · next s₁ fresh hsweep =>
        have hsame : ∀ pid, s.timing.reading.startOf pid = s.startOf pid := fun _ => rfl
        have hfollows₁ := (hfollows.sweep hsame rfl hsweep).1
        have hreading : Sending machine wakes s.timing.reading := hs.congr rfl rfl
        have hsending₁ := hreading.sweep rfl hsweep hfollows₁
        split at h
        · cases h
          exact hsending₁
        · exact hsending₁.drained hfollows₁ h
    · cases h
      exact hs.congr rfl rfl

/-- SIGKILL, to processes that still stand. -/
theorem Sending.killed : ∀ {pids : List ℕ} {s : Stopper}, Sending machine wakes s →
    (∀ pid ∈ pids, Recorded machine wakes ⟨s.reads, pid, .kill⟩) →
      Sending machine wakes (pids.foldl (fun s pid => s.send pid .kill) s)
  | [], _, h, _ => h
  | pid :: pids, s, h, hpids => by
    have hcases : ∀ x ∈ (s.send pid .kill).sent, x ∈ s.sent ∨ x = ⟨s.reads, pid, .kill⟩ := by
      intro x hx
      exact (List.mem_append.mp hx).imp_right List.mem_singleton.mp
    have hsent : Sending machine wakes (s.send pid .kill) := by
      refine ⟨fun x hx => ?_, fun x hx hterm => ?_, fun x hx hterm => ?_, ?_⟩
      · rcases hcases x hx with hx | rfl
        · exact h.recorded x hx
        · exact hpids pid List.mem_cons_self
      · rcases hcases x hx with hx | rfl
        · exact h.due x hx hterm
        · cases hterm
      · rcases hcases x hx with hx | rfl
        · exact (signalled_send _ _ _ _).mpr (Or.inl (h.marked x hx hterm))
        · cases hterm
      · have hfilter : (s.send pid .kill).sent.filter (·.sig == .term) =
            s.sent.filter (·.sig == .term) := by
          unfold send
          rw [List.filter_append]
          exact List.append_nil _
        rw [hfilter]
        exact h.once
    exact hsent.killed fun q hq => hpids q (List.mem_cons_of_mem _ hq)

theorem sent_watch (machine : Machine) : ∀ (turns : ℕ) (s : Stopper) (survivors : List ℕ),
    (watch machine turns s survivors).1.sent = s.sent
  | 0, _, _ => rfl
  | turns + 1, s, survivors => by
    unfold watch
    split
    · rfl
    · exact sent_watch machine turns s.reading _

theorem sent_log {α : Type} (line : Stopper → α → List (String × Logfmt.Value)) (l : List α)
    (s : Stopper) : (l.foldl (fun s a => s.log (line s a)) s).sent = s.sent := by
  induction l generalizing s with
  | nil => rfl
  | cons a l ih => exact ih (s.log (line s a))

/-- What still stands is recorded. -/
theorem recorded_of_live (hfollows : Follows machine wakes s)
    (h : pid ∈ s.reading.live (machine.read s.reads)) :
    Recorded machine wakes ⟨s.reading.reads, pid, .kill⟩ := by
  obtain ⟨p, hget, -, hstart⟩ := mem_live.mp h
  refine ⟨p, hget, ?_⟩
  have hsighted : sighted wakes (snapshots machine s.reads) pid = some p.start :=
    (hfollows pid).symm.trans hstart
  show sighted wakes (snapshots machine (s.reads + 1)) pid = some p.start
  unfold snapshots at hsighted ⊢
  rw [List.range_succ, List.map_append, List.map_singleton, sighted_append, hsighted]
  rfl

/-- **A whole stop.** -/
theorem stop_sending {who : String} {grace : ℚ} {turns : ℕ} {stopped : Stopped}
    (h : Stopper.new.stop machine wakes who grace turns = some stopped) :
    Sending machine wakes stopped.stopper := by
  unfold stop at h
  dsimp only at h
  obtain ⟨⟨s₁, _⟩, hterm, h⟩ := Option.bind_eq_some_iff.mp h
  obtain ⟨s₂, hdrain, h⟩ := Option.bind_eq_some_iff.mp h
  obtain ⟨⟨s₃, fresh⟩, hkill, h⟩ := Option.bind_eq_some_iff.mp h
  cases h
  have hnew : Follows machine wakes Stopper.new := fun _ => rfl
  have hlogged := log_all (fun _ wake => requestedLine (machine.read new.reads) who wake) wakes
    new.timing.reading
  have hfollows₁ := (hnew.sweep (startOf_congr hlogged.1) hlogged.2.1 hterm).1
  have hsending₁ := ((sending_new machine wakes).congr (sent_log _ wakes new.timing.reading)
    hlogged.1).sweep hlogged.2.1 hterm hfollows₁
  have hfollows₂ := hfollows₁.drained hdrain
  have hsending₂ := hsending₁.drained hfollows₁ hdrain
  obtain ⟨hsame, hreads⟩ := send_all .kill (s₂.reading.live (machine.read s₂.reads)) s₂.reading
  have hreading : Sending machine wakes s₂.reading := hsending₂.congr rfl rfl
  have hkilled := hreading.killed fun pid hpid => recorded_of_live hfollows₂ hpid
  have hsending₃ := hkilled.sweep hreads hkill (hfollows₂.sweep hsame hreads hkill).1
  refine hsending₃.congr ?_ ?_
  · exact (sent_log (fun s item => s.doneLine who _ _ _ item) _ (timing _)).trans
      (sent_watch machine killPolls s₃ _)
  · exact (log_all (fun s item => s.doneLine who _ _ _ item) _ (timing _)).1.trans
      (watch_spec machine killPolls s₃ _).1

/-! ## 3. The discipline -/

/-- The signals of a stop: one SIGTERM for each process, only to processes that were members when
they were tracked and are the same still, and none to what a relay holds, where one wake is
stopped. -/
structure Disciplined (machine : Machine) (wakes : List Wake) (sent : List Sent) : Prop where
  once : ((sent.filter (·.sig == .term)).map (Sent.identity machine)).Nodup
  tracked : ∀ x ∈ sent, Recorded machine wakes x
  relays : ∀ wake, wakes = [wake] → ∀ x ∈ sent, x.sig = .term →
    ¬ (x.snapshot machine).HeldByRelay wake x.pid

/-- Every pass over a wake's members signals a process before those under it. -/
def PassesInOrder (procs : Procs) : Prop :=
  ∀ sig state item state', sweepWake procs sig state item = some state' → ∃ pids,
    state'.1.sent = state.1.sent ++ pids.map (⟨state.1.reads, ·, sig⟩) ∧ procs.ParentsFirst pids

/-- Nothing is exempt below the children of a `runuser` that the wake's root is above. -/
def NothingSparedBelow (procs : Procs) : Prop :=
  ∀ wake relayed, procs.leftToRelay wake (procs.members wake) = some relayed →
    ∀ runuser child pid, ReflTransGen procs.IsChild wake.root.pid runuser →
      procs.named runuser "runuser" = true → procs.IsChild runuser child →
      TransGen procs.IsChild child pid → pid ∉ relayed

theorem Sending.disciplined (h : Sending machine wakes s) : Disciplined machine wakes s.sent where
  once := by
    refine List.Nodup.of_map Prod.fst ?_
    rw [List.map_map]
    exact h.once
  tracked := h.recorded
  relays wake hwake x hx hterm := by
    obtain ⟨wake', hmem, -, hheld⟩ := h.due x hx hterm
    obtain rfl : wake' = wake := by
      rw [hwake] at hmem
      exact List.mem_singleton.mp hmem
    exact hheld rfl

theorem passes_in_order (hacyclic : procs.Acyclic) : PassesInOrder procs := by
  rintro sig state ⟨wake, index⟩ state' h
  obtain ⟨pids, hsends, hsub, -⟩ := sweepWake_sends h
  exact ⟨pids, hsends.sent, (Procs.byDepth_parents_first hacyclic _).sublist hsub⟩

theorem nothing_spared_below (hacyclic : procs.Acyclic) : NothingSparedBelow procs := by
  intro wake relayed h runuser child pid hroot hrunuser hchild hbelow hmem
  exact Procs.not_held_below hacyclic hroot hrunuser hchild hbelow
    ((Procs.mem_leftToRelay h).mp hmem)

/-- **The discipline of a stop**, over snapshots whose parent links do not go round.  It ends once
the clock has passed the grace period. -/
theorem stop_disciplined (machine : Machine) (wakes : List Wake) (who : String) (grace : ℚ)
    (hacyclic : ∀ n, (machine.read n).Acyclic) :
    (∀ turns stopped, Stopper.new.stop machine wakes who grace turns = some stopped →
      Disciplined machine wakes stopped.stopper.sent) ∧
    (∀ n, PassesInOrder (machine.read n)) ∧ (∀ n, NothingSparedBelow (machine.read n)) ∧
    ∀ n, 0 < n → grace ≤ machine.now n - machine.now 0 →
      ∃ stopped, Stopper.new.stop machine wakes who grace n = some stopped := by
  refine ⟨fun turns stopped h => (stop_sending h).disciplined,
    fun n => passes_in_order (hacyclic n),
    fun n => nothing_spared_below (hacyclic n), fun n hn hgrace => ?_⟩
  exact stop_returns (fun n wake _ => Procs.leftToRelay_ends (hacyclic n) wake) who hn hgrace

/-! ## 4. A relay that has exited -/

/-- A wake's `sudo`, the monitor under it, `runuser`, and the agent's binary, in these states. -/
def chainProcs (monitor runuser : String) : List Proc :=
  [⟨100, 50, 990, 4000, "S", ["sudo", "/opt/basecradle-router/bin/wake-runner"], none⟩,
    ⟨101, 100, 0, 4001, monitor, ["sudo"], none⟩,
    ⟨102, 101, 0, 4002, runuser, ["/usr/sbin/runuser", "-u", "jt"], none⟩,
    ⟨103, 102, 1001, 4003, "S", ["claude"], some "d-1"⟩]

theorem chainProcs_nodup (monitor runuser : String) :
    ((chainProcs monitor runuser).map Proc.pid).Nodup := by
  show [100, 101, 102, 103].Nodup
  decide

def chainTable (monitor runuser : String) : Procs :=
  tableOf (chainProcs monitor runuser) (chainProcs_nodup monitor runuser)

/-- That table at every reading; the clock does not move. -/
def chainMachine (monitor runuser : String) : Machine where
  read _ := chainTable monitor runuser
  now _ := 0
  seconds _ := "0.0"

theorem chainTable_isChild {monitor runuser : String} {parent child : ℕ}
    (h : (chainTable monitor runuser).IsChild parent child) : parent < child := by
  obtain ⟨p, hget, rfl⟩ := h
  have hitem : (child, p) ∈ (chainTable monitor runuser).table.items :=
    OrderedDict.mem_items.mpr hget
  simp only [chainTable, chainProcs, tableOf, List.map_cons, List.map_nil, List.mem_cons,
    List.not_mem_nil, or_false, Prod.mk.injEq] at hitem
  rcases hitem with ⟨rfl, rfl⟩ | ⟨rfl, rfl⟩ | ⟨rfl, rfl⟩ | ⟨rfl, rfl⟩ <;> dsimp only <;> omega

/-- The stop of a wake whose processes are all alive sends SIGTERM to `runuser` alone, which is to
relay it, and SIGKILL to every one of them. -/
theorem stop_disciplined_chain : ∃ stopped,
    Stopper.new.stop (chainMachine "S" "S") [jtWake] "origin" 0 1 = some stopped ∧
      Disciplined (chainMachine "S" "S") [jtWake] stopped.stopper.sent ∧
      stopped.stopper.sent = [⟨1, 102, .term⟩, ⟨2, 100, .kill⟩, ⟨2, 101, .kill⟩, ⟨2, 102, .kill⟩,
        ⟨2, 103, .kill⟩] := by
  have hacyclic : ∀ n, ((chainMachine "S" "S").read n).Acyclic :=
    fun _ => Procs.acyclic_of_lt fun _ _ => chainTable_isChild
  obtain ⟨hdisciplined, -, -, hreturns⟩ :=
    stop_disciplined (chainMachine "S" "S") [jtWake] "origin" 0 hacyclic
  obtain ⟨stopped, hstop⟩ := hreturns 1 one_pos (le_of_eq (sub_zero 0).symm)
  have hsent : (Stopper.new.stop (chainMachine "S" "S") [jtWake] "origin" 0 1).map
      (fun stopped => stopped.stopper.sent) = some [⟨1, 102, .term⟩, ⟨2, 100, .kill⟩,
        ⟨2, 101, .kill⟩, ⟨2, 102, .kill⟩, ⟨2, 103, .kill⟩] := by
    decide +kernel
  rw [hstop] at hsent
  exact ⟨stopped, hstop, hdisciplined 1 stopped hstop, Option.some.inj hsent⟩

/-- A binary below a `runuser` on the root's path is signalled itself, as the monitor's and the
`runuser`'s states are. -/
def Unspared (monitor runuser : String) : Prop :=
  (∀ n, ((chainMachine monitor runuser).read n).Acyclic) ∧
    ReflTransGen (chainTable monitor runuser).IsChild jtWake.root.pid 102 ∧
    (chainTable monitor runuser).named 102 "runuser" = true ∧
    (chainTable monitor runuser).IsChild 102 103 ∧
    (chainTable monitor runuser).aliveAt 103 = true ∧
    ∃ stopped, Stopper.new.stop (chainMachine monitor runuser) [jtWake] "origin" 0 1 =
        some stopped ∧ ⟨1, 103, .term⟩ ∈ stopped.stopper.sent

theorem unspared_of_sent {monitor runuser : String}
    (hsent : (Stopper.new.stop (chainMachine monitor runuser) [jtWake] "origin" 0 1).any
      (fun stopped => ⟨1, 103, .term⟩ ∈ stopped.stopper.sent) = true) :
    Unspared monitor runuser := by
  have hpath : ReflTransGen (chainTable monitor runuser).IsChild jtWake.root.pid 102 :=
    .tail (.single ⟨_, rfl, rfl⟩) ⟨_, rfl, rfl⟩
  refine ⟨fun _ => Procs.acyclic_of_lt fun _ _ => chainTable_isChild, hpath, rfl, ⟨_, rfl, rfl⟩, ?_,
    ?_⟩
  · rfl
  · obtain ⟨stopped, hstopped, hmem⟩ := (Option.any_eq_true _ _).mp hsent
    exact ⟨stopped, hstopped, of_decide_eq_true hmem⟩

/-- **A binary whose `runuser` is cut off**, or has exited: it is signalled itself, on the path from
the root and a live child of that `runuser` as it is. -/
theorem not_spared : Unspared "Z" "S" ∧ Unspared "S" "Z" :=
  ⟨unspared_of_sent (by decide +kernel), unspared_of_sent (by decide +kernel)⟩

end Stopper

end BasecradleRouter.StopWake
