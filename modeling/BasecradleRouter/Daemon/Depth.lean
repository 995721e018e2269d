/-
# The queue depths in the evidence

A depth in the evidence is what a notification told it, so it lags behind the scheduler: by then
more may have been queued or finished.  What still has to be told, in order, stands in the agent's
outstanding notifications, and the last of it is the agent's true depth (`Reports.lag`).  So a
depth is true where none is outstanding, and when the scheduler is idle every depth is zero: a
daemon that was drained leaves no stale one behind (`depths_reported`).

Nothing else that is recorded touches a depth (`Told`), and an agent that was never woken keeps the
one that was loaded, which a store clears when it is constructed (`construct_cleared`).
-/
import BasecradleRouter.Daemon.Delivered
import BasecradleRouter.Evidence.Viewed

namespace BasecradleRouter

open Lib Models Routes Pipeline Evidence Server Scheduler

namespace Evidence.EvidenceStore

/-! ## 1. What is recorded beside it -/

/-- A record of a wake's outcome leaves every depth. -/
theorem depth_amend (s : EvidenceStore) (agent route : String) (f : Flush)
    {onWake : AgentWakeEvidence → AgentWakeEvidence}
    (onRow : RouteWakeEvidence → RouteWakeEvidence) (h : ∀ w, (onWake w).queued = w.queued)
    (key : String) : (s.amend agent route f onWake onRow).depth key = s.depth key := by
  by_cases hkey : key = agent
  · subst hkey
    simp [depth, amend, EvidenceDocument.wake, Finmap.lookup_insert, h]
  · simp [depth, amend, EvidenceDocument.wake, Finmap.lookup_insert_of_ne _ hkey]

/-- The depth that is reported, and only its own agent's. -/
theorem depth_recordQueueDepth (s : EvidenceStore) (agent : String) (pending : ℤ) (f : Flush)
    (key : String) : (s.recordQueueDepth agent pending f).depth key =
      if key = agent then pending else s.depth key := by
  by_cases hkey : key = agent
  · subst hkey
    rw [if_pos rfl]
    unfold recordQueueDepth
    dsimp only
    split
    · next hsame => simp [depth, EvidenceDocument.wake, Finmap.lookup_insert, ← hsame]
    · simp [depth, EvidenceDocument.wake, Finmap.lookup_insert]
  · rw [if_neg hkey]
    unfold recordQueueDepth
    dsimp only
    split <;> simp [depth, EvidenceDocument.wake, Finmap.lookup_insert_of_ne _ hkey]

/-- A record of a delivery leaves every depth. -/
theorem depth_amendSink (s : EvidenceStore) (route : String) (f : Flush)
    (onSink : DeliverySinkEvidence → DeliverySinkEvidence) (key : String) :
    (s.amendSink route f onSink).depth key = s.depth key := rfl

/-- An accept's calls leave every depth. -/
theorem depth_called (calls : List Timed) (s : EvidenceStore) (key : String) :
    (calls.foldl called s).depth key = s.depth key := by
  induction calls generalizing s with
  | nil => rfl
  | cons call calls ih =>
    have hcall : (called s call).depth key = s.depth key := by
      unfold called
      split
      · exact depth_amendSink _ _ _ _ key
      · exact depth_amendSink _ _ _ _ key
      · exact depth_amendSink _ _ _ _ key
      · rfl
    exact (ih _).trans hcall

/-- An execute leaves every depth. -/
theorem depth_recorded (agent : Agent) (event : Event) (f : Flush) (s : EvidenceStore) (x : Exit)
    (key : String) : (x.recorded agent event f s).depth key = s.depth key := by
  have hdeduped : (s.recordWakeDeduped agent.harnessKey event.source event.synthetic f).depth key =
      s.depth key := by
    unfold recordWakeDeduped
    refine depth_amend s _ _ f _ (fun _ => ?_) key
    rfl
  have hrefused : ∀ reason, (s.recordWakeRefused agent.harnessKey reason event.source
      event.synthetic f).depth key = s.depth key := by
    intro reason
    unfold recordWakeRefused
    refine depth_amend s _ _ f _ (fun _ => ?_) key
    rfl
  cases x with
  | dedup => exact hdeduped
  | coalesce into occurred => exact hdeduped
  | recheck gone => rfl
  | locked decision => exact hrefused _
  | limited outcome => exact hrefused _
  | stopped signal exitCode => rfl
  | exhausted error =>
    unfold Exit.recorded recordWakeFailed
    refine depth_amend s _ _ f _ (fun _ => ?_) key
    rfl
  | woke result =>
    unfold Exit.recorded recordWakeOk
    refine depth_amend s _ _ f _ (fun _ => ?_) key
    rfl
  | unexpected point exc =>
    cases point with
    | coalesce => exact hdeduped
    | _ => rfl

end Evidence.EvidenceStore

namespace Daemon

/-! ## 2. What the observer has been told -/

/-- Only the observer's turn is told. -/
theorem observed_step {S S' : System} {l : Label} (hs : S.step l = some S') :
    (∃ i raised key note, l = .observe i raised ∧ S.notes[i]? = some (key, note) ∧
      S'.observed = S.observed ++ [(key, note.payload)]) ∨
      (∀ i raised, l ≠ .observe i raised) ∧ S'.observed = S.observed := by
  rcases hpump : S.beforePump l with _ | ⟨key, M⟩
  · cases l with
    | submit job => cases hpump
    | complete i =>
      simp only [System.step, hpump] at hs
      cases hs
    | takeTurn i =>
      refine Or.inr ⟨fun _ _ h => Label.noConfusion h, ?_⟩
      simp only [System.step] at hs
      split at hs
      · split at hs <;> cases hs
        rfl
      · cases hs
    | observe i raised =>
      simp only [System.step] at hs
      split at hs
      · next key note hnote =>
        split at hs <;> cases hs
        exact Or.inl ⟨i, raised, key, note, rfl, hnote, rfl⟩
      · cases hs
    | settle i =>
      refine Or.inr ⟨fun _ _ h => Label.noConfusion h, ?_⟩
      simp only [System.step] at hs
      split at hs
      · split at hs <;> cases hs
        rfl
      · cases hs
  · right
    rw [System.step_of_beforePump hpump] at hs
    obtain ⟨pumped, -, rfl⟩ := Option.map_eq_some_iff.mp hs
    refine ⟨?_, (System.beforePump_notify hpump).2.2.2.2.2⟩
    rintro i raised rfl
    cases hpump

/-! ## 3. The invariant -/

variable {core : Core Objects} {p : Pipeline} {stem : String} {D D' : Daemon}
  {loaded : EvidenceStore}

/-- A depth in the evidence. -/
def depth (D : Daemon) (key : String) : ℤ := D.world.evidence.depth key

/-- Every depth is the last one that was told, or the one that was loaded. -/
def Told (loaded : EvidenceStore) (D : Daemon) : Prop :=
  ∀ key, D.depth key = ((D.system.observedFor key).getLast?.map Nat.cast).getD (loaded.depth key)

/-- A step that tells nothing keeps it. -/
theorem Told.keep (h : Told loaded D) (hdepth : ∀ key, D'.depth key = D.depth key)
    (hobserved : D'.system.observed = D.system.observed) : Told loaded D' := by
  intro key
  rw [hdepth, h key]
  unfold System.observedFor
  rw [hobserved]

/-- The job's execute leaves every depth. -/
theorem depth_ran (key : String) (job : Job) (readings : Readings) (k : String) :
    (D.ran core p key job readings).depth k = D.depth k := by
  unfold depth ran
  dsimp only
  rw [step_evidence]
  exact EvidenceStore.depth_recorded _ _ _ _ _ k

/-- **The step lemma.** -/
theorem Told.step (h : Told loaded D) {act : Act} (hs : D.step core p stem act = some D') :
    Told loaded D' := by
  -- a step of the scheduler that is not the observer's, and the evidence as it was
  have hquiet : ∀ {l : Label} {S' : System}, (∀ i raised, l ≠ .observe i raised) →
      D.system.step l = some S' → S'.observed = D.system.observed := by
    intro l S' hl hs
    rcases observed_step hs with ⟨i, raised, -, -, rfl, -⟩ | ⟨-, hsame⟩
    · exact absurd rfl (hl i raised)
    · exact hsame
  cases act with
  | request scope received f =>
    obtain ⟨served, -, hs⟩ := Option.bind_eq_some_iff.mp hs
    have hexchange : ∀ key, (D.exchange served).depth key = D.depth key :=
      EvidenceStore.depth_called served.calls D.world.evidence
    unfold spawn at hs
    split at hs
    · cases hs
      exact h.keep hexchange rfl
    · obtain ⟨S', hS', rfl⟩ := Option.map_eq_some_iff.mp hs
      exact h.keep hexchange (hquiet (l := .submit _) (fun _ _ h => Label.noConfusion h) hS')
  | execute i readings =>
    obtain ⟨⟨key, job⟩, -, hs⟩ := Option.bind_eq_some_iff.mp hs
    dsimp only at hs
    split at hs <;> cases hs
    exact h.keep (depth_ran key job readings) rfl
  | finish i =>
    obtain ⟨⟨key, job⟩, -, hs⟩ := Option.bind_eq_some_iff.mp hs
    dsimp only at hs
    split at hs
    · obtain ⟨S', hS', rfl⟩ := Option.map_eq_some_iff.mp hs
      exact h.keep (fun _ => rfl) (hquiet (l := .complete i) (fun _ _ h => Label.noConfusion h) hS')
    · cases hs
  | takeTurn i =>
    obtain ⟨S', hS', rfl⟩ := Option.map_eq_some_iff.mp hs
    exact h.keep (fun _ => rfl) (hquiet (l := .takeTurn i) (fun _ _ h => Label.noConfusion h) hS')
  | observe i f =>
    obtain ⟨⟨key, note⟩, hnote, hs⟩ := Option.bind_eq_some_iff.mp hs
    obtain ⟨S', hS', rfl⟩ := Option.map_eq_some_iff.mp hs
    rcases observed_step hS' with ⟨_, _, key', note', heq, hnote', hobserved⟩ | ⟨hne, -⟩
    · cases heq
      cases hnote.symm.trans hnote'
      intro k
      have hdepth := EvidenceStore.depth_recordQueueDepth D.world.evidence key note.payload f k
      refine hdepth.trans ?_
      unfold System.observedFor
      dsimp only
      rw [hobserved, List.filter_append, List.map_append]
      by_cases hk : k = key
      · subst hk
        simp
      · have hnone : [(key, note.payload)].filter (·.1 = k) = [] := by simp [Ne.symm hk]
        rw [if_neg hk, hnone, List.map_nil, List.append_nil]
        exact h k
    · exact absurd rfl (hne i _)
  | settle i =>
    obtain ⟨S', hS', rfl⟩ := Option.map_eq_some_iff.mp hs
    exact h.keep (fun _ => rfl) (hquiet (l := .settle i) (fun _ _ h => Label.noConfusion h) hS')

/-- A step of the daemon leaves the scheduler, or is a step of it. -/
theorem system_step {act : Act} (hs : D.step core p stem act = some D') :
    D'.system = D.system ∨ ∃ l, D.system.step l = some D'.system := by
  cases act with
  | request scope received f =>
    obtain ⟨served, -, hs⟩ := Option.bind_eq_some_iff.mp hs
    unfold spawn at hs
    split at hs
    · cases hs
      exact Or.inl rfl
    · obtain ⟨S', hS', rfl⟩ := Option.map_eq_some_iff.mp hs
      exact Or.inr ⟨_, hS'⟩
  | execute i readings =>
    obtain ⟨⟨key, job⟩, -, hs⟩ := Option.bind_eq_some_iff.mp hs
    dsimp only at hs
    split at hs <;> cases hs
    exact Or.inl rfl
  | finish i =>
    obtain ⟨⟨key, job⟩, -, hs⟩ := Option.bind_eq_some_iff.mp hs
    dsimp only at hs
    split at hs
    · obtain ⟨S', hS', rfl⟩ := Option.map_eq_some_iff.mp hs
      exact Or.inr ⟨_, hS'⟩
    · cases hs
  | takeTurn i =>
    obtain ⟨S', hS', rfl⟩ := Option.map_eq_some_iff.mp hs
    exact Or.inr ⟨_, hS'⟩
  | observe i f =>
    obtain ⟨⟨key, note⟩, -, hs⟩ := Option.bind_eq_some_iff.mp hs
    obtain ⟨S', hS', rfl⟩ := Option.map_eq_some_iff.mp hs
    exact Or.inr ⟨_, hS'⟩
  | settle i =>
    obtain ⟨S', hS', rfl⟩ := Option.map_eq_some_iff.mp hs
    exact Or.inr ⟨_, hS'⟩

/-- The counts that were read are counted still. -/
theorem counted_step (h : D.Kept) (hcounted : D.system.Counted) {act : Act}
    (hs : D.step core p stem act = some D') : D'.system.Counted := by
  rcases system_step hs with hsame | ⟨l, hl⟩
  · rw [hsame]
    exact hcounted
  · exact hcounted.step h.settled.sound hl

theorem start_counted (lanes : ℕ) (h : 1 ≤ lanes) : (System.start lanes h).Counted :=
  (System.notify_of_run (.nil (System.start lanes h))).1

/-! ## 4. The guarantee -/

/-- What is promised of an agent's depth. -/
structure Reports (D : Daemon) (key : String) : Prop where
  /-- it is what the observer was told last, and nothing else that is recorded moves it -/
  told : D.depth key = ((D.system.observedFor key).getLast?.map Nat.cast).getD 0
  /-- the last depth that is still to be told, or the one in the evidence where none is, is true -/
  lag : ((TicketLine.undelivered (D.system.notesFor key)).getLast?.map Nat.cast).getD
    (D.depth key) = D.system.sched.pending key
  /-- when the scheduler is idle it is zero -/
  idle : D.system.sched.idle = true → D.depth key = 0

/-- From an evidence that holds no depth. -/
theorem reports_of_cleared {objects : Objects} {evidence : EvidenceStore}
    (hcleared : evidence.Cleared) {ttl : PyFloat} {capacity lanes : ℕ}
    {config : Breaker.BreakerConfig} {ht : ttl.lt (.fin 0) = false} {hc : 1 ≤ capacity}
    {hl : 1 ≤ lanes} {acts : List Act}
    (hrun : Steps (step core p stem) (start objects evidence ttl capacity lanes config ht hc hl)
      acts D) (key : String) : D.Reports key := by
  have hstart : (start objects evidence ttl capacity lanes config ht hc hl).Kept :=
    start_kept objects evidence ttl capacity lanes config ht hc hl
  obtain ⟨hkept, hcounted⟩ := hrun.invariant (I := fun D => D.Kept ∧ D.system.Counted)
    (fun _ _ _ hD hs => ⟨hD.1.step hs, counted_step hD.1 hD.2 hs⟩) ⟨hstart, start_counted lanes hl⟩
  have htold : D.depth key = ((D.system.observedFor key).getLast?.map Nat.cast).getD 0 := by
    have hall : Told evidence D :=
      hrun.invariant (I := Told evidence) (fun _ _ _ hD hs => hD.step hs) fun _ => rfl
    rw [hall key, hcleared key]
  have hlag : ((TicketLine.undelivered (D.system.notesFor key)).getLast?.map Nat.cast).getD
      (D.depth key) = (D.system.sched.pending key : ℤ) := by
    have hhistory : D.system.claimedFor key =
        D.system.observedFor key ++ TicketLine.undelivered (D.system.notesFor key) :=
      (hkept.settled.ordered key).history
    have hread := hcounted.last_read key
    rw [hhistory, List.getLast?_append] at hread
    rw [htold, ← hread]
    cases (TicketLine.undelivered (D.system.notesFor key)).getLast? with
    | some n => rfl
    | none => cases (D.system.observedFor key).getLast? <;> rfl
  refine ⟨htold, hlag, fun hidle => ?_⟩
  obtain ⟨hrunning, hqueue, hnotes⟩ := hkept.idle hidle
  have hnone : D.system.notesFor key = [] := by
    unfold System.notesFor
    rw [hnotes]
    rfl
  have hpending : D.system.sched.pending key = 0 := by
    unfold WakeScheduler.pending
    rw [hqueue key, hkept.settled.sound.inflight_eq_empty hrunning]
    rfl
  rw [hnone, hpending] at hlag
  exact hlag

end Daemon

end BasecradleRouter
