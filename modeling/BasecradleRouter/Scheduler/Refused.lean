/-
# When the pool refuses a job

`executor.submit` can raise inside `_pump_locked`: after a shutdown, before it has taken the work,
or where a thread cannot be started, after it has put the work into its queue.  By then the job has
left its agent's queue and the agent is in flight, and nothing takes either back.

So the scheduler stays usable exactly if the pool has kept the job and a thread is there to run it
(`usable_iff`).  In any other case the agent is in flight with nothing running.
-/
import BasecradleRouter.Scheduler.Notify
import Mathlib.Algebra.Order.BigOperators.Group.Finset

namespace BasecradleRouter.Scheduler

open BasecradleRouter.Lib

/-- How `executor.submit` leaves things when it raises: whether the work is in the pool's queue, and
whether a thread is alive that takes it from there. -/
structure Refusal where
  kept : Bool
  worker : Bool
  deriving DecidableEq, Repr

/-- The job runs although the call raised. -/
def Refusal.held (r : Refusal) : Bool := r.kept && r.worker

/-- `_pump_locked`'s loop where the call after `n` others raises: the jobs handed over before it,
the one it was called with, and the state it leaves. -/
def WakeScheduler.pumpRaises : ℕ → WakeScheduler → List String →
    Option (List (String × Job) × (String × Job) × WakeScheduler)
  | _, _, [] => none
  | n, s, key :: ready =>
    if s.inflight.card < s.lanes then
      match s.dispatch key ready with
      | none => none
      | some (job, s') =>
        match n with
        | 0 => some ([], (key, job), s')
        | n + 1 => (pumpRaises n s' ready).map fun (jobs, refused, s'') =>
            ((key, job) :: jobs, refused, s'')
    else
      none

/-- What a critical section leaves that raised: the job the pool was called with, and the system. -/
structure Raised where
  key : String
  job : Job
  system : System

namespace System

/-- A critical section in which the call of `executor.submit` after `n` others raises: neither the
saturation is noted nor a notification claimed, and nobody is woken. -/
def raises (S : System) (l : Label) (n : ℕ) (r : Refusal) : Option Raised :=
  (S.beforePump l).bind fun (_, M) =>
    (M.sched.pumpRaises n M.sched.ready).map fun (jobs, (key, job), sched) =>
      let handed := jobs ++ if r.held then [(key, job)] else []
      ⟨key, job, { M with
        sched := sched
        running := M.running ++ handed
        started := M.started ++ handed }⟩

/-- A step of a thread, or a critical section that raises. -/
inductive Event
  | step (l : Label)
  | raises (l : Label) (n : ℕ) (r : Refusal)

/-- The pool runs the jobs of the calls that raise. -/
def Event.held : Event → Bool
  | .step _ => true
  | .raises _ _ r => r.held

def next (S : System) : Event → Option System
  | .step l => S.step l
  | .raises l n r => (S.raises l n r).map Raised.system

/-- A step of a running job or of a notification, not a new submission. -/
def Label.finishes : Label → Bool
  | .submit _ => false
  | _ => true

/-- Whatever has finished already, the rest can, and then a drain is over. -/
def Drains (S : System) : Prop :=
  ∀ ls T, (∀ l ∈ ls, Label.finishes l = true) → Steps step S ls T →
    ∃ ls' U, (∀ l ∈ ls', Label.finishes l = true) ∧ Steps step T ls' U ∧ U.sched.idle = true

/-- The scheduler is usable after a section that raised. -/
structure Usable (l : Label) (r : Refusal) (R : Raised) : Prop where
  /-- the agent is not in flight without a job that runs -/
  running : R.key ∈ R.system.sched.inflight → ∃ job, (R.key, job) ∈ R.system.running
  /-- the job is queued, or the pool has it, or its own submission has raised -/
  not_lost : R.job ∈ R.system.sched.queue R.key ∨ r.kept = true ∨ l = .submit R.job
  mirror : ∀ k, k ∈ R.system.sched.readySet ↔ k ∈ R.system.sched.ready
  not_forgotten : ∀ k, R.system.sched.queue k ≠ [] →
    k ∈ R.system.sched.ready ∨ k ∈ R.system.sched.inflight
  drains : R.system.Drains

end System

/-! ## 1. A pump that raises -/

open WakeScheduler in
/-- **It has handed over** the jobs before the one it was called with, and taken that one's lane. -/
theorem WakeScheduler.pumpRaises_spec : ∀ {n : ℕ} {ready : List String} {s s' : WakeScheduler}
    {jobs : List (String × Job)} {refused : String × Job}, s.Coherent → s.ready = ready →
      s.pumpRaises n ready = some (jobs, refused, s') →
        s'.Coherent ∧ s.Pumped (jobs ++ [refused]) s'
  | _, [], _, _, _, _, _, _, h => by
    unfold pumpRaises at h
    cases h
  | n, key :: ready, s, s', jobs, refused, hs, hready, h => by
    unfold pumpRaises at h
    split at h
    · next hfree =>
      obtain ⟨job, rest, hget, hqueue⟩ := hs.head hready
      have hrun : key ∉ s.inflight := hs.ready_free key (by simp [hready])
      have hd : s.dispatch key ready = some (job, s.takeLane key ready rest) := by
        simp [dispatch, hget]
      have hcoherent := takeLane_coherent hs hready hfree rest
      have hpumped := takeLane_pumped hready hqueue hrun
      rw [hd] at h
      cases n with
      | zero =>
        cases h
        exact ⟨hcoherent, hpumped⟩
      | succ n =>
        obtain ⟨⟨jobs', refused', s''⟩, hrest, heq⟩ := Option.map_eq_some_iff.mp h
        cases heq
        obtain ⟨hcoherent', hpumped'⟩ := pumpRaises_spec hcoherent rfl hrest
        exact ⟨hcoherent', hpumped.cons hpumped'⟩
    · cases h

namespace System

variable {S T : System} {l : Label} {n : ℕ} {r : Refusal} {R : Raised}

/-- What a section that raised has done. -/
theorem raises_cases (h : S.Sound) (hraises : S.raises l n r = some R) :
    ∃ key M jobs sched, S.beforePump l = some (key, M) ∧ M.Sound ∧ sched.Coherent ∧
      M.sched.Pumped (jobs ++ [(R.key, R.job)]) sched ∧
      R.system = { M with
        sched := sched
        running := M.running ++ (jobs ++ if r.held then [(R.key, R.job)] else [])
        started := M.started ++ (jobs ++ if r.held then [(R.key, R.job)] else []) } := by
  unfold raises at hraises
  obtain ⟨⟨key, M⟩, hM, hrest⟩ := Option.bind_eq_some_iff.mp hraises
  obtain ⟨⟨jobs, ⟨key', job⟩, sched⟩, hpump, rfl⟩ := Option.map_eq_some_iff.mp hrest
  have hsound := h.beforePump hM
  obtain ⟨hcoherent, hpumped⟩ := WakeScheduler.pumpRaises_spec hsound.coherent rfl hpump
  exact ⟨key, M, jobs, sched, hM, hsound, hcoherent, hpumped, rfl⟩

/-! ## 2. What a run keeps -/

/-- What holds as long as the pool runs what it is given. -/
structure Settled (S : System) : Prop where
  sound : S.Sound
  lively : S.running ≠ [] ∨ S.sched.ready = []
  notifying : S.sched.notifying = S.notes.length
  ordered : ∀ k, (S.lineFor k).Ordered

theorem start_settled (lanes : ℕ) (h : 1 ≤ lanes) : (start lanes h).Settled where
  sound := start_sound lanes h
  lively := Or.inr rfl
  notifying := rfl
  ordered _ := TicketLine.ordered_empty

/-- Where nothing runs nothing is in flight. -/
theorem Sound.inflight_eq_empty (h : S.Sound) (hnone : S.running = []) :
    S.sched.inflight = ∅ := by
  refine Finset.eq_empty_of_forall_notMem fun k hk => ?_
  rw [← h.running_inflight, hnone] at hk
  cases hk

/-- After a pump that did not raise, somebody runs or nobody waits. -/
theorem lively_of_busy (h : S.Sound) (hbusy : S.sched.Busy) :
    S.running ≠ [] ∨ S.sched.ready = [] := by
  refine hbusy.imp_left ?_
  rintro hcard hnone
  have hlanes := S.sched.lanes_pos
  rw [h.inflight_eq_empty hnone, Finset.card_empty] at hcard
  omega

theorem Settled.step (h : S.Settled) (hs : S.step l = some T) : T.Settled where
  sound := h.sound.next hs
  lively := by
    rcases step_cases hs with ⟨key, M, hM, hpc⟩ | ⟨i, key, t, -, hcase⟩
    · obtain ⟨jobs, s', hpc', -, hb, -⟩ := pumpAndClaim_spec (h.sound.beforePump hM).coherent key
      obtain rfl : M.claim key jobs s' = T := Option.some.inj (hpc'.symm.trans hpc)
      exact lively_of_busy (h.sound.next hs) hb
    · rcases hcase with ⟨-, -, rfl⟩ | ⟨-, rfl⟩ | ⟨-, rfl⟩
      · exact h.lively
      · exact h.lively
      · obtain ⟨-, -, hr, -, -⟩ := S.sched.settleNotification_frame key t.number
        exact h.lively.imp_right hr.trans
  notifying := notifying_step h.notifying h.sound hs
  ordered k := (h.ordered k).moves (step_line h.sound hs k)

/-- **A section that raised**, where the pool runs the job. -/
theorem Settled.raises (h : S.Settled) (hraises : S.raises l n r = some R)
    (hheld : r.held = true) : R.system.Settled := by
  obtain ⟨key, M, jobs, sched, hM, hsound, hcoherent, hpumped, hsystem⟩ :=
    raises_cases h.sound hraises
  obtain ⟨hseq, hturn, hnotifying, hnotes, hclaimed, hobserved⟩ := beforePump_notify hM
  rw [if_pos hheld] at hsystem
  rw [hsystem]
  refine ⟨hsound.hand hcoherent hpumped, Or.inl (by simp), ?_, fun k => ?_⟩
  · exact (hpumped.notifying.trans hnotifying).trans (hnotes ▸ h.notifying)
  · have hline := h.ordered k
    unfold lineFor notesFor claimedFor observedFor at hline ⊢
    dsimp only
    rwa [hpumped.notifySeq, hpumped.notifyTurn, hseq, hturn, hnotes, hclaimed, hobserved]

theorem Settled.next {e : Event} (h : S.Settled) (hheld : e.held = true)
    (hs : S.next e = some T) : T.Settled := by
  cases e with
  | step l => exact h.step hs
  | raises l n r =>
    obtain ⟨R, hraises, rfl⟩ := Option.map_eq_some_iff.mp hs
    exact h.raises hraises hheld

/-- The run lemma. -/
theorem settled_of_run {lanes : ℕ} {hl : 1 ≤ lanes} {events : List Event}
    (hheld : ∀ e ∈ events, e.held = true) (h : Steps next (start lanes hl) events S) :
    S.Settled := by
  have hrun : ∀ {S T : System} {events : List Event}, Steps next S events T →
      (∀ e ∈ events, e.held = true) → S.Settled → T.Settled := by
    intro S T events h
    induction h with
    | nil => exact fun _ hS => hS
    | cons hs _ ih =>
      intro hheld hS
      exact ih (fun e he => hheld e (List.mem_cons_of_mem _ he))
        (hS.next (hheld _ List.mem_cons_self) hs)
  exact hrun h hheld (start_settled lanes hl)

/-! ## 3. Draining -/

/-- How much is queued for the agents that were submitted for. -/
def waiting (S : System) : ℕ :=
  ∑ k ∈ (S.submitted.map Job.key).toFinset, (S.sched.queue k).length

/-- An agent with queued work was submitted for. -/
theorem submitted_of_queue (h : S.Sound) {k : String} (hqueue : S.sched.queue k ≠ []) :
    k ∈ (S.submitted.map Job.key).toFinset := by
  obtain ⟨job, hjob⟩ := List.exists_mem_of_ne_nil _ hqueue
  have hmem : job ∈ S.submittedFor k := by
    rw [h.history k]
    exact List.mem_append_right _ hjob
  obtain ⟨hsubmitted, hkey⟩ := List.mem_filter.mp hmem
  rw [List.mem_toFinset, List.mem_map]
  exact ⟨job, hsubmitted, by simpa using hkey⟩

/-- **A running job finishes**: less is queued than before, or as much with less running. -/
theorem complete_step (h : S.Sound) (hne : S.running ≠ []) :
    ∃ T, S.step (.complete 0) = some T ∧ (T.waiting < S.waiting ∨
      T.waiting = S.waiting ∧ T.running.length < S.running.length) := by
  obtain ⟨⟨key, job⟩, rest, hrunning⟩ := List.exists_cons_of_ne_nil hne
  let M : System := { S with sched := S.sched.release key, running := S.running.eraseIdx 0 }
  have hM : S.beforePump (.complete 0) = some (key, M) := by
    have hfirst : S.running[0]? = some (key, job) := by
      rw [hrunning]
      rfl
    unfold beforePump
    dsimp only
    rw [hfirst]
    rfl
  obtain ⟨jobs, s', hpc, -, -, hp⟩ := pumpAndClaim_spec (h.beforePump hM).coherent key
  refine ⟨M.claim key jobs s', (step_of_beforePump hM).trans hpc, ?_⟩
  have hqueue : ∀ k, S.sched.queue k = (jobs.filter (·.1 = k)).map Prod.snd ++ s'.queue k := by
    intro k
    rw [← hp.queue k]
    exact (WakeScheduler.release_queue S.sched key k).symm
  cases jobs with
  | nil =>
    refine Or.inr ⟨Finset.sum_congr rfl fun k _ => ?_, ?_⟩
    · rw [hqueue k]
      rfl
    · show ((S.running.eraseIdx 0) ++ []).length < S.running.length
      rw [hrunning]
      simp
  | cons first jobs =>
    refine Or.inl (Finset.sum_lt_sum (fun k _ => ?_) ⟨first.1, ?_, ?_⟩)
    · rw [hqueue k, List.length_append]
      exact Nat.le_add_left _ _
    · refine submitted_of_queue h ?_
      rw [hqueue]
      simp
    · rw [hqueue first.1]
      show (s'.queue first.1).length < _
      simp only [List.filter_cons_of_pos, decide_true, List.map_cons, List.cons_append,
        List.length_cons, List.length_append]
      omega

/-- The running jobs finish, and those that wait behind them. -/
theorem jobs_finish (S : System) (h : S.Settled) : ∃ ls T, (∀ l ∈ ls, Label.finishes l = true) ∧
    Steps step S ls T ∧ T.Settled ∧ T.running = [] := by
  by_cases hne : S.running = []
  · exact ⟨[], S, fun _ hl => absurd hl List.not_mem_nil, .nil S, h, hne⟩
  · obtain ⟨S', hs, hless⟩ := complete_step h.sound hne
    obtain ⟨ls, T, hls, hrun, hT, hdone⟩ := jobs_finish S' (h.step hs)
    refine ⟨.complete 0 :: ls, T, fun l hl => ?_, .cons hs hrun, hT, hdone⟩
    rcases List.mem_cons.mp hl with rfl | hl
    · rfl
    · exact hls l hl
termination_by (S.waiting, S.running.length)
decreasing_by
  rcases hless with hlt | ⟨heq, hlt⟩
  · exact Prod.Lex.left _ _ hlt
  · rw [heq]
    exact Prod.Lex.right _ hlt

/-- How far a notification is from being settled. -/
def toSettle : Phase → ℕ
  | .waiting => 3
  | .called => 2
  | .told => 1

def unsettledIn : List (String × Ticket ℕ) → ℕ
  | [] => 0
  | (_, t) :: notes => toSettle t.phase + unsettledIn notes

theorem unsettledIn_append (before after : List (String × Ticket ℕ)) :
    unsettledIn (before ++ after) = unsettledIn before + unsettledIn after := by
  induction before with
  | nil => exact (Nat.zero_add _).symm
  | cons note before ih => rw [List.cons_append, unsettledIn, unsettledIn, ih, Nat.add_assoc]

def unsettled (S : System) : ℕ := unsettledIn S.notes

/-- A notification moves on, and nothing else runs or stops. -/
theorem note_step (hs : S.step l = some T) (hl : S.beforePump l = none) :
    T.unsettled < S.unsettled ∧ T.running = S.running := by
  rcases step_cases hs with ⟨key, M, hM, -⟩ | ⟨i, key, t, hi, hcase⟩
  · rw [hl] at hM
    cases hM
  · obtain ⟨hsplit, hset, herase⟩ := split_at hi
    have hsum : S.unsettled = unsettledIn (S.notes.take i) +
        (toSettle t.phase + unsettledIn (S.notes.drop (i + 1))) := by
      unfold unsettled
      nth_rewrite 1 [hsplit]
      rw [unsettledIn_append, unsettledIn]
    rw [hsum]
    rcases hcase with ⟨hphase, -, rfl⟩ | ⟨hphase, rfl⟩ | ⟨hphase, rfl⟩
    · refine ⟨?_, rfl⟩
      unfold unsettled
      rw [hset, unsettledIn_append, unsettledIn, hphase]
      simp only [toSettle]
      omega
    · refine ⟨?_, rfl⟩
      unfold unsettled
      rw [hset, unsettledIn_append, unsettledIn, hphase]
      simp only [toSettle]
      omega
    · refine ⟨?_, rfl⟩
      unfold unsettled
      rw [herase, unsettledIn_append, hphase]
      simp only [toSettle]
      omega

/-- Some outstanding notification can move. -/
theorem exists_note_step (h : S.Settled) (hne : S.notes ≠ []) :
    ∃ l T, Label.finishes l = true ∧ S.beforePump l = none ∧ S.step l = some T := by
  obtain ⟨⟨k, t⟩, hmem⟩ := List.exists_mem_of_ne_nil _ hne
  have hline : S.notesFor k ≠ [] :=
    List.ne_nil_of_mem (List.mem_map.mpr ⟨(k, t), List.mem_filter.mpr ⟨hmem, by simp⟩, rfl⟩)
  obtain ⟨head, rest, hhead, hserving, -⟩ := (h.ordered k).one_turn hline
  have hturn : S.sched.isTurn k head.number = true := by
    rw [isTurn_eq]
    exact beq_iff_eq.mpr hserving.symm
  obtain ⟨i, -, T, -, hstep⟩ := head_moves hhead hturn
  rcases hstep with hstep | hstep | hstep
  · exact ⟨.takeTurn i, T, rfl, rfl, hstep⟩
  · exact ⟨.observe i false, T, rfl, rfl, hstep false⟩
  · exact ⟨.settle i, T, rfl, rfl, hstep⟩

/-- The notifications are settled. -/
theorem notes_settle (S : System) (h : S.Settled) : ∃ ls T,
    (∀ l ∈ ls, Label.finishes l = true) ∧ Steps step S ls T ∧ T.Settled ∧
      T.running = S.running ∧ T.notes = [] := by
  by_cases hne : S.notes = []
  · exact ⟨[], S, fun _ hl => absurd hl List.not_mem_nil, .nil S, h, rfl, hne⟩
  · obtain ⟨l, S', hfinishes, hl, hs⟩ := exists_note_step h hne
    obtain ⟨hless, hsame⟩ := note_step hs hl
    obtain ⟨ls, T, hls, hrun, hT, hrunning, hdone⟩ := notes_settle S' (h.step hs)
    refine ⟨l :: ls, T, fun l' hl' => ?_, .cons hs hrun, hT, hrunning.trans hsame, hdone⟩
    rcases List.mem_cons.mp hl' with rfl | hl'
    · exact hfinishes
    · exact hls l' hl'
termination_by S.unsettled

/-- Nothing runs and nothing is to be told: the scheduler is idle. -/
theorem Settled.idle (h : S.Settled) (hrunning : S.running = []) (hnotes : S.notes = []) :
    S.sched.idle = true := by
  have hready : S.sched.ready = [] := h.lively.resolve_left fun hne => hne hrunning
  have hnotifying : S.sched.notifying = 0 := by rw [h.notifying, hnotes, List.length_nil]
  unfold WakeScheduler.idle
  rw [h.sound.inflight_eq_empty hrunning, hready, hnotifying]
  rfl

/-- **A drain can complete**, whatever has finished already. -/
theorem Settled.drains (h : S.Settled) : S.Drains := by
  intro ls T _ hrun
  have hT : T.Settled := hrun.invariant (I := Settled) (fun _ _ _ hS hs => hS.step hs) h
  obtain ⟨ls₁, T₁, hls₁, hrun₁, hT₁, hnone⟩ := jobs_finish T hT
  obtain ⟨ls₂, T₂, hls₂, hrun₂, hT₂, hsame, hnotes⟩ := notes_settle T₁ hT₁
  refine ⟨ls₁ ++ ls₂, T₂, fun l hl => ?_, hrun₁.trans hrun₂, hT₂.idle (hsame.trans hnone) hnotes⟩
  rcases List.mem_append.mp hl with hl | hl
  · exact hls₁ l hl
  · exact hls₂ l hl

/-! ## 4. Usable or not -/

/-- An agent whose job the pool does not run is in flight with nothing running. -/
theorem stranded (h : S.Sound) (hraises : S.raises l n r = some R) (hlost : r.held = false) :
    R.key ∈ R.system.sched.inflight ∧ ∀ job, (R.key, job) ∉ R.system.running := by
  obtain ⟨key, M, jobs, sched, -, hsound, -, hpumped, hsystem⟩ := raises_cases h hraises
  rw [if_neg (by simp [hlost]), List.append_nil] at hsystem
  rw [hsystem]
  have hmem : R.key ∈ (jobs ++ [(R.key, R.job)]).map Prod.fst := by simp
  refine ⟨?_, fun job hjob => ?_⟩
  · dsimp only
    rw [hpumped.inflight]
    exact Finset.mem_union_right _ (List.mem_toFinset.mpr hmem)
  · have hkey : R.key ∈ (M.running ++ jobs).map Prod.fst := List.mem_map.mpr ⟨_, hjob, rfl⟩
    rw [List.map_append] at hkey
    rcases List.mem_append.mp hkey with hkey | hkey
    · exact hpumped.keys_free hsound.coherent _ hmem ((hsound.running_inflight _).mp hkey)
    · have hnodup := hpumped.keys_nodup hsound.coherent
      rw [List.map_append] at hnodup
      exact (List.nodup_append.mp hnodup).2.2 _ hkey _ (by simp) rfl

theorem Settled.usable (h : S.Settled) (hraises : S.raises l n r = some R)
    (hheld : r.held = true) : Usable l r R := by
  have hsettled := h.raises hraises hheld
  obtain ⟨key, M, jobs, sched, -, -, -, -, hsystem⟩ := raises_cases h.sound hraises
  refine ⟨fun _ => ⟨R.job, ?_⟩, Or.inr (Or.inl ?_), hsettled.sound.coherent.mirror,
    hsettled.sound.coherent.queued_scheduled, hsettled.drains⟩
  · rw [hsystem, if_pos hheld]
    simp
  · unfold Refusal.held at hheld
    exact (Bool.and_eq_true _ _ ▸ hheld).1

/-- **A scheduler whose pool has raised is usable** exactly if the pool has kept the job and a
thread is alive to run it, in every state that is reached while the pool does so. -/
theorem usable_iff {lanes : ℕ} {hl : 1 ≤ lanes} {events : List Event} {S : System}
    (h : Steps next (start lanes hl) events S) (hheld : ∀ e ∈ events, e.held = true) {l : Label}
    {n : ℕ} {r : Refusal} {R : Raised} (hraises : S.raises l n r = some R) :
    Usable l r R ↔ r.held = true := by
  have hsettled := settled_of_run hheld h
  refine ⟨fun husable => ?_, hsettled.usable hraises⟩
  by_contra hlost
  obtain ⟨hinflight, hnobody⟩ := stranded hsettled.sound hraises (eq_false_of_ne_true hlost)
  obtain ⟨job, hjob⟩ := husable.running hinflight
  exact hnobody job hjob

/-- Alice's job runs, and a second thread cannot be started for Bob's: Alice's thread takes it. -/
theorem usable_iff_bob : ∃ S R, Steps next (start 2 (Nat.le_succ 1)) [.step (.submit .alice)] S ∧
    S.raises (.submit .bob) 0 ⟨true, true⟩ = some R ∧ Usable (.submit .bob) ⟨true, true⟩ R := by
  obtain ⟨S, hrun, hraises⟩ := Option.map_eq_some_iff.mp
    (by decide : (Steps.run next (start 2 (Nat.le_succ 1)) [.step (.submit .alice)]).map
      (fun S => (S.raises (.submit .bob) 0 ⟨true, true⟩).isSome) = some true)
  obtain ⟨R, hR⟩ := Option.isSome_iff_exists.mp hraises
  refine ⟨S, R, .of_run hrun, hR, (usable_iff (.of_run hrun) ?_ hR).mpr rfl⟩
  intro e he
  rw [List.mem_singleton.mp he]
  rfl

/-- **The first thread cannot be started**: Alice is in flight, her job runs nowhere, and no drain
completes. -/
theorem not_usable_alice : ∃ R,
    (start 2 (Nat.le_succ 1)).raises (.submit .alice) 0 ⟨true, false⟩ = some R ∧
      "alice" ∈ R.system.sched.inflight ∧ R.system.running = [] ∧ ¬ R.system.Drains ∧
      ¬ Usable (.submit .alice) ⟨true, false⟩ R := by
  obtain ⟨R, hR, hfacts⟩ := Option.map_eq_some_iff.mp
    (by decide : ((start 2 (Nat.le_succ 1)).raises (.submit .alice) 0 ⟨true, false⟩).map (fun R =>
      (R.key, decide ("alice" ∈ R.system.sched.inflight), R.system.running.isEmpty,
        R.system.notes.isEmpty, R.system.sched.idle)) = some ("alice", true, true, true, false))
  simp only [Prod.mk.injEq, decide_eq_true_eq, List.isEmpty_iff] at hfacts
  obtain ⟨hkey, hinflight, hrunning, hnotes, hidle⟩ := hfacts
  refine ⟨R, hR, hinflight, hrunning, fun hdrains => ?_, fun husable => ?_⟩
  · obtain ⟨ls, U, hls, hrun, hU⟩ :=
      hdrains [] R.system (fun _ hl => absurd hl List.not_mem_nil) (.nil _)
    cases hrun with
    | nil =>
      rw [hidle] at hU
      cases hU
    | @cons _ _ _ l _ hs _ =>
      have hfinishes := hls l List.mem_cons_self
      cases l with
      | submit job => cases hfinishes
      | complete i => simp [step, beforePump, hrunning] at hs
      | takeTurn i => simp [step, hnotes] at hs
      | observe i raised => simp [step, hnotes] at hs
      | settle i => simp [step, hnotes] at hs
  · obtain ⟨job, hjob⟩ := husable.running (hkey ▸ hinflight)
    rw [hrunning] at hjob
    cases hjob

end System

end BasecradleRouter.Scheduler
