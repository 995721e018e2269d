/-
# No accepted delivery is lost, none is run twice

Over every interleaving of requests, executes and the scheduler's threads, what was answered with
202 for an agent is what was executed for it, what a lane has taken for it and what waits for it, in
that order: `delivered`.

`Kept` is the invariant.  It ties the daemon to the scheduler's own history: an agent's accepted
wakes are the jobs submitted for it, and its started jobs are those that were executed, with the one
underway behind them.
-/
import BasecradleRouter.Daemon
import BasecradleRouter.Scheduler.Refused
import BasecradleRouter.Server.Answers

namespace BasecradleRouter

open Lib Models Routes Pipeline Evidence Server Scheduler

/-! ## 1. What a call answers -/

theorem status_send (status : ℕ) (v : Json) (pending : Option (Agent × Event)) :
    Exchange.status ⟨send status v, pending⟩ = some status := rfl

/-- A call answers 202 where it leaves a wake, and not otherwise. -/
theorem respond_status {core : Core Objects} {stem : String} {scope : Scope}
    {received : List Received} {f : Flushes} {object : Objects} {served : Served Objects}
    (h : respond core stem scope received f object = some served) :
    Exchange.status ⟨served.sent, served.pending⟩ = some 202 ↔ served.pending.isSome = true := by
  unfold respond at h
  split at h
  · cases h
    exact iff_of_false (by simp [aside, sendLiveness, Exchange.status]) Bool.false_ne_true
  · cases h
    exact iff_of_false (by simp [aside, status_send]) Bool.false_ne_true
  · cases h
    exact iff_of_false (by simp [aside, status_send]) Bool.false_ne_true
  · next source _ =>
    obtain ⟨body, -, rfl⟩ := Option.map_eq_some_iff.mp h
    exact (Option.some_inj.trans answered_woke)

namespace Daemon

/-! ## 2. Sections of the scheduler -/

/-- What a critical section leaves of a sound system. -/
theorem section_spec {S S' : System} {l : Label} {key : String} {M : System} (h : S.Sound)
    (hM : S.beforePump l = some (key, M)) (hs : S.step l = some S') :
    ∃ jobs sched, M.Sound ∧ M.sched.Pumped jobs sched ∧ S' = M.claim key jobs sched := by
  have hsound := h.beforePump hM
  obtain ⟨jobs, sched, hpc, -, -, hp⟩ := System.pumpAndClaim_spec hsound.coherent key
  have heq := (System.step_of_beforePump hM).symm.trans hs
  exact ⟨jobs, sched, hsound, hp, Option.some.inj (heq.symm.trans hpc)⟩

/-- A queued job is its agent's. -/
theorem key_of_queue {S : System} (h : S.Sound) {k : String} {job : Job}
    (hjob : job ∈ S.sched.queue k) : job.key = k := by
  have hsubmitted : job ∈ S.submittedFor k := by
    rw [h.history k]
    exact List.mem_append_right _ hjob
  simpa using (List.mem_filter.mp hsubmitted).2

/-- A job that a pump has taken is its agent's. -/
theorem key_of_pumped {S : System} (h : S.Sound) {jobs : List (String × Job)}
    {sched : WakeScheduler} (hp : S.sched.Pumped jobs sched) : ∀ r ∈ jobs, r.2.key = r.1 := by
  rintro ⟨k, job⟩ hr
  refine key_of_queue h (k := k) ?_
  rw [hp.queue k]
  exact List.mem_append_left _ (List.mem_map.mpr ⟨(k, job), List.mem_filter.mpr ⟨hr, by simp⟩, rfl⟩)

/-- A notification moves on: no job is submitted, started or finished. -/
theorem note_frame {S S' : System} {l : Label} (hl : S.beforePump l = none)
    (hs : S.step l = some S') :
    S'.running = S.running ∧ S'.submitted = S.submitted ∧ S'.started = S.started := by
  rcases System.step_cases hs with ⟨key, M, hM, -⟩ | ⟨i, key, t, -, hcase⟩
  · rw [hl] at hM
    cases hM
  · rcases hcase with ⟨-, -, rfl⟩ | ⟨-, rfl⟩ | ⟨-, rfl⟩
    · exact ⟨rfl, rfl, rfl⟩
    · exact ⟨rfl, rfl, rfl⟩
    · exact ⟨rfl, rfl, rfl⟩

/-! ## 3. The invariant -/

/-- What holds of the daemon between any two acts. -/
structure Kept (D : Daemon) : Prop where
  settled : D.system.Settled
  /-- only a job that runs has been executed and not finished -/
  done : ∀ k ∈ D.done, k ∈ D.system.running.map Prod.fst
  own : ∀ r ∈ D.system.running, r.2.key = r.1
  accepted : ∀ k, D.acceptedFor k = (D.system.submittedFor k).map wakeOf
  executed : ∀ k, (D.system.startedFor k).map wakeOf = D.executedFor k ++ D.underwayFor k
  answered : ∀ exchange ∈ D.exchanges,
    exchange.status = some 202 ↔ exchange.pending.isSome = true

theorem start_kept (objects : Objects) (evidence : EvidenceStore) (ttl : PyFloat)
    (capacity lanes : ℕ) (config : Breaker.BreakerConfig) (ht : ttl.lt (.fin 0) = false)
    (hc : 1 ≤ capacity) (hl : 1 ≤ lanes) :
    (start objects evidence ttl capacity lanes config ht hc hl).Kept where
  settled := System.start_settled lanes hl
  done k hk := absurd hk (Finset.notMem_empty k)
  own r hr := absurd hr List.not_mem_nil
  accepted _ := rfl
  executed k := by
    unfold underwayFor
    split <;> rfl
  answered e he := absurd he List.not_mem_nil

variable {core : Core Objects} {p : Pipeline} {stem : String} {D D' : Daemon}

theorem underwayFor_done {k : String} (hk : k ∈ D.done) : D.underwayFor k = [] := if_pos hk

theorem underwayFor_free {k : String} (hk : k ∉ D.done) :
    D.underwayFor k = (D.system.running.filter (·.1 = k)).map fun r => wakeOf r.2 := if_neg hk

/-- The jobs of a pump are underway. -/
theorem underway_append {running jobs : List (String × Job)} {k : String} {done : Finset String}
    (hfree : k ∈ jobs.map Prod.fst → k ∉ done) :
    (if k ∈ done then [] else ((running ++ jobs).filter (·.1 = k)).map fun r => wakeOf r.2) =
      (if k ∈ done then [] else (running.filter (·.1 = k)).map fun r => wakeOf r.2) ++
        ((jobs.filter (·.1 = k)).map Prod.snd).map wakeOf := by
  have hnone : k ∉ jobs.map Prod.fst → jobs.filter (·.1 = k) = [] := fun hnot =>
    List.filter_eq_nil_iff.mpr fun r hr hk =>
      hnot (List.mem_map.mpr ⟨r, hr, of_decide_eq_true hk⟩)
  split
  · next hk =>
    rw [hnone fun hmem => hfree hmem hk]
    rfl
  · simp [List.filter_append]

/-- A job has been submitted. -/
theorem Kept.submit (h : D.Kept) {job : Job} {S' : System}
    (hs : D.system.step (.submit job) = some S') :
    S'.Settled ∧ (∀ k ∈ D.done, k ∈ S'.running.map Prod.fst) ∧ (∀ r ∈ S'.running, r.2.key = r.1) ∧
      (∀ k, S'.submittedFor k = D.system.submittedFor k ++ if job.key = k then [job] else []) ∧
      ∀ k, (S'.startedFor k).map wakeOf =
        D.executedFor k ++ { D with system := S' }.underwayFor k := by
  have hM : D.system.beforePump (.submit job) = some (job.key, { D.system with
      sched := D.system.sched.enqueue job, submitted := D.system.submitted ++ [job] }) := rfl
  obtain ⟨jobs, sched, hsound, hp, rfl⟩ := section_spec h.settled.sound hM hs
  refine ⟨h.settled.step hs, fun k hk => ?_, fun r hr => ?_, fun k => ?_, fun k => ?_⟩
  · exact (List.map_append ▸ List.mem_append_left _ (h.done k hk) :
      k ∈ (D.system.running ++ jobs).map Prod.fst)
  · rcases List.mem_append.mp hr with hr | hr
    · exact h.own r hr
    · exact key_of_pumped hsound hp r hr
  · simp only [System.claim, System.submittedFor, List.filter_append]
    split
    · next hk => simp [hk]
    · next hk => simp [hk]
  · have hfree : k ∈ jobs.map Prod.fst → k ∉ D.done := fun hmem hdone =>
      hp.keys_free hsound.coherent k hmem ((hsound.running_inflight k).mp (h.done k hdone))
    have hstarted := h.executed k
    unfold underwayFor at hstarted ⊢
    dsimp only [System.claim]
    rw [underway_append hfree, ← List.append_assoc, ← hstarted]
    simp [System.startedFor]

/-- A job has been finished, and its agent is no longer done. -/
theorem Kept.finish (h : D.Kept) {i : ℕ} {key : String} {job : Job} {S' : System}
    (hi : D.system.running[i]? = some (key, job)) (hkey : key ∈ D.done)
    (hs : D.system.step (.complete i) = some S') :
    { D with system := S', done := D.done.erase key }.Kept := by
  have hM : D.system.beforePump (.complete i) = some (key, { D.system with
      sched := D.system.sched.release key, running := D.system.running.eraseIdx i }) := by
    simp [System.beforePump, hi]
  obtain ⟨jobs, sched, hsound, hp, rfl⟩ := section_spec h.settled.sound hM hs
  have hkeys : ∀ k, k ∈ (D.system.running.eraseIdx i).map Prod.fst ↔
      k ≠ key ∧ k ∈ D.system.running.map Prod.fst :=
    System.eraseIdx_keys h.settled.sound.running_nodup hi
  refine ⟨h.settled.step hs, fun k hk => ?_, fun r hr => ?_, h.accepted, fun k => ?_, h.answered⟩
  · obtain ⟨hne, hdone⟩ := Finset.mem_erase.mp hk
    exact (List.map_append ▸ List.mem_append_left _ ((hkeys k).mpr ⟨hne, h.done k hdone⟩) :
      k ∈ (D.system.running.eraseIdx i ++ jobs).map Prod.fst)
  · rcases List.mem_append.mp hr with hr | hr
    · exact h.own r (List.mem_of_mem_eraseIdx hr)
    · exact key_of_pumped hsound hp r hr
  · have hfree : k ∈ jobs.map Prod.fst → k ∉ D.done.erase key := by
      intro hmem hdone
      obtain ⟨hne, hdone⟩ := Finset.mem_erase.mp hdone
      exact hp.keys_free hsound.coherent k hmem
        ((hsound.running_inflight k).mp ((hkeys k).mpr ⟨hne, h.done k hdone⟩))
    have hsame : (if k ∈ D.done.erase key then [] else
        ((D.system.running.eraseIdx i).filter (·.1 = k)).map fun r => wakeOf r.2) =
        D.underwayFor k := by
      unfold underwayFor
      by_cases hk : k = key
      · subst hk
        rw [if_pos hkey, if_neg (Finset.notMem_erase k D.done), List.map_eq_nil_iff,
          List.filter_eq_nil_iff]
        intro r hr hrk
        exact ((hkeys k).mp (List.mem_map.mpr ⟨r, hr, of_decide_eq_true hrk⟩)).1 rfl
      · obtain ⟨hsplit, -, herase⟩ := System.split_at hi
        have hrunning : (D.system.running.eraseIdx i).filter (·.1 = k) =
            D.system.running.filter (·.1 = k) := by
          rw [herase]
          conv_rhs => rw [hsplit]
          simp [Ne.symm hk]
        rw [hrunning]
        simp [hk]
    have hstarted := h.executed k
    rw [← hsame] at hstarted
    unfold underwayFor
    dsimp only [System.claim]
    rw [underway_append hfree, ← List.append_assoc]
    show _ = (D.executedFor k ++ _) ++ _
    rw [← hstarted]
    simp [System.startedFor]

/-- The only job of an agent that runs. -/
theorem filter_running {S : System} (h : S.Sound) {i : ℕ} {key : String} {job : Job}
    (hi : S.running[i]? = some (key, job)) : S.running.filter (·.1 = key) = [(key, job)] := by
  obtain ⟨hsplit, -, herase⟩ := System.split_at hi
  have hnone : (S.running.eraseIdx i).filter (·.1 = key) = [] :=
    List.filter_eq_nil_iff.mpr fun r hr hk => ((System.eraseIdx_keys h.running_nodup hi key).mp
      (List.mem_map.mpr ⟨r, hr, of_decide_eq_true hk⟩)).1 rfl
  rw [herase, List.filter_append, List.append_eq_nil_iff] at hnone
  rw [hsplit, List.filter_append, List.filter_cons_of_pos (by simp), hnone.1, hnone.2]
  rfl

/-- A job has been executed. -/
theorem Kept.ran (h : D.Kept) {i : ℕ} {key : String} {job : Job} (readings : Readings)
    (hi : D.system.running[i]? = some (key, job)) (hkey : key ∉ D.done) :
    (D.ran core p key job readings).Kept := by
  have hmem : (key, job) ∈ D.system.running := List.mem_of_getElem? hi
  refine ⟨h.settled, fun k hk => ?_, h.own, h.accepted, fun k => ?_, h.answered⟩
  · rcases Finset.mem_insert.mp hk with rfl | hk
    · exact List.mem_map.mpr ⟨_, hmem, rfl⟩
    · exact h.done k hk
  · have hown : job.agent.harnessKey = key := h.own _ hmem
    have hstarted := h.executed k
    show _ = (D.executed ++ [(job.agent, job.event)]).filter _ ++ _
    by_cases hk : k = key
    · subst hk
      have hafter : (D.ran core p k job readings).underwayFor k = [] :=
        underwayFor_done (Finset.mem_insert_self k D.done)
      rw [underwayFor_free hkey, filter_running h.settled.sound hi] at hstarted
      rw [hafter, List.append_nil, List.filter_append]
      refine hstarted.trans (congrArg (D.executedFor k ++ ·) ?_)
      simp [hown, wakeOf]
    · have hne : job.agent.harnessKey ≠ k := fun heq => hk (heq.symm.trans hown)
      have hsame : (D.ran core p key job readings).underwayFor k = D.underwayFor k := by
        by_cases hdone : k ∈ D.done
        · rw [underwayFor_done hdone, underwayFor_done (Finset.mem_insert_of_mem hdone)]
        · rw [underwayFor_free hdone]
          refine underwayFor_free fun hmem => ?_
          exact (Finset.mem_insert.mp hmem).elim hk hdone
      rw [hsame, List.filter_append]
      refine hstarted.trans (congrArg (· ++ D.underwayFor k) ?_)
      simp [executedFor, hne]

/-- A notification has moved on, and the evidence may have been told. -/
theorem Kept.note (h : D.Kept) {l : Label} {S' : System} (world : World)
    (hl : D.system.beforePump l = none) (hs : D.system.step l = some S') :
    { D with system := S', world := world }.Kept := by
  obtain ⟨hrunning, hsubmitted, hstarted⟩ := note_frame hl hs
  refine ⟨h.settled.step hs, fun k hk => ?_, fun r hr => ?_, fun k => ?_, fun k => ?_, h.answered⟩
  · rw [hrunning]
    exact h.done k hk
  · rw [hrunning] at hr
    exact h.own r hr
  · unfold System.submittedFor
    rw [hsubmitted]
    exact h.accepted k
  · have hk := h.executed k
    unfold System.startedFor underwayFor at hk ⊢
    dsimp only
    rw [hstarted, hrunning]
    exact hk

/-- A call has been answered, and its wake has been spawned where it left one. -/
theorem Kept.spawn (h : D.Kept) {scope : Scope} {received : List Received} {f : Flushes}
    {served : Served Objects}
    (hserved : respond core stem scope received f D.objects = some served)
    (hs : (D.exchange served).spawn served = some D') : D'.Kept := by
  have hanswered : ∀ e ∈ D.exchanges ++ [⟨served.sent, served.pending⟩],
      Exchange.status e = some 202 ↔ e.pending.isSome = true := by
    intro e he
    rcases List.mem_append.mp he with he | he
    · exact h.answered e he
    · rw [List.mem_singleton.mp he]
      exact respond_status hserved
  unfold Daemon.spawn at hs
  cases hpending : served.pending with
  | none =>
    rw [hpending] at hs
    cases hs
    refine ⟨h.settled, h.done, h.own, fun k => ?_, h.executed, hanswered⟩
    have hk := h.accepted k
    unfold acceptedFor at hk ⊢
    simpa [exchange, hpending] using hk
  | some wake =>
    obtain ⟨agent, event⟩ := wake
    rw [hpending] at hs
    obtain ⟨S', hS', rfl⟩ := Option.map_eq_some_iff.mp hs
    have hs : D.system.step (.submit ⟨agent, event, served.result⟩) = some S' := hS'
    obtain ⟨hsettled, hdone, hown, hsubmitted, hexecuted⟩ := h.submit hs
    refine ⟨hsettled, hdone, hown, fun k => ?_, hexecuted, hanswered⟩
    have hk := h.accepted k
    have hone : [Exchange.mk served.sent served.pending].filterMap Exchange.pending =
        [(agent, event)] := by
      rw [hpending]
      rfl
    unfold acceptedFor at hk ⊢
    show ((D.exchanges ++ [Exchange.mk served.sent served.pending]).filterMap _).filter _ = _
    rw [hsubmitted, List.filterMap_append, List.filter_append, hk, hone, List.map_append]
    refine congrArg ((D.system.submittedFor k).map wakeOf ++ ·) ?_
    by_cases hagent : agent.harnessKey = k
    · simp [hagent, Job.key, wakeOf]
    · simp [hagent, Job.key]

/-- **The step lemma.** -/
theorem Kept.step (h : D.Kept) {act : Act} (hs : D.step core p stem act = some D') : D'.Kept := by
  cases act with
  | request scope received f =>
    obtain ⟨served, hserved, hs⟩ := Option.bind_eq_some_iff.mp hs
    exact h.spawn hserved hs
  | execute i readings =>
    obtain ⟨⟨key, job⟩, hi, hs⟩ := Option.bind_eq_some_iff.mp hs
    dsimp only at hs
    split at hs
    · cases hs
    · next hkey =>
      cases hs
      exact h.ran readings hi hkey
  | finish i =>
    obtain ⟨⟨key, job⟩, hi, hs⟩ := Option.bind_eq_some_iff.mp hs
    dsimp only at hs
    split at hs
    · next hkey =>
      obtain ⟨S', hS', rfl⟩ := Option.map_eq_some_iff.mp hs
      exact h.finish hi hkey hS'
    · cases hs
  | takeTurn i =>
    obtain ⟨S', hS', rfl⟩ := Option.map_eq_some_iff.mp hs
    exact h.note D.world rfl hS'
  | observe i f =>
    obtain ⟨⟨key, note⟩, -, hs⟩ := Option.bind_eq_some_iff.mp hs
    obtain ⟨S', hS', rfl⟩ := Option.map_eq_some_iff.mp hs
    exact h.note _ rfl hS'
  | settle i =>
    obtain ⟨S', hS', rfl⟩ := Option.map_eq_some_iff.mp hs
    exact h.note D.world rfl hS'

/-- The run lemma. -/
theorem kept_of_run {acts : List Act} (h : D.Kept) (hrun : Steps (step core p stem) D acts D') :
    D'.Kept :=
  hrun.invariant (I := Kept) (fun _ _ _ hD hs => hD.step hs) h

/-! ## 4. The guarantee -/

/-- What is promised of an agent's wakes. -/
structure Delivered (D : Daemon) (key : String) : Prop where
  /-- a wake was taken on exactly where 202 was answered -/
  answered : ∀ exchange ∈ D.exchanges,
    exchange.status = some 202 ↔ exchange.pending.isSome = true
  /-- each wake that was taken on has been run, or is underway, or waits, in the order they came -/
  in_order : D.acceptedFor key = D.executedFor key ++ D.underwayFor key ++ D.queuedFor key
  /-- at most one is underway -/
  single_flight : (D.underwayFor key).length ≤ 1
  /-- when the scheduler is idle each has been run, once -/
  all_run : D.system.sched.idle = true → D.executedFor key = D.acceptedFor key

theorem Kept.in_order (h : D.Kept) (key : String) :
    D.acceptedFor key = D.executedFor key ++ D.underwayFor key ++ D.queuedFor key := by
  rw [h.accepted, h.settled.sound.history, List.map_append, h.executed]
  rfl

theorem Kept.single_flight (h : D.Kept) (key : String) : (D.underwayFor key).length ≤ 1 := by
  by_cases hdone : key ∈ D.done
  · rw [underwayFor_done hdone]
    exact Nat.zero_le 1
  · rw [underwayFor_free hdone, List.length_map]
    by_cases hnone : D.system.running.filter (·.1 = key) = []
    · rw [hnone]
      exact Nat.zero_le 1
    · obtain ⟨⟨k, job⟩, hr⟩ := List.exists_mem_of_ne_nil _ hnone
      obtain ⟨hmem, hk⟩ := List.mem_filter.mp hr
      obtain rfl : k = key := of_decide_eq_true hk
      obtain ⟨i, hi⟩ := List.getElem?_of_mem hmem
      rw [filter_running h.settled.sound hi]
      exact le_refl 1

/-- An idle scheduler has nothing running, nothing queued and nothing to tell. -/
theorem Kept.idle (h : D.Kept) (hidle : D.system.sched.idle = true) :
    D.system.running = [] ∧ (∀ key, D.system.sched.queue key = []) ∧ D.system.notes = [] := by
  unfold WakeScheduler.idle at hidle
  simp only [Bool.and_eq_true, decide_eq_true_eq, List.isEmpty_iff, beq_iff_eq] at hidle
  obtain ⟨⟨hinflight, hready⟩, hnotifying⟩ := hidle
  refine ⟨?_, fun key => ?_, List.length_eq_zero_iff.mp (h.settled.notifying ▸ hnotifying)⟩
  · rw [List.eq_nil_iff_forall_not_mem]
    intro r hr
    have hmem := (h.settled.sound.running_inflight r.1).mp (List.mem_map.mpr ⟨r, hr, rfl⟩)
    rw [hinflight] at hmem
    exact Finset.notMem_empty _ hmem
  · by_contra hne
    rcases h.settled.sound.coherent.queued_scheduled key hne with hmem | hmem
    · rw [hready] at hmem
      exact List.not_mem_nil hmem
    · rw [hinflight] at hmem
      exact Finset.notMem_empty _ hmem

theorem Kept.all_run (h : D.Kept) (hidle : D.system.sched.idle = true) (key : String) :
    D.executedFor key = D.acceptedFor key := by
  obtain ⟨hrunning, hqueue, -⟩ := h.idle hidle
  have hnone : D.underwayFor key = [] := by
    unfold underwayFor
    rw [hrunning]
    split <;> rfl
  rw [h.in_order key, hnone, queuedFor, hqueue key, List.map_nil, List.append_nil, List.append_nil]

/-- **No accepted delivery is lost, none is run twice**, over every interleaving in which the
executor takes what is submitted to it. -/
theorem delivered (objects : Objects) (evidence : EvidenceStore) (ttl : PyFloat)
    (capacity lanes : ℕ) (config : Breaker.BreakerConfig) (ht : ttl.lt (.fin 0) = false)
    (hc : 1 ≤ capacity) (hl : 1 ≤ lanes) (acts : List Act)
    (hrun : Steps (step core p stem) (start objects evidence ttl capacity lanes config ht hc hl)
      acts D) (key : String) : D.Delivered key := by
  have h := kept_of_run (start_kept objects evidence ttl capacity lanes config ht hc hl) hrun
  exact ⟨h.answered, h.in_order key, h.single_flight key, fun hidle => h.all_run hidle key⟩

/-- A daemon that runs the probe route alone, on one lane. -/
def probeDaemon : Daemon :=
  start ⟨⟨.empty, .empty, []⟩, []⟩ .new (.fin 600) 2 1 .default defaultTtl_ok twoSlots_ok le_rfl

/-- Bob's probe comes in twice, and the first is executed. -/
def probeActs : List Act :=
  [.request probeScope probeReceived ⟨firstFlush, firstFlush⟩,
    .request probeScope probeReceived ⟨firstFlush, firstFlush⟩,
    .execute 0 (.sample 0 ⟨0, span_pos⟩ (.error (.wakeError "down")))]

theorem delivered_probe : ∃ D, Steps (step probeCore ⟨3⟩ webhookStem) probeDaemon probeActs D ∧
    (D.executedFor "bob").length = 1 ∧ (D.queuedFor "bob").length = 1 ∧ D.Delivered "bob" := by
  obtain ⟨D, hrun, hcounts⟩ := Option.map_eq_some_iff.mp
    (by rfl : (Steps.run (step probeCore ⟨3⟩ webhookStem) probeDaemon probeActs).map (fun D =>
      ((D.executedFor "bob").length, (D.queuedFor "bob").length)) = some (1, 1))
  obtain ⟨hexecuted, hqueued⟩ := Prod.mk.inj hcounts
  exact ⟨D, .of_run hrun, hexecuted, hqueued,
    delivered _ _ _ _ _ _ defaultTtl_ok twoSlots_ok le_rfl _ (.of_run hrun) "bob"⟩

end Daemon

end BasecradleRouter
