/-
# A drain always completes

When the daemon stops it takes no more requests and waits until the scheduler is idle.  `work`
bounds how many steps that can take: five for a job that is still to be finished (it is executed, it
finishes, and its notification takes its turn, is told and is settled), less what has been done
already.  Each step of the daemon's own leaves less of it (`Kept.step_work`), whichever thread takes
it, and as long as the scheduler is not idle some thread can take one (`Kept.exists_step`).  So no
schedule keeps a drain from its end, and there every wake that was taken on has been run
(`drain_completes`).
-/
import BasecradleRouter.Daemon.Delivered

namespace BasecradleRouter.Daemon

open BasecradleRouter.Lib BasecradleRouter.Models BasecradleRouter.Routes BasecradleRouter.Pipeline
open BasecradleRouter.Evidence BasecradleRouter.Server BasecradleRouter.Scheduler

/-! ## 1. What is left to do -/

/-- The jobs that are queued or run. -/
def unfinished (S : System) : ℕ := S.submitted.length - S.started.length + S.running.length

/-- How many steps are left at most. -/
def work (D : Daemon) : ℕ := 5 * unfinished D.system - D.done.card + D.system.unsettled

/-- No more jobs have been started than were submitted. -/
theorem started_le {S : System} (h : S.Sound) : S.started.length ≤ S.submitted.length := by
  have hcount : ∀ k, (S.started.map Prod.fst).count k ≤ (S.submitted.map Job.key).count k := by
    intro k
    have hstarted : (S.started.map Prod.fst).count k = (S.startedFor k).length := by
      rw [List.count, List.countP_map, List.countP_eq_length_filter, System.startedFor,
        List.length_map]
      rfl
    have hsubmitted : (S.submitted.map Job.key).count k = (S.submittedFor k).length := by
      rw [List.count, List.countP_map, List.countP_eq_length_filter, System.submittedFor]
      rfl
    rw [hstarted, hsubmitted, h.history k, List.length_append]
    exact Nat.le_add_right _ _
  have hsub := (List.subperm_ext_iff.mpr fun k _ => hcount k).length_le
  simpa using hsub

variable {core : Core Objects} {p : Pipeline} {stem : String} {D D' : Daemon}

/-- What has been executed runs still. -/
theorem Kept.done_le (h : D.Kept) : D.done.card ≤ D.system.running.length := by
  have hsub : D.done ⊆ (D.system.running.map Prod.fst).toFinset :=
    fun k hk => List.mem_toFinset.mpr (h.done k hk)
  refine (Finset.card_le_card hsub).trans ?_
  simpa using List.toFinset_card_le (D.system.running.map Prod.fst)

/-! ## 2. Every step leaves less -/

/-- A job has been finished: it is told once more, and whatever the pump took was unfinished
before. -/
theorem finish_work {S S' : System} (h : S.Sound) {i : ℕ} {key : String} {job : Job}
    (hi : S.running[i]? = some (key, job)) (hs : S.step (.complete i) = some S') :
    unfinished S' + 1 = unfinished S ∧ S'.unsettled = S.unsettled + 3 := by
  have hM : S.beforePump (.complete i) = some (key, { S with
      sched := S.sched.release key, running := S.running.eraseIdx i }) := by
    simp [System.beforePump, hi]
  obtain ⟨jobs, sched, -, -, rfl⟩ := section_spec h hM hs
  have hlt : i < S.running.length := (List.getElem?_eq_some_iff.mp hi).1
  have hle : S.started.length + jobs.length ≤ S.submitted.length := by
    have hnext := started_le (h.next hs)
    simpa [System.claim] using hnext
  refine ⟨?_, ?_⟩
  · unfold unfinished System.claim
    simp only [List.length_append, List.length_eraseIdx_of_lt hlt]
    omega
  · unfold System.unsettled System.claim
    rw [System.unsettledIn_append]
    rfl

/-- A notification that moves on leaves the jobs alone. -/
theorem note_work {S S' : System} {l : Label} (hl : S.beforePump l = none)
    (hs : S.step l = some S') : unfinished S' = unfinished S ∧ S'.unsettled < S.unsettled := by
  obtain ⟨hrunning, hsubmitted, hstarted⟩ := note_frame hl hs
  refine ⟨?_, (System.note_step hs hl).1⟩
  unfold unfinished
  rw [hrunning, hsubmitted, hstarted]

/-- **The step lemma**: a step of the daemon's own leaves less to do. -/
theorem Kept.step_work (h : D.Kept) {act : Act} (hown : act.own = true)
    (hs : D.step core p stem act = some D') : D'.work < D.work := by
  have hdone : D.done.card ≤ unfinished D.system :=
    h.done_le.trans (Nat.le_add_left _ _)
  have hnote : ∀ {l : Label} {S' : System} {world : World}, D.system.beforePump l = none →
      D.system.step l = some S' → { D with system := S', world := world }.work < D.work := by
    intro l S' world hl hs
    obtain ⟨hsame, hless⟩ := note_work hl hs
    unfold work
    dsimp only
    rw [hsame]
    omega
  cases act with
  | request scope received f => cases hown
  | execute i readings =>
    obtain ⟨⟨key, job⟩, hi, hs⟩ := Option.bind_eq_some_iff.mp hs
    dsimp only at hs
    split at hs
    · cases hs
    · next hkey =>
      cases hs
      have hafter : (D.ran core p key job readings).done.card ≤ D.system.running.length :=
        (h.ran readings hi hkey).done_le
      have hcard : (insert key D.done).card = D.done.card + 1 := Finset.card_insert_of_notMem hkey
      have hle : D.done.card + 1 ≤ unfinished D.system :=
        (hcard ▸ hafter).trans (Nat.le_add_left _ _)
      unfold work Daemon.ran
      dsimp only
      rw [hcard]
      omega
  | finish i =>
    obtain ⟨⟨key, job⟩, hi, hs⟩ := Option.bind_eq_some_iff.mp hs
    dsimp only at hs
    split at hs
    · next hkey =>
      obtain ⟨S', hS', rfl⟩ := Option.map_eq_some_iff.mp hs
      obtain ⟨hless, hmore⟩ := finish_work h.settled.sound hi hS'
      have hcard : (D.done.erase key).card + 1 = D.done.card := Finset.card_erase_add_one hkey
      unfold work
      dsimp only
      omega
    · cases hs
  | takeTurn i =>
    obtain ⟨S', hS', rfl⟩ := Option.map_eq_some_iff.mp hs
    exact hnote rfl hS'
  | observe i f =>
    obtain ⟨⟨key, note⟩, -, hs⟩ := Option.bind_eq_some_iff.mp hs
    obtain ⟨S', hS', rfl⟩ := Option.map_eq_some_iff.mp hs
    exact hnote rfl hS'
  | settle i =>
    obtain ⟨S', hS', rfl⟩ := Option.map_eq_some_iff.mp hs
    exact hnote rfl hS'

/-! ## 3. Somebody can move -/

/-- The notification at a position can be told with any flush. -/
theorem observe_enabled {i : ℕ} {raised : Bool} {T : System}
    (hs : D.system.step (.observe i raised) = some T) (f : Flush) :
    (D.step core p stem (.observe i f)).isSome = true := by
  simp only [System.step] at hs
  cases hnote : D.system.notes[i]? with
  | none =>
    rw [hnote] at hs
    cases hs
  | some note =>
    obtain ⟨key, t⟩ := note
    rw [hnote] at hs
    dsimp only at hs
    split at hs
    · next hcalled => simp [Daemon.step, System.step, hnote, hcalled]
    · cases hs

/-- A job that was executed can finish. -/
theorem finish_enabled (h : D.Kept) {i : ℕ} {key : String} {job : Job}
    (hi : D.system.running[i]? = some (key, job)) (hkey : key ∈ D.done) :
    (D.step core p stem (.finish i)).isSome = true := by
  have hM : D.system.beforePump (.complete i) = some (key, { D.system with
      sched := D.system.sched.release key, running := D.system.running.eraseIdx i }) := by
    simp [System.beforePump, hi]
  obtain ⟨jobs, sched, hpc, -⟩ :=
    System.pumpAndClaim_spec (h.settled.sound.beforePump hM).coherent key
  have hs := (System.step_of_beforePump hM).trans hpc
  simp [Daemon.step, hi, hkey, hs]

/-- A note step is one of the daemon's. -/
theorem note_enabled {l : Label} {T : System} (hl : D.system.beforePump l = none)
    (hs : D.system.step l = some T) (f : Flush) :
    ∃ act, act.own = true ∧ (D.step core p stem act).isSome = true := by
  cases l with
  | submit job => cases hl
  | complete i =>
    simp only [System.step, hl] at hs
    cases hs
  | takeTurn i => exact ⟨.takeTurn i, rfl, by simp [Daemon.step, hs]⟩
  | observe i raised => exact ⟨.observe i f, rfl, observe_enabled hs f⟩
  | settle i => exact ⟨.settle i, rfl, by simp [Daemon.step, hs]⟩

/-- **Unless the scheduler is idle** some thread can take a step of the daemon's own. -/
theorem Kept.exists_step (h : D.Kept) (hbusy : D.system.sched.idle = false) (readings : Readings)
    (f : Flush) : ∃ act, act.own = true ∧ (D.step core p stem act).isSome = true := by
  by_cases hrunning : D.system.running = []
  · have hnotes : D.system.notes ≠ [] := by
      intro hnone
      have hidle := h.settled.idle hrunning hnone
      rw [hbusy] at hidle
      cases hidle
    obtain ⟨l, T, -, hl, hs⟩ := System.exists_note_step h.settled hnotes
    exact note_enabled hl hs f
  · obtain ⟨⟨key, job⟩, rest, hcons⟩ := List.exists_cons_of_ne_nil hrunning
    have hfirst : D.system.running[0]? = some (key, job) := by
      rw [hcons]
      rfl
    by_cases hkey : key ∈ D.done
    · exact ⟨.finish 0, rfl, finish_enabled h hfirst hkey⟩
    · exact ⟨.execute 0 readings, rfl, by simp [Daemon.step, hfirst, hkey]⟩

/-- An idle daemon has nothing to do but to take requests. -/
theorem Kept.nothing_enabled (h : D.Kept) (hidle : D.system.sched.idle = true) {act : Act}
    (hown : act.own = true) : D.step core p stem act = none := by
  obtain ⟨hrunning, -, hnotes⟩ := h.idle hidle
  cases act with
  | request scope received f => cases hown
  | execute i readings => simp [Daemon.step, hrunning]
  | finish i => simp [Daemon.step, hrunning]
  | takeTurn i => simp [Daemon.step, System.step, hnotes]
  | observe i f => simp [Daemon.step, hnotes]
  | settle i => simp [Daemon.step, System.step, hnotes]

/-! ## 4. The guarantee -/

/-- Only a request is answered. -/
theorem exchanges_of_own {act : Act} (hown : act.own = true)
    (hs : D.step core p stem act = some D') : D'.exchanges = D.exchanges := by
  cases act with
  | request scope received f => cases hown
  | execute i readings =>
    obtain ⟨⟨key, job⟩, -, hs⟩ := Option.bind_eq_some_iff.mp hs
    dsimp only at hs
    split at hs <;> cases hs
    rfl
  | finish i =>
    obtain ⟨⟨key, job⟩, -, hs⟩ := Option.bind_eq_some_iff.mp hs
    dsimp only at hs
    split at hs
    · obtain ⟨S', -, rfl⟩ := Option.map_eq_some_iff.mp hs
      rfl
    · cases hs
  | takeTurn i =>
    obtain ⟨S', -, rfl⟩ := Option.map_eq_some_iff.mp hs
    rfl
  | observe i f =>
    obtain ⟨⟨key, note⟩, -, hs⟩ := Option.bind_eq_some_iff.mp hs
    obtain ⟨S', -, rfl⟩ := Option.map_eq_some_iff.mp hs
    rfl
  | settle i =>
    obtain ⟨S', -, rfl⟩ := Option.map_eq_some_iff.mp hs
    rfl

/-- Nor in a run without requests. -/
theorem exchanges_of_run {acts : List Act} (hrun : Steps (step core p stem) D acts D')
    (hown : ∀ act ∈ acts, act.own = true) : D'.exchanges = D.exchanges := by
  induction hrun with
  | nil => rfl
  | cons hs _ ih =>
    have hfirst := exchanges_of_own (hown _ List.mem_cons_self) hs
    exact (ih fun act hact => hown act (List.mem_cons_of_mem _ hact)).trans hfirst

/-- What is promised of a drain that began in `D` and has come to `D'` in so many steps. -/
structure Drained (core : Core Objects) (p : Pipeline) (stem : String) (D : Daemon) (steps : ℕ)
    (D' : Daemon) : Prop where
  /-- it cannot go on for ever, whoever takes the steps -/
  bounded : steps + D'.work ≤ D.work
  /-- it stands still only when it is over -/
  ends : (∀ act, act.own = true → D'.step core p stem act = none) ↔ D'.system.sched.idle = true
  /-- and then every wake that was taken on before it began has been run, once and in order -/
  all_run : D'.system.sched.idle = true → ∀ key, D'.executedFor key = D.acceptedFor key

/-- **A drain always completes**, on every schedule in which the executor takes what is submitted to
it. -/
theorem drain_completes (objects : Objects) (evidence : EvidenceStore) (ttl : PyFloat)
    (capacity lanes : ℕ) (config : Breaker.BreakerConfig) (ht : ttl.lt (.fin 0) = false)
    (hc : 1 ≤ capacity) (hl : 1 ≤ lanes) (acts drain : List Act)
    (hrun : Steps (step core p stem) (start objects evidence ttl capacity lanes config ht hc hl)
      acts D) (hdrain : Steps (step core p stem) D drain D')
    (hown : ∀ act ∈ drain, act.own = true) : Drained core p stem D drain.length D' := by
  have h := kept_of_run (start_kept objects evidence ttl capacity lanes config ht hc hl) hrun
  have h' := kept_of_run h hdrain
  refine ⟨?_, ⟨fun hstill => ?_, fun hidle act hact => h'.nothing_enabled hidle hact⟩,
    fun hidle key => ?_⟩
  · exact hdrain.bounded (I := Kept) (P := fun act => act.own = true) work
      (fun _ _ _ hD hs => hD.step hs) (fun _ _ _ hD hact hs => hD.step_work hact hs) h hown
  · by_contra hbusy
    obtain ⟨act, hact, hsome⟩ : ∃ act, act.own = true ∧
        (D'.step core p stem act).isSome = true :=
      h'.exists_step (eq_false_of_ne_true hbusy) (.sample 0 ⟨0, span_pos⟩ (.error (.wakeError "")))
        firstFlush
    rw [hstill act hact] at hsome
    cases hsome
  · rw [h'.all_run hidle key, acceptedFor, exchanges_of_run hdrain hown]
    rfl

/-- The oldest notification is delivered. -/
def tellFirst : List Act := [.takeTurn 0, .observe 0 firstFlush, .settle 0]

/-- What is left of the two probes when the first has been executed. -/
def probeDrain : List Act :=
  .finish 0 :: tellFirst ++ .execute 0 (.sample 0 ⟨0, span_pos⟩ (.error (.wakeError "down"))) ::
    tellFirst ++ .finish 0 :: tellFirst ++ tellFirst

theorem drain_completes_probe : ∃ D D',
    Steps (step probeCore ⟨3⟩ webhookStem) probeDaemon probeActs D ∧
    Steps (step probeCore ⟨3⟩ webhookStem) D probeDrain D' ∧ D.work = 15 ∧ D'.work = 0 ∧
      Drained probeCore ⟨3⟩ webhookStem D probeDrain.length D' := by
  obtain ⟨D, hrun, hrest⟩ := Option.bind_eq_some_iff.mp
    (by rfl : ((Steps.run (step probeCore ⟨3⟩ webhookStem) probeDaemon probeActs).bind fun D =>
      (Steps.run (step probeCore ⟨3⟩ webhookStem) D probeDrain).map fun D' =>
        (D.work, D'.work)) = some (15, 0))
  obtain ⟨D', hdrain, hworks⟩ := Option.map_eq_some_iff.mp hrest
  obtain ⟨hwork, hwork'⟩ := Prod.mk.inj hworks
  have hown : ∀ act ∈ probeDrain, act.own = true := by decide
  exact ⟨D, D', .of_run hrun, .of_run hdrain, hwork, hwork',
    drain_completes _ _ _ _ _ _ defaultTtl_ok twoSlots_ok le_rfl _ _ (.of_run hrun)
      (.of_run hdrain) hown⟩

end BasecradleRouter.Daemon
