/-
# Scheduler safety

Over every interleaving of submissions, completions and notification threads, the scheduler
keeps one wake per agent and at most `lanes` wakes in flight, its rotation mirrors its ready
set, nobody with work is forgotten, no lane stays free while somebody waits, and each agent's
jobs are started in the order they were submitted, each once.

`Sound` is the invariant that also holds in the middle of a critical section, between the
section's own bookkeeping and its pump.
-/
import BasecradleRouter.Scheduler.Coherent
import BasecradleRouter.Scheduler.System

namespace BasecradleRouter.Scheduler

open BasecradleRouter.Lib

namespace System

/-! ## 1. What a step can do -/

/-- A step is a critical section of the scheduler, or moves one notification. -/
theorem step_cases {S S' : System} {l : Label} (h : S.step l = some S') :
    (∃ key M, S.beforePump l = some (key, M) ∧ M.pumpAndClaim key = some S') ∨
      ∃ i key t, S.notes[i]? = some (key, t) ∧
        ((t.phase = .waiting ∧ S.sched.isTurn key t.number = true ∧
            S' = { S with notes := S.notes.set i (key, { t with phase := .called }) }) ∨
          (t.phase = .called ∧
            S' = { S with
              notes := S.notes.set i (key, { t with phase := .told })
              observed := S.observed ++ [(key, t.payload)] }) ∨
          (t.phase = .told ∧
            S' = { S with
              sched := S.sched.settleNotification key t.number
              notes := S.notes.eraseIdx i })) := by
  cases l with
  | submit job =>
    simp only [step] at h
    obtain ⟨p, hp, hs⟩ := Option.bind_eq_some_iff.mp h
    exact Or.inl ⟨p.1, p.2, hp, hs⟩
  | complete i =>
    simp only [step] at h
    obtain ⟨p, hp, hs⟩ := Option.bind_eq_some_iff.mp h
    exact Or.inl ⟨p.1, p.2, hp, hs⟩
  | takeTurn i =>
    simp only [step] at h
    split at h
    · rename_i key t ht
      split at h
      · rename_i hc
        exact Or.inr ⟨i, key, t, ht, Or.inl ⟨hc.1, hc.2, (Option.some.inj h).symm⟩⟩
      · exact absurd h (by simp)
    · exact absurd h (by simp)
  | observe i raised =>
    simp only [step] at h
    split at h
    · rename_i key t ht
      split at h
      · rename_i hc
        exact Or.inr ⟨i, key, t, ht, Or.inr (Or.inl ⟨hc, (Option.some.inj h).symm⟩)⟩
      · exact absurd h (by simp)
    · exact absurd h (by simp)
  | settle i =>
    simp only [step] at h
    split at h
    · rename_i key t ht
      split at h
      · rename_i hc
        exact Or.inr ⟨i, key, t, ht, Or.inr (Or.inr ⟨hc, (Option.some.inj h).symm⟩)⟩
      · exact absurd h (by simp)
    · exact absurd h (by simp)

/-- The bookkeeping of a section: a job is queued, or a running job frees its lane. -/
theorem beforePump_cases {S M : System} {l : Label} {key : String}
    (h : S.beforePump l = some (key, M)) :
    (∃ job, l = .submit job ∧ key = job.key ∧
        M = { S with sched := S.sched.enqueue job, submitted := S.submitted ++ [job] }) ∨
      ∃ i job, l = .complete i ∧ S.running[i]? = some (key, job) ∧
        M = { S with sched := S.sched.release key, running := S.running.eraseIdx i } := by
  cases l with
  | submit job =>
    simp only [beforePump, Option.some.injEq, Prod.mk.injEq] at h
    exact Or.inl ⟨job, rfl, h.1.symm, h.2.symm⟩
  | complete i =>
    simp only [beforePump, Option.map_eq_some_iff, Prod.mk.injEq] at h
    obtain ⟨r, hr, rfl, hM⟩ := h
    exact Or.inr ⟨i, r.2, rfl, hr, hM.symm⟩
  | takeTurn i => exact absurd h (by simp [beforePump])
  | observe i raised => exact absurd h (by simp [beforePump])
  | settle i => exact absurd h (by simp [beforePump])

/-- A section, once begun, is its pump and its claim. -/
theorem step_of_beforePump {S M : System} {l : Label} {key : String}
    (h : S.beforePump l = some (key, M)) : S.step l = M.pumpAndClaim key := by
  rcases beforePump_cases h with ⟨job, rfl, -, -⟩ | ⟨i, job, rfl, -, -⟩ <;> simp [step, h]

/-! ## 2. The invariant -/

/-- What holds whenever the condition is free, and between a section's bookkeeping and its
pump. -/
structure Sound (S : System) : Prop where
  coherent : S.sched.Coherent
  running_nodup : (S.running.map Prod.fst).Nodup
  running_inflight : ∀ k, k ∈ S.running.map Prod.fst ↔ k ∈ S.sched.inflight
  history : ∀ k, S.submittedFor k = S.startedFor k ++ S.sched.queue k

theorem start_sound (lanes : ℕ) (h : 1 ≤ lanes) : (start lanes h).Sound where
  coherent := WakeScheduler.new_coherent lanes h
  running_nodup := List.nodup_nil
  running_inflight := by simp [start, WakeScheduler.new]
  history k := rfl

/-- Removing the only entry of a key removes the key. -/
theorem eraseIdx_keys {running : List (String × Job)} {i : ℕ} {key : String} {job : Job}
    (hn : (running.map Prod.fst).Nodup) (hi : running[i]? = some (key, job)) (k : String) :
    k ∈ (running.eraseIdx i).map Prod.fst ↔ k ≠ key ∧ k ∈ running.map Prod.fst := by
  have hmap : (running.map Prod.fst)[i]? = some key := by simp [hi]
  have hlt : i < (running.map Prod.fst).length := (List.getElem?_eq_some_iff.mp hmap).1
  have hget : (running.map Prod.fst)[i] = key := (List.getElem?_eq_some_iff.mp hmap).2
  rw [← List.eraseIdx_map, ← hn.erase_getElem i hlt, hget, hn.mem_erase_iff]

theorem Sound.beforePump {S M : System} {l : Label} {key : String} (h : S.Sound)
    (hb : S.beforePump l = some (key, M)) : M.Sound := by
  rcases beforePump_cases hb with ⟨job, rfl, rfl, rfl⟩ | ⟨i, job, rfl, hi, rfl⟩
  · refine ⟨WakeScheduler.enqueue_coherent h.coherent job, h.running_nodup, ?_, ?_⟩
    · intro k
      simp only [WakeScheduler.enqueue_inflight]
      exact h.running_inflight k
    · intro k
      have hk := h.history k
      simp only [submittedFor, startedFor, WakeScheduler.enqueue_queue] at hk ⊢
      by_cases h0 : k = job.key
      · subst h0
        simp [hk]
      · simp [h0, Ne.symm h0, hk]
  · have hrun : key ∈ S.sched.inflight :=
      (h.running_inflight key).mp
        (List.mem_map.mpr ⟨(key, job), List.mem_of_getElem? hi, rfl⟩)
    refine ⟨WakeScheduler.release_coherent h.coherent hrun, ?_, ?_, ?_⟩
    · exact h.running_nodup.sublist ((List.eraseIdx_sublist _ i).map Prod.fst)
    · intro k
      simp only [WakeScheduler.release_inflight, Finset.mem_erase, ← h.running_inflight]
      exact eraseIdx_keys h.running_nodup hi k
    · intro k
      simpa [submittedFor, startedFor, WakeScheduler.release_queue] using h.history k

/-- The rest of a section never raises, and here is what it leaves. -/
theorem pumpAndClaim_spec {M : System} (h : M.sched.Coherent) (key : String) :
    ∃ jobs s', M.pumpAndClaim key = some (M.claim key jobs s') ∧ s'.Coherent ∧ s'.Busy ∧
      M.sched.Pumped jobs s' := by
  obtain ⟨jobs, s', hp, h', hb, hpumped⟩ := WakeScheduler.pumpLocked_spec h
  exact ⟨jobs, s', by simp [pumpAndClaim, hp], h', hb, hpumped⟩

/-- The jobs a pump took run. -/
theorem Sound.hand {M : System} {jobs : List (String × Job)} {s' : WakeScheduler}
    (h : M.Sound) (h' : s'.Coherent) (hp : M.sched.Pumped jobs s') :
    Sound { M with sched := s', running := M.running ++ jobs, started := M.started ++ jobs } where
  coherent := h'
  running_nodup := by
    have hfree := hp.keys_free h.coherent
    rw [List.map_append]
    refine List.nodup_append.mpr ⟨h.running_nodup, hp.keys_nodup h.coherent, ?_⟩
    rintro k hk k' hk' rfl
    exact hfree k hk' ((h.running_inflight k).mp hk)
  running_inflight k := by
    dsimp only
    rw [hp.inflight, Finset.mem_union, List.mem_toFinset, ← h.running_inflight]
    simp
  history k := by
    have hk := h.history k
    simp only [submittedFor, startedFor, List.filter_append, List.map_append,
      List.append_assoc] at hk ⊢
    rw [hk, hp.queue k]

/-- A step that moves a notification leaves the rest alone. -/
theorem Sound.of_frame {S S' : System} (h : S.Sound) (hc : S'.sched.Coherent)
    (hr : S'.running = S.running) (hi : S'.sched.inflight = S.sched.inflight)
    (hq : S'.sched.queues = S.sched.queues) (hsub : S'.submitted = S.submitted)
    (hst : S'.started = S.started) : S'.Sound where
  coherent := hc
  running_nodup := hr ▸ h.running_nodup
  running_inflight k := by rw [hr, hi]; exact h.running_inflight k
  history k := by
    have hk := h.history k
    simp only [submittedFor, startedFor, WakeScheduler.queue] at hk ⊢
    rw [hsub, hst, hq, hk]

theorem Sound.claim {M : System} {jobs : List (String × Job)} {s' : WakeScheduler}
    (h : M.Sound) (h' : s'.Coherent) (hp : M.sched.Pumped jobs s') (key : String) :
    (M.claim key jobs s').Sound :=
  (h.hand h' hp).of_frame (WakeScheduler.claimNotification_coherent h' key) rfl rfl rfl rfl rfl

theorem beforePump_lanes {S M : System} {l : Label} {key : String}
    (h : S.beforePump l = some (key, M)) : M.sched.lanes = S.sched.lanes := by
  rcases beforePump_cases h with ⟨job, -, -, rfl⟩ | ⟨i, job, -, -, rfl⟩
  · simp only [WakeScheduler.enqueue]
    split <;> rfl
  · simp only [WakeScheduler.release]
    split <;> rfl

/-- **The step lemma.** -/
theorem Sound.next {S S' : System} {l : Label} (h : S.Sound) (hs : S.step l = some S') :
    S'.Sound := by
  rcases step_cases hs with ⟨key, M, hM, hpc⟩ | ⟨i, key, t, -, hcase⟩
  · have hMs := h.beforePump hM
    obtain ⟨jobs, s', hpc', h', -, hp⟩ := pumpAndClaim_spec hMs.coherent key
    obtain rfl : M.claim key jobs s' = S' := Option.some.inj (hpc'.symm.trans hpc)
    exact hMs.claim h' hp key
  · rcases hcase with ⟨-, -, rfl⟩ | ⟨-, rfl⟩ | ⟨-, rfl⟩
    · exact h.of_frame h.coherent rfl rfl rfl rfl rfl
    · exact h.of_frame h.coherent rfl rfl rfl rfl rfl
    · obtain ⟨-, hq, -, -, hi⟩ := S.sched.settleNotification_frame key t.number
      exact h.of_frame (WakeScheduler.settleNotification_coherent h.coherent key t.number)
        rfl hi hq rfl rfl

theorem Sound.step {S S' : System} {l : Label} (h : S.Sound) (hb : S.sched.Busy)
    (hs : S.step l = some S') : S'.Sound ∧ S'.sched.Busy ∧ S'.sched.lanes = S.sched.lanes := by
  refine ⟨h.next hs, ?_⟩
  rcases step_cases hs with ⟨key, M, hM, hpc⟩ | ⟨i, key, t, -, hcase⟩
  · obtain ⟨jobs, s', hpc', -, hb', hp⟩ := pumpAndClaim_spec (h.beforePump hM).coherent key
    obtain rfl : M.claim key jobs s' = S' := Option.some.inj (hpc'.symm.trans hpc)
    exact ⟨hb', hp.lanes.trans (beforePump_lanes hM)⟩
  · rcases hcase with ⟨-, -, rfl⟩ | ⟨-, rfl⟩ | ⟨-, rfl⟩
    · exact ⟨hb, rfl⟩
    · exact ⟨hb, rfl⟩
    · obtain ⟨hl, -, hr, -, hi⟩ := S.sched.settleNotification_frame key t.number
      refine ⟨?_, hl⟩
      simpa only [WakeScheduler.Busy, hl, hr, hi] using hb

/-- The run lemma: every interleaving keeps it. -/
theorem sound_of_run {lanes : ℕ} {hl : 1 ≤ lanes} {ls : List Label} {S : System}
    (h : Steps step (start lanes hl) ls S) :
    S.Sound ∧ S.sched.Busy ∧ S.sched.lanes = lanes := by
  refine h.invariant (I := fun S => S.Sound ∧ S.sched.Busy ∧ S.sched.lanes = lanes) ?_
    ⟨start_sound lanes hl, Or.inr rfl, rfl⟩
  rintro S l S' ⟨hS, hb, hlanes⟩ hs
  obtain ⟨h1, h2, h3⟩ := hS.step hb hs
  exact ⟨h1, h2, h3.trans hlanes⟩

/-! ## 3. The guarantees -/

/-- No interleaving makes a section raise: whatever the state reached, `submit` completes, and
so does the bookkeeping of every running job. -/
theorem section_completes {lanes : ℕ} {hl : 1 ≤ lanes} {ls : List Label} {S : System}
    (h : Steps step (start lanes hl) ls S) :
    (∀ job, ∃ S', S.step (.submit job) = some S') ∧
      ∀ i < S.running.length, ∃ S', S.step (.complete i) = some S' := by
  have hsection : ∀ {l key M}, S.beforePump l = some (key, M) → ∃ S', S.step l = some S' := by
    intro l key M hb
    obtain ⟨jobs, s', hp, -⟩ :=
      pumpAndClaim_spec ((sound_of_run h).1.beforePump hb).coherent key
    exact ⟨_, (step_of_beforePump hb).trans hp⟩
  constructor
  · intro job
    exact hsection (rfl : S.beforePump (.submit job) = _)
  · intro i hi
    have hb : S.beforePump (.complete i) = some (S.running[i].1, { S with
        sched := S.sched.release S.running[i].1, running := S.running.eraseIdx i }) := by
      simp [System.beforePump, List.getElem?_eq_getElem hi]
    exact hsection hb

/-- What the scheduler promises of a state it can be in, for `lanes` lanes. -/
structure Safe (lanes : ℕ) (S : System) : Prop where
  /-- at most `lanes` agents are in flight -/
  lanes_bound : S.sched.inflight.card ≤ lanes
  /-- no agent has two jobs running -/
  single_flight : (S.running.map Prod.fst).Nodup
  /-- the agents with a job running are those in flight -/
  running_inflight : ∀ k, k ∈ S.running.map Prod.fst ↔ k ∈ S.sched.inflight
  /-- the rotation holds nobody twice -/
  ready_nodup : S.sched.ready.Nodup
  /-- the ready set mirrors the rotation -/
  mirror : ∀ k, k ∈ S.sched.readySet ↔ k ∈ S.sched.ready
  /-- nobody in the rotation is in flight -/
  ready_free : ∀ k ∈ S.sched.ready, k ∉ S.sched.inflight
  /-- everybody with queued work is in the rotation or in flight -/
  not_forgotten : ∀ k, S.sched.queue k ≠ [] → k ∈ S.sched.ready ∨ k ∈ S.sched.inflight
  /-- no lane is free while somebody waits -/
  work_conserving : S.sched.inflight.card = lanes ∨ S.sched.ready = []
  /-- what was submitted for an agent is what was started for it, in that order, followed by
  what is queued for it -/
  in_order : ∀ k, S.submittedFor k = S.startedFor k ++ S.sched.queue k
  /-- a job is started under its own agent's key -/
  own_key : ∀ p ∈ S.started, p.2.key = p.1

/-- **Scheduler safety**, for every number of lanes and every interleaving. -/
theorem scheduler_safe {lanes : ℕ} {hl : 1 ≤ lanes} {ls : List Label} {S : System}
    (h : Steps step (start lanes hl) ls S) : S.Safe lanes := by
  obtain ⟨hs, hb, hlanes⟩ := sound_of_run h
  refine ⟨hlanes ▸ hs.coherent.lanes_bound, hs.running_nodup, hs.running_inflight,
    hs.coherent.ready_nodup, hs.coherent.mirror, hs.coherent.ready_free,
    hs.coherent.queued_scheduled, hlanes ▸ hb, hs.history, ?_⟩
  intro p hp
  have hmem : p.2 ∈ S.startedFor p.1 :=
    List.mem_map.mpr ⟨p, List.mem_filter.mpr ⟨hp, by simp⟩, rfl⟩
  have hsub : p.2 ∈ S.submittedFor p.1 := by
    rw [hs.history]
    exact List.mem_append_left _ hmem
  simpa using (List.mem_filter.mp hsub).2

/-- One lane, two agents: the first runs, and a second job for it waits behind the other. -/
theorem scheduler_safe_one_lane :
    ∃ S, Steps step (start 1 le_rfl)
        [.submit .alice, .submit .bob, .submit .alice, .complete 0] S ∧
      S.sched.ready = ["alice"] ∧ S.Safe 1 := by
  obtain ⟨S, hrun, hready⟩ := Option.map_eq_some_iff.mp
    (by decide : (Steps.run step (start 1 le_rfl)
      [.submit .alice, .submit .bob, .submit .alice, .complete 0]).map (·.sched.ready) =
        some ["alice"])
  exact ⟨S, .of_run hrun, hready, scheduler_safe (.of_run hrun)⟩

end System

end BasecradleRouter.Scheduler
