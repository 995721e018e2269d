/-
# The scheduler's joint invariant, section by section

`Coherent` ties the queues, the rotation, its mirror set and the in-flight set together.  It
holds wherever the condition is held or free, except inside one turn of the pump's loop.
`Busy` is what the pump establishes on top of it: the lanes are full or nobody is ready.

Each operation has one lemma.  `pump_spec` is the one the rest leans on: on a coherent state
the pump never meets an empty queue, and `Pumped` says everything it changed.
-/
import BasecradleRouter.Scheduler.State
import Mathlib.Data.Finset.Dedup
import Mathlib.Data.Finset.Lattice.Lemmas

namespace BasecradleRouter.Scheduler.WakeScheduler

open BasecradleRouter.Lib

/-- **The joint invariant.** -/
structure Coherent (s : WakeScheduler) : Prop where
  ready_nodup : s.ready.Nodup
  mirror : ∀ k, k ∈ s.readySet ↔ k ∈ s.ready
  ready_free : ∀ k ∈ s.ready, k ∉ s.inflight
  ready_queued : ∀ k ∈ s.ready, s.queue k ≠ []
  queued_scheduled : ∀ k, s.queue k ≠ [] → k ∈ s.ready ∨ k ∈ s.inflight
  no_residue : ∀ k, s.queues.get k ≠ some []
  lanes_bound : s.inflight.card ≤ s.lanes

/-- No lane is free while somebody waits. -/
def Busy (s : WakeScheduler) : Prop := s.inflight.card = s.lanes ∨ s.ready = []

/-! ## 1. Queues under updates -/

theorem addJob_queue (s : WakeScheduler) (job : Job) (k : String) :
    (s.addJob job).queue k = if k = job.key then s.queue job.key ++ [job] else s.queue k := by
  simp only [queue, addJob, Dict.get_set]
  split <;> rfl

theorem queue_eq_nil {s : WakeScheduler} (h : ∀ k, s.queues.get k ≠ some []) (k : String) :
    s.queue k = [] ↔ s.queues.get k = none := by
  unfold queue
  cases hq : s.queues.get k with
  | none => simp
  | some q =>
    have hne : q ≠ [] := fun h0 => h k (by rw [hq, h0])
    simp [hne]

/-! ## 2. The bookkeeping before a pump -/

theorem new_coherent (lanes : ℕ) (h : 1 ≤ lanes) : (new lanes h).Coherent where
  ready_nodup := List.nodup_nil
  mirror := by simp [new]
  ready_free := by simp [new]
  ready_queued := by simp [new]
  queued_scheduled := by simp [new, queue]
  no_residue := by simp [new]
  lanes_bound := by simp [new]

/-- An agent with work that neither runs nor waits may join the rotation: what the invariant
asks of everybody else is enough. -/
theorem pushReady_coherent {s : WakeScheduler} {key : String} (hnodup : s.ready.Nodup)
    (hmirror : ∀ k, k ∈ s.readySet ↔ k ∈ s.ready) (hfree : ∀ k ∈ s.ready, k ∉ s.inflight)
    (hqueued : ∀ k ∈ s.ready, s.queue k ≠ [])
    (hsched : ∀ k, k ≠ key → s.queue k ≠ [] → k ∈ s.ready ∨ k ∈ s.inflight)
    (hres : ∀ k, s.queues.get k ≠ some []) (hlanes : s.inflight.card ≤ s.lanes)
    (hwork : s.queue key ≠ []) (hrun : key ∉ s.inflight) (hwait : key ∉ s.readySet) :
    (s.pushReady key).Coherent where
  ready_nodup := by
    have hnew : key ∉ s.ready := fun h => hwait ((hmirror key).mpr h)
    simpa [pushReady, List.nodup_append, hnodup] using fun k hk (h0 : k = key) => hnew (h0 ▸ hk)
  mirror k := by
    simp only [pushReady, Finset.mem_insert, hmirror, List.mem_append, List.mem_singleton]
    tauto
  ready_free k hk := by
    rcases List.mem_append.mp hk with hk | hk
    · exact hfree k hk
    · rw [List.mem_singleton.mp hk]; exact hrun
  ready_queued k hk := by
    rcases List.mem_append.mp hk with hk | hk
    · exact hqueued k hk
    · rw [List.mem_singleton.mp hk]; exact hwork
  queued_scheduled k hk := by
    by_cases h0 : k = key
    · exact Or.inl (by simp [pushReady, h0])
    · rcases hsched k h0 hk with h1 | h1
      · exact Or.inl (by simp [pushReady, h1])
      · exact Or.inr h1
  no_residue := hres
  lanes_bound := hlanes

theorem enqueue_queue (s : WakeScheduler) (job : Job) (k : String) :
    (s.enqueue job).queue k = if k = job.key then s.queue job.key ++ [job] else s.queue k := by
  rw [← addJob_queue]
  unfold enqueue
  split <;> rfl

theorem enqueue_inflight (s : WakeScheduler) (job : Job) :
    (s.enqueue job).inflight = s.inflight := by
  unfold enqueue
  split <;> rfl

theorem enqueue_coherent {s : WakeScheduler} (h : s.Coherent) (job : Job) :
    (s.enqueue job).Coherent := by
  have hres : ∀ k, (s.addJob job).queues.get k ≠ some [] := by
    intro k
    rw [addJob, Dict.get_set]
    split
    · simp
    · exact h.no_residue k
  have hqueued : ∀ k ∈ s.ready, (s.addJob job).queue k ≠ [] := by
    intro k hk
    rw [addJob_queue]
    split
    · simp
    · exact h.ready_queued k hk
  have hsched : ∀ k, k ≠ job.key → (s.addJob job).queue k ≠ [] →
      k ∈ s.ready ∨ k ∈ s.inflight := by
    intro k hk hne
    rw [addJob_queue, if_neg hk] at hne
    exact h.queued_scheduled k hne
  unfold enqueue
  split
  · rename_i hnew
    exact pushReady_coherent h.ready_nodup h.mirror h.ready_free hqueued hsched hres
      h.lanes_bound (by simp [addJob_queue]) hnew.1 hnew.2
  · rename_i hold
    refine ⟨h.ready_nodup, h.mirror, h.ready_free, hqueued, ?_, hres, h.lanes_bound⟩
    intro k hne
    by_cases hk : k = job.key
    · -- already running or already in the rotation: that is why it was not pushed
      subst hk
      by_cases hrun : job.key ∈ s.inflight
      · exact Or.inr hrun
      · exact Or.inl ((h.mirror _).mp (by_contra fun h0 => hold ⟨hrun, h0⟩))
    · exact hsched k hk hne

theorem release_queue (s : WakeScheduler) (key k : String) :
    (s.release key).queue k = s.queue k := by
  unfold release
  split <;> rfl

theorem release_inflight (s : WakeScheduler) (key : String) :
    (s.release key).inflight = s.inflight.erase key := by
  unfold release
  split <;> rfl

theorem release_coherent {s : WakeScheduler} (h : s.Coherent) {key : String}
    (hrun : key ∈ s.inflight) : (s.release key).Coherent := by
  have hout : key ∉ s.ready := fun h0 => h.ready_free key h0 hrun
  have hfree : ∀ k ∈ s.ready, k ∉ s.inflight.erase key :=
    fun k hk h0 => h.ready_free k hk (Finset.mem_of_mem_erase h0)
  have hsched : ∀ k, k ≠ key → s.queue k ≠ [] → k ∈ s.ready ∨ k ∈ s.inflight.erase key := by
    intro k hk hne
    rcases h.queued_scheduled k hne with h0 | h0
    · exact Or.inl h0
    · exact Or.inr (Finset.mem_erase.mpr ⟨hk, h0⟩)
  have hlanes : (s.inflight.erase key).card ≤ s.lanes :=
    (Finset.card_erase_le).trans h.lanes_bound
  unfold release
  split
  · rename_i hmore
    exact pushReady_coherent h.ready_nodup h.mirror hfree h.ready_queued hsched h.no_residue
      hlanes hmore.1 (by simp [freeLane]) hmore.2
  · rename_i hdone
    refine ⟨h.ready_nodup, h.mirror, hfree, h.ready_queued, ?_, h.no_residue, hlanes⟩
    intro k hne
    by_cases hk : k = key
    · subst hk
      exact absurd ⟨hne, fun h0 => hout ((h.mirror k).mp h0)⟩ hdone
    · exact hsched k hk hne

/-! ## 3. The pump -/

theorem takeLane_queue (s : WakeScheduler) (key : String) (ready : List String)
    (rest : List Job) (k : String) :
    (s.takeLane key ready rest).queue k = if k = key then rest else s.queue k := by
  simp only [queue, takeLane]
  split <;> by_cases hk : k = key <;> simp [*]

/-- Everything a pump changes: it handed `jobs` to the pool, each the head of its agent's
queue, taking the agents off the front of the rotation in order. -/
structure Pumped (s : WakeScheduler) (jobs : List (String × Job)) (s' : WakeScheduler) : Prop where
  lanes : s'.lanes = s.lanes
  ready : s.ready = jobs.map Prod.fst ++ s'.ready
  inflight : s'.inflight = s.inflight ∪ (jobs.map Prod.fst).toFinset
  queue : ∀ k, s.queue k = (jobs.filter (·.1 = k)).map Prod.snd ++ s'.queue k
  pending : ∀ k, s'.pending k = s.pending k
  notifying : s'.notifying = s.notifying
  notifySeq : s'.notifySeq = s.notifySeq
  notifyTurn : s'.notifyTurn = s.notifyTurn

theorem Pumped.refl (s : WakeScheduler) : s.Pumped [] s := by
  constructor <;> simp

/-- The head of the rotation has work, and its first job is what a turn of the loop takes. -/
theorem Coherent.head {s : WakeScheduler} (h : s.Coherent) {key : String} {ready : List String}
    (hready : s.ready = key :: ready) :
    ∃ job rest, s.queues.get key = some (job :: rest) ∧ s.queue key = job :: rest := by
  have hwork : s.queue key ≠ [] := h.ready_queued key (by simp [hready])
  cases hget : s.queues.get key with
  | none => exact absurd ((queue_eq_nil h.no_residue key).mpr hget) hwork
  | some q =>
    cases q with
    | nil => exact absurd hget (h.no_residue key)
    | cons job rest => exact ⟨job, rest, rfl, by simp [queue, hget]⟩

/-- The head may take a free lane: it keeps its backlog in the queue, if it has one, and is no
longer in the rotation. -/
theorem takeLane_coherent {s : WakeScheduler} (h : s.Coherent) {key : String}
    {ready : List String} (hready : s.ready = key :: ready) (hfree : s.inflight.card < s.lanes)
    (rest : List Job) : (s.takeLane key ready rest).Coherent := by
  have hnodup := h.ready_nodup
  rw [hready, List.nodup_cons] at hnodup
  have hrun : key ∉ s.inflight := h.ready_free key (by simp [hready])
  have hne : ∀ k ∈ ready, k ≠ key := fun k hk h0 => hnodup.1 (h0 ▸ hk)
  have hold : ∀ k ∈ ready, k ∈ s.ready := fun k hk => by simp [hready, hk]
  refine ⟨hnodup.2, ?_, ?_, ?_, ?_, ?_, ?_⟩
  · intro k
    simp only [takeLane, Finset.mem_erase, h.mirror, hready, List.mem_cons]
    constructor
    · rintro ⟨hk, rfl | h0⟩
      · exact absurd rfl hk
      · exact h0
    · exact fun h0 => ⟨hne k h0, Or.inr h0⟩
  · intro k hk
    simpa [takeLane, hne k hk] using h.ready_free k (hold k hk)
  · intro k hk
    rw [takeLane_queue, if_neg (hne k hk)]
    exact h.ready_queued k (hold k hk)
  · intro k hk
    by_cases h0 : k = key
    · exact Or.inr (by simp [takeLane, h0])
    · rw [takeLane_queue, if_neg h0] at hk
      rcases h.queued_scheduled k hk with h1 | h1
      · rw [hready, List.mem_cons] at h1
        exact Or.inl (h1.resolve_left h0)
      · exact Or.inr (Finset.mem_insert_of_mem h1)
  · intro k
    simp only [takeLane]
    split
    · rw [Dict.get_del]
      split
      · simp
      · exact h.no_residue k
    · rename_i hrest
      rw [Dict.get_set]
      split
      · simpa using hrest
      · exact h.no_residue k
  · simp only [takeLane, Finset.card_insert_of_notMem hrun]
    omega

/-- Taking a lane is a pump of one job. -/
theorem takeLane_pumped {s : WakeScheduler} {key : String} {ready : List String} {job : Job}
    {rest : List Job} (hready : s.ready = key :: ready) (hqueue : s.queue key = job :: rest)
    (hrun : key ∉ s.inflight) : s.Pumped [(key, job)] (s.takeLane key ready rest) := by
  refine ⟨rfl, by simp [takeLane, hready], by ext; simp [takeLane], ?_, ?_, rfl, rfl, rfl⟩
  · intro k
    rw [takeLane_queue]
    by_cases hk : k = key
    · simp [hk, hqueue]
    · simp [hk, Ne.symm hk]
  · intro k
    simp only [pending]
    rw [takeLane_queue]
    by_cases hk : k = key
    · simp [takeLane, hk, hqueue, hrun]
    · simp [takeLane, hk]

theorem Pumped.cons {s s₁ s' : WakeScheduler} {key : String} {job : Job}
    {jobs : List (String × Job)} (h : s.Pumped [(key, job)] s₁) (h' : s₁.Pumped jobs s') :
    s.Pumped ((key, job) :: jobs) s' where
  lanes := h'.lanes.trans h.lanes
  ready := by rw [h.ready, h'.ready]; simp
  inflight := by
    rw [h'.inflight, h.inflight]
    ext
    simp
  queue k := by
    rw [h.queue k, h'.queue k]
    by_cases hk : key = k <;> simp [hk]
  pending k := (h'.pending k).trans (h.pending k)
  notifying := h'.notifying.trans h.notifying
  notifySeq := h'.notifySeq.trans h.notifySeq
  notifyTurn := h'.notifyTurn.trans h.notifyTurn

/-- **The pump.**  It never raises on a coherent state, and ends with the lanes full or the
rotation empty. -/
theorem pump_spec : ∀ {ready : List String} {s : WakeScheduler}, s.Coherent → s.ready = ready →
    ∃ jobs s', s.pump ready = some (jobs, s') ∧ s'.Coherent ∧ s'.Busy ∧ s.Pumped jobs s'
  | [], s, h, hready => ⟨[], s, rfl, h, Or.inr hready, .refl s⟩
  | key :: ready, s, h, hready => by
    by_cases hfree : s.inflight.card < s.lanes
    · obtain ⟨job, rest, hget, hqueue⟩ := h.head hready
      have hrun : key ∉ s.inflight := h.ready_free key (by simp [hready])
      have hp := takeLane_pumped hready hqueue hrun
      obtain ⟨jobs, s', hpump, h', hb, hp'⟩ :=
        pump_spec (takeLane_coherent h hready hfree rest) rfl
      refine ⟨(key, job) :: jobs, s', ?_, h', hb, hp.cons hp'⟩
      have hd : s.dispatch key ready = some (job, s.takeLane key ready rest) := by
        simp [dispatch, hget]
      have hpump' : (s.takeLane key ready rest).pump ready = some (jobs, s') := hpump
      simp [pump, hfree, hd, hpump']
    · refine ⟨[], s, by simp [pump, hfree], h, Or.inl ?_, .refl s⟩
      have := h.lanes_bound
      omega

/-- `_pump_locked` as a whole. -/
theorem pumpLocked_spec {s : WakeScheduler} (h : s.Coherent) :
    ∃ jobs s', s.pumpLocked = some (jobs, s') ∧ s'.Coherent ∧ s'.Busy ∧ s.Pumped jobs s' := by
  obtain ⟨jobs, s', hp, h', hb, hpumped⟩ := pump_spec h rfl
  refine ⟨jobs, s'.noteSaturation, by simp [pumpLocked, hp], ?_, hb, ?_⟩
  · exact ⟨h'.ready_nodup, h'.mirror, h'.ready_free, h'.ready_queued, h'.queued_scheduled,
      h'.no_residue, h'.lanes_bound⟩
  · exact ⟨hpumped.lanes, hpumped.ready, hpumped.inflight, hpumped.queue, hpumped.pending,
      hpumped.notifying, hpumped.notifySeq, hpumped.notifyTurn⟩

/-- The agents a pump takes were waiting, each once and none of them running. -/
theorem Pumped.keys_nodup {s s' : WakeScheduler} {jobs : List (String × Job)}
    (h : s.Coherent) (hp : s.Pumped jobs s') : (jobs.map Prod.fst).Nodup := by
  have hn := h.ready_nodup
  rw [hp.ready] at hn
  exact (List.nodup_append.mp hn).1

theorem Pumped.keys_free {s s' : WakeScheduler} {jobs : List (String × Job)}
    (h : s.Coherent) (hp : s.Pumped jobs s') : ∀ k ∈ jobs.map Prod.fst, k ∉ s.inflight :=
  fun k hk => h.ready_free k (by rw [hp.ready]; exact List.mem_append_left _ hk)

/-! ## 4. Notification bookkeeping touches nothing else -/

theorem claimNotification_coherent {s : WakeScheduler} (h : s.Coherent) (key : String) :
    (s.claimNotification key).2.Coherent :=
  ⟨h.ready_nodup, h.mirror, h.ready_free, h.ready_queued, h.queued_scheduled, h.no_residue,
    h.lanes_bound⟩

/-- What settling a notification leaves alone. -/
theorem settleNotification_frame (s : WakeScheduler) (key : String) (ticket : ℕ) :
    (s.settleNotification key ticket).lanes = s.lanes ∧
      (s.settleNotification key ticket).queues = s.queues ∧
      (s.settleNotification key ticket).ready = s.ready ∧
      (s.settleNotification key ticket).readySet = s.readySet ∧
      (s.settleNotification key ticket).inflight = s.inflight := by
  unfold settleNotification
  split <;> exact ⟨rfl, rfl, rfl, rfl, rfl⟩

theorem settleNotification_coherent {s : WakeScheduler} (h : s.Coherent) (key : String)
    (ticket : ℕ) : (s.settleNotification key ticket).Coherent := by
  unfold settleNotification
  split <;>
    exact ⟨h.ready_nodup, h.mirror, h.ready_free, h.ready_queued, h.queued_scheduled,
      h.no_residue, h.lanes_bound⟩

end BasecradleRouter.Scheduler.WakeScheduler
