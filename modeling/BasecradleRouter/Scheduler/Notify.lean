/-
# Queue-depth notifications

Each agent's notifications are a `TicketLine`: `lineFor` projects a system to one agent's line,
and every step of every thread moves it by a move of the line (`step_line`), or leaves it
alone.  The line's laws then say that an agent's pending counts reach the observer in the order
they were read, that one outstanding notification holds the turn, and that a line which empties
leaves no counter behind.

Two more facts tie the lines to the scheduler: the third counter is the number of outstanding
notifications, and the last count read for an agent is still its true one (`Counted`).
-/
import BasecradleRouter.Lib.TicketLine
import BasecradleRouter.Scheduler.Safety

namespace BasecradleRouter.Scheduler

open BasecradleRouter.Lib

namespace System

/-- One agent's line of notifications. -/
def lineFor (S : System) (k : String) : TicketLine ℕ where
  seq := S.sched.notifySeq.get k
  turn := S.sched.notifyTurn.get k
  line := S.notesFor k
  claimed := S.claimedFor k
  delivered := S.observedFor k

/-- The test a waiting thread waits for is that its number is being served. -/
theorem isTurn_eq (S : System) (k : String) (n : ℕ) :
    S.sched.isTurn k n = ((S.lineFor k).serving == n) := rfl

/-! ## 1. One entry among the outstanding ones -/

/-- A list is what stands before its `i`-th entry, the entry, and what stands after. -/
theorem split_at {α : Type*} {l : List α} {i : ℕ} {x : α} (h : l[i]? = some x) :
    l = l.take i ++ x :: l.drop (i + 1) ∧ (∀ y, l.set i y = l.take i ++ y :: l.drop (i + 1)) ∧
      l.eraseIdx i = l.take i ++ l.drop (i + 1) := by
  obtain ⟨hlt, hx⟩ := List.getElem?_eq_some_iff.mp h
  refine ⟨?_, fun y => ?_, List.eraseIdx_eq_take_drop_succ l i⟩
  · rw [← hx, List.getElem_cons_drop, List.take_append_drop]
  · rw [List.set_eq_take_append_cons_drop, if_pos hlt]

/-- One agent's part of a list of outstanding notifications. -/
def pick (k : String) (notes : List (String × Ticket ℕ)) : List (Ticket ℕ) :=
  (notes.filter (·.1 = k)).map Prod.snd

/-- Where an agent's own notification stands in its line, and what replacing or removing it
there does. -/
theorem pick_self {notes : List (String × Ticket ℕ)} {i : ℕ} {k : String} {t : Ticket ℕ}
    (h : notes[i]? = some (k, t)) :
    ∃ pre post, pick k notes = pre ++ t :: post ∧
      (∀ t', pick k (notes.set i (k, t')) = pre ++ t' :: post) ∧
      pick k (notes.eraseIdx i) = pre ++ post := by
  obtain ⟨hsplit, hset, herase⟩ := split_at h
  refine ⟨pick k (notes.take i), pick k (notes.drop (i + 1)), ?_, fun t' => ?_, ?_⟩
  · conv_lhs => rw [hsplit]
    simp [pick]
  · rw [hset]
    simp [pick]
  · rw [herase]
    simp [pick]

/-- Another agent's line does not see it. -/
theorem pick_other {notes : List (String × Ticket ℕ)} {i : ℕ} {k key : String} {t : Ticket ℕ}
    (h : notes[i]? = some (key, t)) (hk : key ≠ k) :
    (∀ t', pick k (notes.set i (key, t')) = pick k notes) ∧
      pick k (notes.eraseIdx i) = pick k notes := by
  obtain ⟨hsplit, hset, herase⟩ := split_at h
  have hnotes : pick k notes = pick k (notes.take i) ++ pick k (notes.drop (i + 1)) := by
    conv_lhs => rw [hsplit]
    simp [pick, hk]
  refine ⟨fun t' => ?_, ?_⟩
  · rw [hset, hnotes]
    simp [pick, hk]
  · rw [herase, hnotes]
    simp [pick]

/-! ## 2. Every step moves every line -/

theorem beforePump_notify {S M : System} {l : Label} {key : String}
    (h : S.beforePump l = some (key, M)) :
    M.sched.notifySeq = S.sched.notifySeq ∧ M.sched.notifyTurn = S.sched.notifyTurn ∧
      M.sched.notifying = S.sched.notifying ∧ M.notes = S.notes ∧ M.claimed = S.claimed ∧
      M.observed = S.observed := by
  rcases beforePump_cases h with ⟨job, -, -, rfl⟩ | ⟨i, job, -, -, rfl⟩
  · rw [WakeScheduler.enqueue]
    split <;> exact ⟨rfl, rfl, rfl, rfl, rfl, rfl⟩
  · rw [WakeScheduler.release]
    split <;> exact ⟨rfl, rfl, rfl, rfl, rfl, rfl⟩

/-- A section claims a number on its own agent's line and touches no other. -/
theorem claim_line {S M : System} {l : Label} {key : String} {jobs : List (String × Job)}
    {s' : WakeScheduler} (hM : S.beforePump l = some (key, M)) (hp : M.sched.Pumped jobs s')
    (k : String) :
    Relation.ReflTransGen TicketLine.Move (S.lineFor k) ((M.claim key jobs s').lineFor k) := by
  obtain ⟨hseq, hturn, -, hnotes, hclaimed, hobs⟩ := beforePump_notify hM
  have hseq' : s'.notifySeq = S.sched.notifySeq := hp.notifySeq.trans hseq
  have hturn' : s'.notifyTurn = S.sched.notifyTurn := hp.notifyTurn.trans hturn
  by_cases hk : key = k
  · subst hk
    have hmove := TicketLine.Move.claim (S.lineFor key) (s'.pending key)
    have hline : (M.claim key jobs s').lineFor key = { S.lineFor key with
        seq := some ((S.lineFor key).seq.getD 0 + 1)
        line := (S.lineFor key).line ++ [⟨(S.lineFor key).seq.getD 0, s'.pending key, .waiting⟩]
        claimed := (S.lineFor key).claimed ++ [s'.pending key] } := by
      simp [lineFor, claim, WakeScheduler.claimNotification, notesFor, claimedFor, observedFor,
        hseq', hturn', hnotes, hclaimed, hobs]
    rw [hline]
    exact .single hmove
  · have hline : (M.claim key jobs s').lineFor k = S.lineFor k := by
      simp [lineFor, claim, WakeScheduler.claimNotification, notesFor, claimedFor, observedFor,
        hseq', hturn', hnotes, hclaimed, hobs, hk, Ne.symm hk]
    rw [hline]

/-- Settling moves the turn on, or drops both counters after the last number out. -/
theorem settle_get (s : WakeScheduler) (key : String) (n : ℕ) (k : String) :
    (s.settleNotification key n).notifySeq.get k =
        (if k = key ∧ some (n + 1) = s.notifySeq.get key then none else s.notifySeq.get k) ∧
      (s.settleNotification key n).notifyTurn.get k =
        if k = key then if some (n + 1) = s.notifySeq.get key then none else some (n + 1)
        else s.notifyTurn.get k := by
  unfold WakeScheduler.settleNotification
  split
  · by_cases hk : k = key <;> simp [*]
  · by_cases hk : k = key <;> simp [*]

/-- **The step lemma**: each agent's line makes a move, or stays. -/
theorem step_line {S S' : System} {l : Label} (h : S.Sound) (hs : S.step l = some S')
    (k : String) : Relation.ReflTransGen TicketLine.Move (S.lineFor k) (S'.lineFor k) := by
  rcases step_cases hs with ⟨key, M, hM, hpc⟩ | ⟨i, key, t, hi, hcase⟩
  · obtain ⟨jobs, s', hpc', -, -, hp⟩ := pumpAndClaim_spec (h.beforePump hM).coherent key
    obtain rfl : M.claim key jobs s' = S' := Option.some.inj (hpc'.symm.trans hpc)
    exact claim_line hM hp k
  · by_cases hk : key = k
    · subst hk
      obtain ⟨pre, post, hline, hset, herase⟩ := pick_self hi
      rcases hcase with ⟨hw, hturn, rfl⟩ | ⟨hc, rfl⟩ | ⟨ht, rfl⟩
      · have hserving : (S.lineFor key).serving = t.number := by
          simpa [isTurn_eq] using hturn
        have hmove := TicketLine.Move.call (S.lineFor key) pre post t hline hw hserving
        rw [← hset] at hmove
        exact .single hmove
      · have hmove := TicketLine.Move.tell (S.lineFor key) pre post t hline hc
        rw [← hset] at hmove
        refine .single ?_
        convert hmove using 1
        simp [lineFor, observedFor, notesFor, claimedFor, pick]
      · have hmove := TicketLine.Move.settle (S.lineFor key) pre post t hline ht
        rw [← herase] at hmove
        refine .single ?_
        convert hmove using 1
        obtain ⟨hseq, hturn⟩ := settle_get S.sched key t.number key
        simp only [lineFor, hseq, hturn]
        split <;> simp_all [claimedFor, observedFor, notesFor, pick]
    · obtain ⟨hset, herase⟩ := pick_other hi hk
      suffices hsame : S'.lineFor k = S.lineFor k by rw [hsame]
      rcases hcase with ⟨-, -, rfl⟩ | ⟨-, rfl⟩ | ⟨-, rfl⟩
      · have hnotes := hset { t with phase := .called }
        simp only [pick] at hnotes
        simp [lineFor, notesFor, claimedFor, observedFor, hnotes]
      · have hnotes := hset { t with phase := .told }
        simp only [pick] at hnotes
        simp [lineFor, notesFor, claimedFor, observedFor, hnotes, hk]
      · obtain ⟨hseq, hturn⟩ := settle_get S.sched key t.number k
        simp only [pick] at herase
        simp [lineFor, notesFor, claimedFor, observedFor, herase, hseq, hturn, Ne.symm hk]

/-! ## 3. The third counter and the last count read -/

/-- A section's bookkeeping changes nobody's pending count but its own agent's. -/
theorem beforePump_pending {S M : System} {l : Label} {key : String}
    (h : S.beforePump l = some (key, M)) {k : String} (hk : k ≠ key) :
    M.sched.pending k = S.sched.pending k := by
  rcases beforePump_cases h with ⟨job, -, rfl, rfl⟩ | ⟨i, job, -, -, rfl⟩
  · simp [WakeScheduler.pending, WakeScheduler.enqueue_queue, WakeScheduler.enqueue_inflight, hk]
  · simp [WakeScheduler.pending, WakeScheduler.release_queue, WakeScheduler.release_inflight, hk]

theorem settle_pending (s : WakeScheduler) (key : String) (n : ℕ) (k : String) :
    (s.settleNotification key n).pending k = s.pending k := by
  obtain ⟨-, hq, -, -, hi⟩ := s.settleNotification_frame key n
  simp [WakeScheduler.pending, WakeScheduler.queue, hq, hi]

/-- Every outstanding notification is counted, the last count read for an agent is its true
one, and every submission has been counted. -/
structure Counted (S : System) : Prop where
  notifying : S.sched.notifying = S.notes.length
  last_read : ∀ k, (S.claimedFor k).getLast?.getD 0 = S.sched.pending k
  submitted_read : ∀ job ∈ S.submitted, S.claimedFor job.key ≠ []

theorem claimedFor_claim (M : System) (key : String) (jobs : List (String × Job))
    (s' : WakeScheduler) (k : String) :
    (M.claim key jobs s').claimedFor k =
      if key = k then M.claimedFor k ++ [s'.pending key] else M.claimedFor k := by
  split <;> simp [claimedFor, claim, *]

/-- The third counter counts the outstanding notifications. -/
theorem notifying_step {S S' : System} {l : Label} (h : S.sched.notifying = S.notes.length)
    (hsound : S.Sound) (hs : S.step l = some S') : S'.sched.notifying = S'.notes.length := by
  rcases step_cases hs with ⟨key, M, hM, hpc⟩ | ⟨i, key, t, hi, hcase⟩
  · obtain ⟨jobs, s', hpc', -, -, hp⟩ := pumpAndClaim_spec (hsound.beforePump hM).coherent key
    obtain rfl : M.claim key jobs s' = S' := Option.some.inj (hpc'.symm.trans hpc)
    obtain ⟨-, -, hnotifying, hnotes, -, -⟩ := beforePump_notify hM
    simp [claim, WakeScheduler.claimNotification, hp.notifying, hnotifying, hnotes, h]
  · have hlt : i < S.notes.length := (List.getElem?_eq_some_iff.mp hi).1
    rcases hcase with ⟨-, -, rfl⟩ | ⟨-, rfl⟩ | ⟨-, rfl⟩
    · simp [h]
    · simp [h]
    · have hcount : (S.sched.settleNotification key t.number).notifying =
          S.sched.notifying - 1 := by
        unfold WakeScheduler.settleNotification
        split <;> rfl
      simp [hcount, h, List.length_eraseIdx, hlt]

/-- **The step lemma.** -/
theorem Counted.step {S S' : System} {l : Label} (h : S.Counted) (hsound : S.Sound)
    (hs : S.step l = some S') : S'.Counted := by
  have hnotifying := notifying_step h.notifying hsound hs
  rcases step_cases hs with ⟨key, M, hM, hpc⟩ | ⟨i, key, t, hi, hcase⟩
  · obtain ⟨jobs, s', hpc', -, -, hp⟩ := pumpAndClaim_spec (hsound.beforePump hM).coherent key
    obtain rfl : M.claim key jobs s' = S' := Option.some.inj (hpc'.symm.trans hpc)
    obtain ⟨-, -, -, -, hclaimed, -⟩ := beforePump_notify hM
    have hclaimedFor : ∀ k, M.claimedFor k = S.claimedFor k := fun k => by
      simp [claimedFor, hclaimed]
    refine ⟨hnotifying, ?_, ?_⟩
    · intro k
      have hpend : (M.claim key jobs s').sched.pending k = s'.pending k := rfl
      rw [claimedFor_claim, hpend]
      split
      · rename_i hk
        simp [hk]
      · rename_i hk
        rw [hclaimedFor, h.last_read, hp.pending, beforePump_pending hM (Ne.symm hk)]
    · intro job hjob
      rw [claimedFor_claim]
      split
      · simp
      · rename_i hk
        rw [hclaimedFor]
        rcases beforePump_cases hM with ⟨job', -, rfl, rfl⟩ | ⟨i, job', -, -, rfl⟩
        · rcases List.mem_append.mp hjob with hold | hnew
          · exact h.submitted_read job hold
          · exact absurd (by rw [List.mem_singleton.mp hnew]) hk
        · exact h.submitted_read job hjob
  · rcases hcase with ⟨-, -, rfl⟩ | ⟨-, rfl⟩ | ⟨-, rfl⟩
    · exact ⟨hnotifying, h.last_read, h.submitted_read⟩
    · exact ⟨hnotifying, h.last_read, h.submitted_read⟩
    · refine ⟨hnotifying, fun k => ?_, h.submitted_read⟩
      rw [settle_pending]
      exact h.last_read k

/-- The run lemma: every line is ordered, and everything is counted. -/
theorem notify_of_run {lanes : ℕ} {hl : 1 ≤ lanes} {ls : List Label} {S : System}
    (h : Steps step (start lanes hl) ls S) : S.Counted ∧ ∀ k, (S.lineFor k).Ordered := by
  have hstart : (start lanes hl).Sound ∧ (start lanes hl).sched.Busy :=
    ⟨start_sound lanes hl, Or.inr rfl⟩
  have hnext : ∀ S l S', S.Sound ∧ S.sched.Busy → step S l = some S' →
      S'.Sound ∧ S'.sched.Busy := fun _ _ _ hI hs =>
    ⟨(hI.1.step hI.2 hs).1, (hI.1.step hI.2 hs).2.1⟩
  constructor
  · refine (h.invariant (I := fun S => (S.Sound ∧ S.sched.Busy) ∧ S.Counted) ?_
      ⟨hstart, rfl, fun k => by simp [start, claimedFor, WakeScheduler.pending,
        WakeScheduler.queue, WakeScheduler.new], by simp [start]⟩).2
    exact fun S l S' hI hs => ⟨hnext S l S' hI.1 hs, hI.2.step hI.1.1 hs⟩
  · intro k
    have hmoves := h.abstracts (fun S => S.lineFor k) hnext
      (fun S l S' hI hs => step_line hI.1 hs k) hstart
    exact TicketLine.ordered_empty.moves hmoves

/-! ## 4. The guarantees -/

/-- What is promised of the notifications in a state the scheduler can be in. -/
structure Notified (S : System) : Prop where
  /-- the observer was handed an agent's counts in the order they were read, each once, and
  those still to come are the ones held by the outstanding notifications, in order -/
  in_order : ∀ k, S.claimedFor k = S.observedFor k ++ TicketLine.undelivered (S.notesFor k)
  /-- with none outstanding, the last count handed over is the true one -/
  last_true : ∀ k, S.notesFor k = [] → (S.observedFor k).getLast?.getD 0 = S.sched.pending k
  /-- with some outstanding, exactly one holds the turn -/
  one_turn : ∀ k, S.notesFor k ≠ [] → ∃ t rest, S.notesFor k = t :: rest ∧
    S.sched.isTurn k t.number = true ∧ ∀ u ∈ rest, S.sched.isTurn k u.number = false
  /-- and some outstanding one can move, so no set of them can block each other -/
  progress : ∀ k, S.notesFor k ≠ [] → ∃ i t S', S.notes[i]? = some (k, t) ∧
    (S.step (.takeTurn i) = some S' ∨ (∀ raised, S.step (.observe i raised) = some S') ∨
      S.step (.settle i) = some S')
  /-- when the drain's predicate holds, nothing is left behind and every agent that was ever
  submitted for was last reported empty -/
  drained : S.sched.idle = true →
    (∀ job ∈ S.submitted, (S.observedFor job.key).getLast? = some 0) ∧
      S.sched.notifySeq = Dict.empty ∧ S.sched.notifyTurn = Dict.empty ∧
      S.sched.queues = Dict.empty ∧ S.sched.ready = []

/-- The notification that holds the turn can move. -/
theorem head_moves {S : System} {k : String} {t : Ticket ℕ} {rest : List (Ticket ℕ)}
    (hline : S.notesFor k = t :: rest) (hturn : S.sched.isTurn k t.number = true) :
    ∃ i t S', S.notes[i]? = some (k, t) ∧
      (S.step (.takeTurn i) = some S' ∨ (∀ raised, S.step (.observe i raised) = some S') ∨
        S.step (.settle i) = some S') := by
  have hmem : t ∈ S.notesFor k := by simp [hline]
  obtain ⟨⟨key, u⟩, hfilter, rfl⟩ := List.mem_map.mp hmem
  obtain ⟨hnote, hkey⟩ := List.mem_filter.mp hfilter
  obtain rfl : key = k := by simpa using hkey
  obtain ⟨i, hi⟩ := List.getElem?_of_mem hnote
  cases hp : u.phase with
  | waiting => exact ⟨i, u, _, hi, Or.inl (by simp only [step, hi, hp, hturn]; rfl)⟩
  | called =>
    exact ⟨i, u, _, hi, Or.inr (Or.inl fun raised => by simp only [step, hi, hp]; rfl)⟩
  | told => exact ⟨i, u, _, hi, Or.inr (Or.inr (by simp only [step, hi, hp]; rfl))⟩

/-- **Queue-depth notifications**, for every interleaving. -/
theorem queue_changes_delivered {lanes : ℕ} {hl : 1 ≤ lanes} {ls : List Label} {S : System}
    (h : Steps step (start lanes hl) ls S) : S.Notified := by
  obtain ⟨hcount, hline⟩ := notify_of_run h
  obtain ⟨hsound, -, -⟩ := sound_of_run h
  have hone : ∀ k, S.notesFor k ≠ [] → ∃ t rest, S.notesFor k = t :: rest ∧
      S.sched.isTurn k t.number = true ∧ ∀ u ∈ rest, S.sched.isTurn k u.number = false := by
    intro k hne
    obtain ⟨t, rest, h1, h2, h3⟩ := (hline k).one_turn hne
    refine ⟨t, rest, h1, ?_, fun u hu => ?_⟩
    · simpa [isTurn_eq] using h2.symm
    · simpa [isTurn_eq] using Ne.symm (h3 u hu)
  have hlast : ∀ k, S.notesFor k = [] → S.observedFor k = S.claimedFor k :=
    fun k hk => ((hline k).settled hk).1
  refine ⟨fun k => (hline k).history, ?_, hone, ?_, ?_⟩
  · intro k hk
    rw [hlast k hk, hcount.last_read]
  · intro k hne
    obtain ⟨t, rest, h1, h2, -⟩ := hone k hne
    exact head_moves h1 h2
  · intro hidle
    simp only [WakeScheduler.idle, Bool.and_eq_true, decide_eq_true_eq, List.isEmpty_iff,
      beq_iff_eq] at hidle
    obtain ⟨⟨hinflight, hready⟩, hnotifying⟩ := hidle
    have hnotes : S.notes = [] := List.length_eq_zero_iff.mp (hcount.notifying ▸ hnotifying)
    have hnone : ∀ k, S.notesFor k = [] := fun k => by simp [notesFor, hnotes]
    have hqueue : ∀ k, S.sched.queue k = [] := by
      intro k
      by_contra hne
      rcases hsound.coherent.queued_scheduled k hne with h0 | h0
      · simp [hready] at h0
      · simp [hinflight] at h0
    refine ⟨?_, ?_, ?_, ?_, hready⟩
    · intro job hjob
      have hread := hcount.last_read job.key
      have hpend : S.sched.pending job.key = 0 := by
        simp [WakeScheduler.pending, hqueue, hinflight]
      rw [hlast _ (hnone _)]
      cases hl : (S.claimedFor job.key).getLast? with
      | none => exact absurd (List.getLast?_eq_none_iff.mp hl) (hcount.submitted_read job hjob)
      | some n =>
        rw [hl, hpend] at hread
        exact congrArg some hread
    · exact Dict.ext fun k => ((hline k).settled (hnone k)).2.1
    · exact Dict.ext fun k => ((hline k).settled (hnone k)).2.2
    · exact Dict.ext fun k =>
        (WakeScheduler.queue_eq_nil hsound.coherent.no_residue k).mp (hqueue k)

/-- One wake, submitted and finished, both its notifications delivered: the drain is over. -/
theorem queue_changes_delivered_one_wake :
    ∃ S, Steps step (start 1 le_rfl)
        [.submit .alice, .complete 0, .takeTurn 0, .observe 0 true, .settle 0, .takeTurn 0,
          .observe 0 false, .settle 0] S ∧
      S.observedFor "alice" = [1, 0] ∧ S.sched.idle = true ∧ S.Notified := by
  obtain ⟨S, hrun, hend⟩ := Option.map_eq_some_iff.mp
    (by decide : (Steps.run step (start 1 le_rfl)
        [.submit .alice, .complete 0, .takeTurn 0, .observe 0 true, .settle 0, .takeTurn 0,
          .observe 0 false, .settle 0]).map (fun S => (S.observedFor "alice", S.sched.idle)) =
      some ([1, 0], true))
  obtain ⟨hobs, hidle⟩ := Prod.mk.inj hend
  exact ⟨S, .of_run hrun, hobs, hidle, queue_changes_delivered (.of_run hrun)⟩

end System

end BasecradleRouter.Scheduler
