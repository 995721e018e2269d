/-
# Deliveries far apart

A delivery in whose way nothing stands is woken, if the breaker is at rest and everything the dedup
cache holds has expired (`Apart`).  At a reading that is a window and a ttl later this is so again,
with one mark more since the last sweep, and so any number of such deliveries are woken
(`Apart.step`).

It makes runs of a known state out of a thousand deliveries.  `Apart.swept` is what they are for:
the mark that completes an interval sweeps, and takes a stale mark whether or not a look-up would
find it.
-/
import BasecradleRouter.Breaker.Thinning
import BasecradleRouter.Pipeline.Runs

namespace BasecradleRouter.Pipeline

open BasecradleRouter.Lib BasecradleRouter.Models BasecradleRouter.Dedup BasecradleRouter.Coalesce
open BasecradleRouter.Breaker BasecradleRouter.Evidence

/-! ## 1. One delivery -/

/-- Nothing stands in the way of a delivery, whose clocks all read `now`. -/
structure Quiet (p : Pipeline) (d : Delivery) (now : ℚ) : Prop where
  unstamped : d.event.occurredAt = none
  recheck : routeRecheck d.readings.recheck = none
  lock : d.readings.lock = .ok .noLock
  seenAt : d.readings.seenAt = now
  admitAt : d.readings.admitAt = now
  markAt : d.readings.markAt = now
  woken : (wakeExit p d.agent d.event d.readings).done = true

/-- The breaker counts nothing at `now`. -/
structure Resting (W : World) (now : ℚ) : Prop where
  ordered : W.breaker.Ordered now
  standing : W.breaker.standing now = .fresh

section

variable (p : Pipeline) (W : World)

theorem step_same (d : Delivery) : W.deduper.SameClock (W.step p d).deduper := by
  rw [step_deduper]
  split
  · exact (DeliveryDeduper.seen_same _ _ _).trans (DeliveryDeduper.mark_same _ _ _)
  · exact DeliveryDeduper.seen_same _ _ _

theorem run_same (ds : List Delivery) : W.deduper.SameClock (W.run p ds).deduper :=
  after_invariant (I := fun _ (m : World) => W.deduper.SameClock m.deduper) ⟨rfl, rfl⟩
    (fun _ _ ih => ih.trans (step_same p _ _)) ds

end

section

variable {p : Pipeline} {W : World} {d : Delivery} {now later : ℚ}

theorem Resting.evidence (h : Resting W now) (e : EvidenceStore) : Resting (W.setEvidence e) now :=
  ⟨h.ordered, h.standing⟩

/-- The thresholds and the arithmetic are the same. -/
structure World.SameClocks (W W' : World) : Prop where
  deduper : W.deduper.SameClock W'.deduper
  breaker : W'.breaker.config = W.breaker.config

theorem World.SameClocks.trans {W' W'' : World} (h : W.SameClocks W') (h' : W'.SameClocks W'') :
    W.SameClocks W'' :=
  ⟨h.deduper.trans h'.deduper, h'.breaker.trans h.breaker⟩

/-- A delivery that is no duplicate is woken. -/
theorem Resting.woken (h : Resting W now) (hd : Quiet p d now)
    (hunseen : (W.deduper.seen d.event.dedupKey now).1 = false) :
    W.Done p d ∧ W.SameClocks (W.step p d) ∧
      (W.step p d).deduper = (W.deduper.seen d.event.dedupKey now).2.mark d.event.dedupKey now ∧
      (W.step p d).breaker =
        (W.breaker.admitWake d.agent.harnessKey (some d.event.streamKey) now).2 ∧
      ∀ later, now ≤ later →
        aged W.breaker.config.rounding W.breaker.config.window later now = true →
          Resting (W.step p d) later := by
  have hguard : reachesGuard d.agent d.event d.readings W = true := by
    refine reachesGuard_iff.mpr ⟨?_, ?_, hd.recheck⟩
    · rw [duplicate, hd.seenAt]
      exact hunseen
    · rw [covering, WakeCoverage.covering, hd.unstamped]
  have hbreaker : reachesBreaker d.agent d.event d.readings W = true :=
    reachesBreaker_iff.mpr ⟨hguard, .noLock, hd.lock, rfl⟩
  obtain ⟨hadmitted, hrests⟩ := WakeRateBreaker.admitWake_resting
    h.ordered h.standing
  have hwake : reachesWake d.agent d.event d.readings W = true := by
    refine reachesWake_iff.mpr ⟨hbreaker, ?_⟩
    rw [admission, hd.admitAt]
    exact hadmitted
  have hexit : W.exit p d = wakeExit p d.agent d.event d.readings := exitOf_eq_wakeExit hwake
  have hdone : W.Done p d := (done_iff p W d).mpr (hexit ▸ hd.woken)
  have hleft : (W.step p d).breaker =
      (W.breaker.admitWake d.agent.harnessKey (some d.event.streamKey) now).2 := by
    rw [(step_left p W d).breaker, hexit, if_pos (wakeExit_consulted p d.agent d.event d.readings),
      hd.admitAt]
    rfl
  obtain ⟨-, hordered, hconfig⟩ := WakeRateBreaker.admitWake_standing h.ordered
    d.agent.harnessKey (some d.event.streamKey)
  refine ⟨hdone, ⟨step_same p W d, by rw [hleft, hconfig]⟩, ?_, ?_,
    fun later hlater haged => ⟨?_, ?_⟩⟩
  · rw [step_deduper, if_pos hdone, hd.seenAt, hd.markAt]
  · exact hleft
  · rw [hleft]
    exact hordered.later hlater
  · rw [hleft]
    exact hrests later hlater haged

/-! ## 2. Any number of deliveries -/

/-- After `n` marks, at a reading by which all of them have expired and aged. -/
structure Apart (W : World) (n : ℕ) (now : ℚ) : Prop where
  resting : Resting W now
  on : W.deduper.off = false
  count : W.deduper.marksSinceGc = n
  expired : ∀ k m, W.deduper.marked.get k = some m → W.deduper.expired now m = true

theorem Apart.evidence {n : ℕ} (h : Apart W n now) (e : EvidenceStore) :
    Apart (W.setEvidence e) n now :=
  ⟨h.resting.evidence e, h.on, h.count, h.expired⟩

/-- At `later` what happened at `now` has aged and expired. -/
structure Far (W : World) (now later : ℚ) : Prop where
  le : now ≤ later
  aged : aged W.breaker.config.rounding W.breaker.config.window later now = true
  expired : W.deduper.expired later now = true

theorem unseen_of_expired {dd : DeliveryDeduper} {key : String} (hon : dd.off = false)
    (h : ∀ m, dd.marked.get key = some m → dd.expired now m = true) :
    (dd.seen key now).1 = false ∧ (dd.seen key now).2.marksSinceGc = dd.marksSinceGc := by
  unfold DeliveryDeduper.seen
  rw [if_neg (by simp [hon])]
  cases hget : dd.marked.get key with
  | none => exact ⟨rfl, rfl⟩
  | some m =>
    dsimp only
    rw [if_pos (h m hget)]
    exact ⟨rfl, rfl⟩

/-- A mark that no sweep follows. -/
theorem mark_unswept {dd : DeliveryDeduper} {key : String} (hon : dd.off = false)
    (hcount : dd.marksSinceGc + 1 < Dedup.gcInterval) :
    dd.mark key now =
      { dd with marked := dd.marked.set key now, marksSinceGc := dd.marksSinceGc + 1 } := by
  unfold DeliveryDeduper.mark
  rw [if_neg (by simp [hon])]
  exact if_neg (Nat.not_le.mpr hcount)

theorem Far.of_same {W' : World} (h : Far W now later) (hsame : W.SameClocks W') :
    Far W' now later where
  le := h.le
  aged := by rw [hsame.breaker]; exact h.aged
  expired := by
    rw [DeliveryDeduper.expired, hsame.deduper.ttl, hsame.deduper.rounding]
    exact h.expired

/-- **One delivery more**: at a reading far from its own all is as before it, with one mark more. -/
theorem Apart.step {n : ℕ} (h : Apart W n now) (hd : Quiet p d now) (hn : n + 1 < Dedup.gcInterval)
    (hfar : Far W now later) :
    Apart (W.step p d) (n + 1) later ∧ W.SameClocks (W.step p d) := by
  obtain ⟨hunseen, hcount⟩ := unseen_of_expired h.on (h.expired d.event.dedupKey)
  rw [h.count] at hcount
  obtain ⟨-, hsame, hdeduper, -, hrests⟩ := h.resting.woken hd hunseen
  have hseen := DeliveryDeduper.seen_same W.deduper d.event.dedupKey now
  have hon : (W.deduper.seen d.event.dedupKey now).2.off = false := hseen.off.trans h.on
  rw [mark_unswept hon (by omega)] at hdeduper
  refine ⟨⟨hrests later hfar.le hfar.aged, hsame.deduper.off.trans h.on, ?_, fun k m hm => ?_⟩,
    hsame⟩
  · rw [hdeduper]
    exact congrArg (· + 1) hcount
  · rw [DeliveryDeduper.expired, hsame.deduper.ttl, hsame.deduper.rounding]
    rw [hdeduper] at hm
    dsimp only at hm
    rw [Dict.get_set] at hm
    split at hm
    · cases hm
      exact hfar.expired
    · exact DeliveryDeduper.expired_later (h.expired k m (DeliveryDeduper.get_of_seen hm)) hfar.le

/-- **Any number of them**, short of an interval. -/
theorem run_apart {time : ℕ → ℚ} {ds : ℕ → Delivery} (hquiet : ∀ i, Quiet p (ds i) (time i)) :
    ∀ n, n < Dedup.gcInterval → (∀ i < n, Far W (time i) (time (i + 1))) → Apart W 0 (time 0) →
      Apart (W.run p ((List.range n).map ds)) n (time n) ∧
        W.SameClocks (W.run p ((List.range n).map ds))
  | 0, _, _, h => ⟨h, ⟨rfl, rfl⟩, rfl⟩
  | n + 1, hn, hfar, h => by
    obtain ⟨hapart, hsame⟩ := run_apart hquiet n (by omega) (fun i hi => hfar i (by omega)) h
    obtain ⟨hstep, hsame'⟩ := hapart.step (hquiet n) hn ((hfar n (by omega)).of_same hsame)
    rw [List.range_succ, List.map_append, List.map_singleton, run_snoc]
    exact ⟨hstep, hsame.trans hsame'⟩

/-! ## 3. The mark that completes an interval -/

/-- **A sweep takes a stale mark**, whether or not a look-up would find it.  One delivery `d` is
marked, and the mark of another, `e`, completes the interval: `d`'s duplicate is not seen.  The
evidence may change between the two. -/
theorem Apart.swept {n : ℕ} (h : Apart W n now) (hn : n + 2 = Dedup.gcInterval) {e : Delivery}
    (hd : Quiet p d now) (he : Quiet p e later) (hne : e.event.dedupKey ≠ d.event.dedupKey)
    (hlater : now ≤ later)
    (haged : aged W.breaker.config.rounding W.breaker.config.window later now = true)
    (hstale : W.deduper.stale later now = true) (evidence : EvidenceStore) :
    W.Done p d ∧ W.SameClocks (W.step p d) ∧ Resting (W.step p d) later ∧
      (((W.step p d).setEvidence evidence).step p e).breaker =
        ((W.step p d).breaker.admitWake e.agent.harnessKey (some e.event.streamKey) later).2 ∧
      ((((W.step p d).setEvidence evidence).step p e).deduper.seen d.event.dedupKey
        later).1 = false := by
  obtain ⟨hunseen, hcount⟩ := unseen_of_expired h.on (h.expired d.event.dedupKey)
  rw [h.count] at hcount
  obtain ⟨hdone, hclocks, hdeduper, -, hrests⟩ := h.resting.woken hd hunseen
  have hseen := DeliveryDeduper.seen_same W.deduper d.event.dedupKey now
  rw [mark_unswept (hseen.off.trans h.on) (by omega), hcount] at hdeduper
  have hsame : W.deduper.SameClock (W.step p d).deduper := hclocks.deduper
  -- the other delivery is new to the cache
  have hother : ∀ m, (W.step p d).deduper.marked.get e.event.dedupKey = some m →
      (W.step p d).deduper.expired later m = true := by
    intro m hm
    rw [hdeduper] at hm
    dsimp only at hm
    rw [Dict.get_set, if_neg hne] at hm
    have hold := h.expired _ m (DeliveryDeduper.get_of_seen hm)
    rw [DeliveryDeduper.expired, hsame.ttl, hsame.rounding]
    exact DeliveryDeduper.expired_later hold hlater
  obtain ⟨hunseen', hcount'⟩ := unseen_of_expired (hsame.off.trans h.on) hother
  obtain ⟨-, -, hdeduper', hbreaker', -⟩ :=
    ((hrests later hlater haged).evidence evidence).woken he hunseen'
  -- its mark sweeps
  have hseen' := DeliveryDeduper.seen_same (W.step p d).deduper e.event.dedupKey later
  have hon' : ((W.step p d).deduper.seen e.event.dedupKey later).2.off = false :=
    hseen'.off.trans (hsame.off.trans h.on)
  have hdue : Dedup.gcInterval ≤
      ((W.step p d).deduper.seen e.event.dedupKey later).2.marksSinceGc + 1 := by
    rw [hcount', hdeduper, ← hn]
  have hstale' : ((W.step p d).deduper.seen e.event.dedupKey later).2.stale later now = true := by
    rw [DeliveryDeduper.stale, (hsame.trans hseen').ttl, (hsame.trans hseen').rounding]
    exact hstale
  refine ⟨hdone, hclocks, hrests later hlater haged, hbreaker', ?_⟩
  have hgone : (((W.step p d).setEvidence evidence).step p e).deduper.marked.get
      d.event.dedupKey = none := by
    rw [hdeduper',
      show ((W.step p d).setEvidence evidence).deduper = (W.step p d).deduper from rfl,
      DeliveryDeduper.mark, if_neg (by simp [hon'])]
    dsimp only
    rw [if_pos hdue]
    dsimp only
    rw [DeliveryDeduper.gc, Dict.get_retain]
    dsimp only
    rw [Dict.get_set, if_neg (Ne.symm hne)]
    refine Option.filter_eq_none_iff.mpr fun m hm => ?_
    have hheld := DeliveryDeduper.get_of_seen hm
    rw [hdeduper] at hheld
    dsimp only at hheld
    rw [Dict.get_set_self] at hheld
    cases hheld
    show ¬ (!((W.step p d).deduper.seen e.event.dedupKey later).2.stale later now) = true
    rw [hstale']
    decide
  unfold DeliveryDeduper.seen
  split
  · rfl
  · rw [hgone]

end

end BasecradleRouter.Pipeline
