/-
# Dedup over runs

`deduped_iff`: on a clock that does not run backwards, a delivery ends as a duplicate exactly
when the latest delivery of the same source, recipient and id that ended done was marked less
than the ttl ago.  The cache is `Faithful` to the marks along a run (`run_faithful`), so nothing
else that happens to it, its eager deletions, its sweeps and the traffic of other keys, ever
shows.

This takes sweeps that find no younger mark stale (`SweptExpired`).  The two reclamations round
different subtractions, and in doubles a sweep takes a mark that a look-up would find
(`not_deduped_in_doubles`).
-/
import BasecradleRouter.Breaker.Bound
import BasecradleRouter.Pipeline.Apart

namespace BasecradleRouter.Pipeline

open BasecradleRouter.Lib BasecradleRouter.Logfmt BasecradleRouter.Models BasecradleRouter.Dedup
open BasecradleRouter.Breaker

/-! ## 1. The marks of a run -/

/-- A delivery that is done, under `key`. -/
def World.Marks (p : Pipeline) (key : String) (W : World) (d : Delivery) : Prop :=
  W.Done p d ∧ d.event.dedupKey = key

/-- One delivery more: the world, and the clock reading of each key's latest mark. -/
def markStep (p : Pipeline) (S : World × Dict String ℚ) (d : Delivery) : World × Dict String ℚ :=
  (S.1.step p d, if S.1.Done p d then S.2.set d.event.dedupKey d.readings.markAt else S.2)

/-- The clock reading of each key's latest mark. -/
def marks (p : Pipeline) (W : World) (ds : List Delivery) : Dict String ℚ :=
  (after (markStep p) (W, Dict.empty) ds).2

section

variable (p : Pipeline) (W : World)

theorem markStep_fst (ds : List Delivery) :
    (after (markStep p) (W, Dict.empty) ds).1 = W.run p ds := by
  induction ds using List.reverseRecOn with
  | nil => rfl
  | append_singleton ds d ih =>
    rw [after_snoc, run_snoc, ← ih]
    rfl

theorem marks_snoc (ds : List Delivery) (d : Delivery) :
    marks p W (ds ++ [d]) =
      if (W.run p ds).Done p d then (marks p W ds).set d.event.dedupKey d.readings.markAt
      else marks p W ds := by
  rw [marks, after_snoc, ← markStep_fst]
  rfl

/-- The marks are the latest deliveries' that were done. -/
theorem marks_get {ds : List Delivery} {key : String} {t : ℚ} :
    (marks p W ds).get key = some t ↔
      ∃ e, Latest (World.step p) W ds (World.Marks p key) e ∧ e.readings.markAt = t := by
  induction ds using List.reverseRecOn with
  | nil =>
    simp only [not_latest_nil, false_and, exists_false, iff_false]
    simp [marks]
  | append_singleton ds d ih =>
    rw [marks_snoc]
    simp only [latest_snoc]
    by_cases hmarks : World.Marks p key (after (World.step p) W ds) d
    · obtain ⟨hdone, hkey⟩ := hmarks
      have hd : World.Marks p key (after (World.step p) W ds) d := ⟨hdone, hkey⟩
      rw [if_pos (show (W.run p ds).Done p d from hdone), hkey, Dict.get_set_self]
      simp [hd]
    · have hget : (if (W.run p ds).Done p d then
          (marks p W ds).set d.event.dedupKey d.readings.markAt else marks p W ds).get key =
          (marks p W ds).get key := by
        split
        · rename_i hdone
          have hne : key ≠ d.event.dedupKey := fun h => hmarks ⟨hdone, h.symm⟩
          exact Dict.get_set_of_ne _ _ hne
        · rfl
      rw [hget, ih]
      simp [hmarks]

/-! ## 2. The cache is faithful along a run -/

/-- The readings of the dedup clock along a run: each delivery's look-up, and its mark where it
was done. -/
def clockReadings (W : World) : List Delivery → List ℚ
  | [] => []
  | d :: ds =>
    d.readings.seenAt :: (if W.Done p d then [d.readings.markAt] else []) ++
      clockReadings (W.step p d) ds

theorem clockReadings_snoc (W : World) (ds : List Delivery) (d : Delivery) :
    clockReadings p W (ds ++ [d]) = clockReadings p W ds ++
      d.readings.seenAt :: if (W.run p ds).Done p d then [d.readings.markAt] else [] := by
  induction ds generalizing W with
  | nil =>
    simp only [List.nil_append, clockReadings, List.append_nil]
    rfl
  | cons e ds ih =>
    simp only [List.cons_append, clockReadings, ih, List.append_assoc]
    rfl

theorem clockReadings_eq (W : World) (ds : List Delivery) : clockReadings p W ds =
    gathered (World.step p) (fun W d =>
      d.readings.seenAt :: if W.Done p d then [d.readings.markAt] else []) W ds := by
  induction ds generalizing W with
  | nil => rfl
  | cons d ds ih => simp only [clockReadings, gathered, ih, List.cons_append]

/-- Deliveries one after the other are read in order. -/
theorem clockReadings_pairwise {W : World} {ds : List Delivery}
    (hmark : ∀ d ∈ ds, d.readings.seenAt ≤ d.readings.markAt)
    (hnext : ds.Pairwise fun d e => d.readings.markAt ≤ e.readings.seenAt) :
    (clockReadings p W ds).Pairwise (· ≤ ·) := by
  have hread : ∀ (m : World) (d : Delivery) (t : ℚ),
      t ∈ d.readings.seenAt :: (if m.Done p d then [d.readings.markAt] else []) →
        t = d.readings.seenAt ∨ t = d.readings.markAt := by
    intro m d t ht
    exact (List.mem_cons.mp ht).imp_right fun ht =>
      List.mem_singleton.mp (List.mem_ite_nil_right.mp ht).2
  rw [clockReadings_eq]
  refine gathered_pairwise (fun m d hd => ?_)
    (hnext.imp_of_mem fun {d e} hd he hde m m' a ha b hb => ?_)
  · split
    · simpa using hmark d hd
    · exact List.pairwise_singleton _ _
  · have hbefore : a ≤ d.readings.markAt := by
      rcases hread m d a ha with rfl | rfl
      exacts [hmark d hd, le_rfl]
    have hafter : e.readings.seenAt ≤ b := by
      rcases hread m' e b hb with rfl | rfl
      exacts [le_rfl, hmark e he]
    exact hbefore.trans (hde.trans hafter)

/-- If the delivery is done, the sweep that may follow its mark does not take the mark of `k` while
a look-up would find it. -/
def SweptExpired (d : Delivery) (k : String) : Prop :=
  W.Done p d → (W.deduper.seen d.event.dedupKey d.readings.seenAt).2.SweepsExpired
    d.event.dedupKey d.readings.markAt k

theorem sweptExpired_exact (h : W.deduper.rounding = .exact) (d : Delivery) (k : String) :
    SweptExpired p W d k := by
  intro _
  refine DeliveryDeduper.sweepsExpired_exact ?_ _ _ k
  rw [(DeliveryDeduper.seen_same _ _ _).rounding, h]

/-- Where nothing is rounded no sweep of a run does. -/
theorem run_sweptExpired (h : W.deduper.rounding = .exact) {ds : List Delivery} {m : World}
    {d : Delivery} (hmet : W.Meets p ds m d) (k : String) : SweptExpired p m d k := by
  obtain ⟨earlier, later, -, rfl⟩ := hmet
  exact sweptExpired_exact p _ ((run_same p W earlier).rounding.trans h) d k

/-- One delivery more keeps the cache faithful to the marks. -/
theorem step_faithful {W : World} {last : Dict String ℚ} {clock : ℚ} {d : Delivery}
    (h : W.deduper.Faithful last clock) (hon : W.deduper.off = false)
    (hseen : clock ≤ d.readings.seenAt)
    (hmark : W.Done p d → d.readings.seenAt ≤ d.readings.markAt)
    (hswept : ∀ k, SweptExpired p W d k) :
    (W.step p d).deduper.Faithful
      (if W.Done p d then last.set d.event.dedupKey d.readings.markAt else last)
      (if W.Done p d then d.readings.markAt else d.readings.seenAt) := by
  have hlooked := (h.later hseen).seen d.event.dedupKey
  rw [step_deduper]
  split
  · rename_i hdone
    refine (hlooked.later (hmark hdone)).mark ?_ fun k => hswept k hdone
    rw [(DeliveryDeduper.seen_same _ _ _).off]
    exact hon
  · exact hlooked

/-- **The cache is faithful to the marks of a run.** -/
theorem run_faithful {W : World} {rounding : Rounding} {ttl : PyFloat}
    {ht : ttl.lt (.fin 0) = false} (hfresh : W.deduper = .new rounding ttl ht)
    (hon : ttl.le (.fin 0) = false) (ds : List Delivery)
    (hswept : ∀ m e, W.Meets p ds m e → ∀ k, SweptExpired p m e k)
    (hclock : (clockReadings p W ds).Pairwise (· ≤ ·)) {now : ℚ}
    (hnow : ∀ t ∈ clockReadings p W ds, t ≤ now) :
    (W.run p ds).deduper.Faithful (marks p W ds) now := by
  induction ds using List.reverseRecOn generalizing now with
  | nil =>
    rw [World.run, after_nil, hfresh]
    exact DeliveryDeduper.new_faithful rounding ttl ht now
  | append_singleton ds d ih =>
    rw [clockReadings_snoc, List.pairwise_append] at hclock
    obtain ⟨hbefore, htwo, hcross⟩ := hclock
    rw [clockReadings_snoc] at hnow
    have hoff : (W.run p ds).deduper.off = false := by
      rw [(run_same p W ds).off, hfresh]
      exact hon
    have hat : (W.run p ds).deduper.Faithful (marks p W ds) d.readings.seenAt :=
      ih (fun m e hmet => hswept m e (hmet.append _)) hbefore fun t ht => hcross t ht _ (by simp)
    rw [run_snoc, marks_snoc]
    refine (step_faithful p hat hoff le_rfl ?_ (hswept _ _ ⟨ds, [], rfl, rfl⟩)).later ?_
    · intro hdone
      simpa [hdone] using htwo
    · split
      · rename_i hdone
        exact hnow _ (by simp [hdone])
      · exact hnow _ (by simp)

end

/-! ## 3. At most once, and never too often collapsed -/

/-- The same delivery of the same source to the same recipient. -/
def SameDelivery (e e' : Event) : Prop :=
  e.source = e'.source ∧ e.recipient.value = e'.recipient.value ∧ e.deliveryId = e'.deliveryId

/-- An event whose key cannot run into another's. -/
def Tells (e : Event) : Prop := Joinable e.source ∧ Joinable e.recipient.value

/-- The latest delivery before `d` that was done and is the same delivery. -/
def LatestDuplicate (p : Pipeline) (W : World) (ds : List Delivery) (d e : Delivery) : Prop :=
  Latest (World.step p) W ds (fun m e => m.Done p e ∧ SameDelivery e.event d.event) e

/-- **A delivery is collapsed iff its latest done duplicate is less than the ttl old**, if no sweep
of the run takes a mark that a look-up would find.  The age is the rounded difference of the two
readings, and where that falls on the exact one's side of the ttl it is the exact one. -/
theorem deduped_iff (p : Pipeline) (W : World) (rounding : Rounding) (ttl : PyFloat)
    (ht : ttl.lt (.fin 0) = false) (hpos : (PyFloat.fin 0).lt ttl = true)
    (hfresh : W.deduper = .new rounding ttl ht) (ds : List Delivery) (d : Delivery)
    (htells : ∀ e ∈ ds ++ [d], Tells e.event)
    (hclock : (clockReadings p W (ds ++ [d])).Pairwise (· ≤ ·))
    (hswept : ∀ m e, W.Meets p ds m e → ∀ k, SweptExpired p m e k)
    (hflush : d.readings.flush.raised = none) :
    ((W.run p ds).ends p d = some (.dedup, .ignored) ↔ ∃ e, LatestDuplicate p W ds d e ∧
      (rounding.sub (.fin d.readings.seenAt) (.fin e.readings.markAt)).lt ttl = true) ∧
    ((∀ e, LatestDuplicate p W ds d e →
        (rounding.sub (.fin d.readings.seenAt) (.fin e.readings.markAt)).lt ttl =
          (PyFloat.fin (d.readings.seenAt - e.readings.markAt)).lt ttl) →
      ((W.run p ds).ends p d = some (.dedup, .ignored) ↔ ∃ e, LatestDuplicate p W ds d e ∧
        (PyFloat.fin (d.readings.seenAt - e.readings.markAt)).lt ttl = true)) := by
  have hnan : ttl ≠ .nan := by
    rintro rfl
    simp [PyFloat.lt] at hpos
  have hon : ttl.le (.fin 0) = false := by
    simpa [PyFloat.lt_eq_not_le (a := .fin 0) nofun hnan] using hpos
  have hoff : (W.run p ds).deduper.off = false := by
    rw [(run_same p W ds).off, hfresh]
    exact hon
  rw [clockReadings_snoc, List.pairwise_append] at hclock
  obtain ⟨hbefore, -, hcross⟩ := hclock
  have hfaithful : (W.run p ds).deduper.Faithful (marks p W ds) d.readings.seenAt :=
    run_faithful p hfresh hon ds hswept hbefore fun t ht => hcross t ht _ (by simp)
  have hseen := DeliveryDeduper.seen_spec hfaithful hoff d.event.dedupKey
  have hsame : W.deduper.SameClock (W.run p ds).deduper := run_same p W ds
  have hexpired : ∀ t, (W.run p ds).deduper.expired d.readings.seenAt t = false ↔
      (rounding.sub (.fin d.readings.seenAt) (.fin t)).lt ttl = true := by
    intro t
    rw [DeliveryDeduper.expired, hsame.ttl, hsame.rounding, hfresh,
      PyFloat.lt_eq_not_le (Rounding.sub_fin_ne_nan _ _) hnan, Bool.not_eq_eq_eq_not, Bool.not_true]
    rfl
  -- within a run whose keys tell deliveries apart, the same key is the same delivery
  have hlatest : ∀ e, Latest (World.step p) W ds (World.Marks p d.event.dedupKey) e ↔
      LatestDuplicate p W ds d e := by
    intro e
    refine latest_congr fun m i hi => and_congr_right fun _ => ?_
    have hi' := htells i (List.mem_append_left _ hi)
    have hd := htells d (by simp)
    exact dedupKey_inj hi'.1 hd.1 hi'.2 hd.2
  have hage : (W.run p ds).ends p d = some (.dedup, .ignored) ↔
      ∃ e, LatestDuplicate p W ds d e ∧
        (rounding.sub (.fin d.readings.seenAt) (.fin e.readings.markAt)).lt ttl = true := by
    rw [ends_eq, Option.some.injEq, World.exit, terminal_dedup_iff hflush, duplicate, hseen]
    simp only [marks_get, hlatest, hexpired]
    constructor
    · rintro ⟨t, ⟨e, he, rfl⟩, hlt⟩
      exact ⟨e, he, hlt⟩
    · rintro ⟨e, he, hlt⟩
      exact ⟨_, ⟨e, he, rfl⟩, hlt⟩
  refine ⟨hage, fun hexact => hage.trans (exists_congr fun e => and_congr_right fun he => ?_)⟩
  rw [hexact e he]

/-- The double next to 600.1. -/
def roundedTtl : ℚ := 5278535422627021 / 8796093022208

/-- The double next to 1022600.1. -/
def roundedDuplicate : ℚ := 8784067972772659 / 8589934592

/-- An unstamped message for bob in whose way nothing stands, at a reading of every clock. -/
def Delivery.unstamped (id : String) (h : Required id) (now : ℚ) : Delivery where
  agent := .builder "bob" required_bob
  event := .message "bob" id none required_bob h
  readings := .sample now .earliest (.ok ⟨0⟩)

@[simp] theorem Delivery.unstamped_seenAt (id : String) (h : Required id) (now : ℚ) :
    (Delivery.unstamped id h now).readings.seenAt = now := rfl

@[simp] theorem Delivery.unstamped_markAt (id : String) (h : Required id) (now : ℚ) :
    (Delivery.unstamped id h now).readings.markAt = now := rfl

theorem quiet_unstamped (id : String) (h : Required id) (now : ℚ) :
    Quiet ⟨3⟩ (.unstamped id h now) now where
  unstamped := rfl
  recheck := rfl
  lock := rfl
  seenAt := rfl
  admitAt := rfl
  markAt := rfl
  woken := rfl

theorem roundedTtl_ok : (PyFloat.fin roundedTtl).lt (.fin 0) = false := by decide +kernel

theorem twoSlots_ok : 1 ≤ 2 := by omega

/-- A router in the arithmetic of doubles that has just started. -/
def World.rounded : World := .fresh (.fin roundedTtl) 2 binary64Config roundedTtl_ok twoSlots_ok

theorem thousands_far (i : ℕ) (hi : i < 1022) :
    Far World.rounded (1000 * i) (1000 * (i + 1 : ℕ)) := by
  have hcut : Rounding.binary64.sub (.fin (1000 * (i + 1 : ℕ))) (.fin 60) =
      .fin ((1000 * i + 940 : ℤ) : ℚ) :=
    Rounding.binary64_sub _ (by push_cast; ring) (abs_le.mpr ⟨by omega, by omega⟩)
  have hage : Rounding.binary64.sub (.fin (1000 * (i + 1 : ℕ))) (.fin (1000 * i)) =
      .fin ((1000 : ℤ) : ℚ) :=
    Rounding.binary64_sub _ (by push_cast; ring) (by norm_num)
  refine ⟨?_, ?_, ?_⟩
  · push_cast
    linarith
  · show (PyFloat.fin _).le (Rounding.binary64.sub _ (.fin 60)) = true
    rw [hcut, PyFloat.le, decide_eq_true_eq]
    push_cast
    linarith
  · show (PyFloat.fin roundedTtl).le (Rounding.binary64.sub _ _) = true
    rw [hage]
    decide +kernel

theorem required_zero : Required "0" := by decide

theorem required_one : Required "1" := by decide

theorem required_two : Required "2" := by decide

/-- One message every thousand seconds. -/
def thousands (n : ℕ) : List Delivery :=
  (List.range n).map fun i : ℕ => .unstamped "0" required_zero (1000 * i)

theorem thousands_apart (n : ℕ) (hn : n ≤ 1022) :
    Apart (World.rounded.run ⟨3⟩ (thousands n)) n (1000 * n) ∧
      World.rounded.SameClocks (World.rounded.run ⟨3⟩ (thousands n)) := by
  have hstart : Apart World.rounded 0 ((fun i : ℕ => (1000 * i : ℚ)) 0) :=
    ⟨⟨WakeRateBreaker.new_ordered _ _, rfl⟩, by decide +kernel, rfl, nofun⟩
  unfold thousands
  exact run_apart (fun i => quiet_unstamped "0" required_zero (1000 * i)) n
    (Nat.lt_of_le_of_lt hn (by decide)) (fun i hi => thousands_far i (by omega)) hstart

/-- The deliveries before the duplicate: the last one's mark completes the interval. -/
def swept : List Delivery :=
  thousands 1022 ++
    [.unstamped "1" required_one (1000 * 1022), .unstamped "2" required_two roundedDuplicate]

/-- The two deliveries after them: the last one's mark completes the interval. -/
def sweeping : List Delivery :=
  [.unstamped "1" required_one (1000 * 1022), .unstamped "2" required_two roundedDuplicate]

theorem not_deduped_after {ds : List Delivery}
    (h : Apart (World.rounded.run ⟨3⟩ ds) 1022 (1000 * 1022))
    (hsame : World.rounded.SameClocks (World.rounded.run ⟨3⟩ ds)) :
    LatestDuplicate ⟨3⟩ World.rounded (ds ++ sweeping)
        (.unstamped "1" required_one roundedDuplicate) (.unstamped "1" required_one (1000 * 1022)) ∧
      (World.rounded.run ⟨3⟩ (ds ++ sweeping)).ends ⟨3⟩
        (.unstamped "1" required_one roundedDuplicate) ≠ some (.dedup, .ignored) := by
  obtain ⟨hdone, -, -, -, hseen⟩ := h.swept (by decide)
    (quiet_unstamped "1" required_one (1000 * 1022))
    (quiet_unstamped "2" required_two roundedDuplicate)
    (by decide) (by decide +kernel) (by rw [hsame.breaker]; decide +kernel)
    (by rw [DeliveryDeduper.stale, hsame.deduper.ttl, hsame.deduper.rounding]; decide +kernel)
    (World.step _ _ _).evidence
  constructor
  · show Latest _ _ (ds ++ ([.unstamped "1" required_one (1000 * 1022)] ++
      [.unstamped "2" required_two roundedDuplicate])) _ _
    rw [← List.append_assoc]
    refine latest_snoc.mpr (Or.inr ⟨fun h => ?_,
      latest_snoc.mpr (Or.inl ⟨⟨hdone, rfl, rfl, rfl⟩, rfl⟩)⟩)
    exact absurd h.2.2.2 (by decide)
  · rw [ends_eq, run_append, Ne, Option.some.injEq, World.exit, terminal_dedup_iff rfl, duplicate]
    exact Bool.eq_false_iff.mp hseen

theorem unstamped_tells (id : String) (h : Required id) (now : ℚ) :
    Tells (Delivery.unstamped id h now).event :=
  ⟨by show Joinable "basecradle"; decide, by show Joinable "bob"; decide⟩

theorem thousands_tells (n : ℕ) :
    ∀ e ∈ thousands n ++ sweeping ++ [.unstamped "1" required_one roundedDuplicate],
      Tells e.event := by
  intro e he
  simp only [thousands, sweeping, List.append_assoc, List.mem_append, List.mem_map, List.mem_cons,
    List.not_mem_nil, or_false] at he
  obtain ⟨i, -, rfl⟩ | (rfl | rfl) | rfl := he <;> exact unstamped_tells _ _ _

theorem thousands_ordered (n : ℕ) (hn : n ≤ 1022) :
    (clockReadings ⟨3⟩ World.rounded (thousands n ++ sweeping ++
      [.unstamped "1" required_one roundedDuplicate])).Pairwise (· ≤ ·) := by
  have hlast : (1000 * 1022 : ℚ) ≤ roundedDuplicate := by decide +kernel
  have hthousand : ∀ i ∈ List.range n, (1000 * i : ℚ) ≤ 1000 * 1022 := by
    intro i hi
    have hi' : (i : ℚ) ≤ 1022 := by exact_mod_cast (List.mem_range.mp hi).le.trans hn
    linarith
  refine clockReadings_pairwise ⟨3⟩ (fun e he => ?_) ?_
  · simp only [thousands, sweeping, List.append_assoc, List.mem_append, List.mem_map,
      List.mem_cons, List.not_mem_nil, or_false] at he
    obtain ⟨i, -, rfl⟩ | (rfl | rfl) | rfl := he <;> simp
  · rw [List.append_assoc, thousands]
    refine List.pairwise_append.mpr ⟨?_, ?_, fun d hd e he => ?_⟩
    · refine List.pairwise_map.mpr (List.pairwise_lt_range.imp fun {i j} hij => ?_)
      have hij' : (i : ℚ) ≤ j := by exact_mod_cast hij.le
      rw [Delivery.unstamped_markAt, Delivery.unstamped_seenAt]
      linarith
    · simpa [sweeping] using hlast
    · obtain ⟨i, hi, rfl⟩ := List.mem_map.mp hd
      rw [Delivery.unstamped_markAt]
      refine (hthousand i hi).trans ?_
      simp only [sweeping, List.cons_append, List.nil_append, List.mem_cons, List.not_mem_nil,
        or_false] at he
      obtain rfl | rfl | rfl := he <;> rw [Delivery.unstamped_seenAt]
      exacts [hlast, hlast]

/-- **A duplicate within the ttl is woken again, in doubles.**  On a clock that only runs forward, a
delivery `1` is marked at 1022000; its duplicate at 1022600.1 is less than 600.1 seconds old in
exact and in Python's arithmetic; and it is not collapsed, since the mark of a delivery `2`
swept. -/
theorem not_deduped_in_doubles :
    World.rounded.deduper = .new .binary64 (.fin roundedTtl) roundedTtl_ok ∧
    (∀ e ∈ thousands 1022 ++ sweeping ++ [.unstamped "1" required_one roundedDuplicate],
      Tells e.event) ∧
    (clockReadings ⟨3⟩ World.rounded (thousands 1022 ++ sweeping ++
      [.unstamped "1" required_one roundedDuplicate])).Pairwise (· ≤ ·) ∧
    (∃ e, LatestDuplicate ⟨3⟩ World.rounded (thousands 1022 ++ sweeping)
        (.unstamped "1" required_one roundedDuplicate) e ∧
      (PyFloat.fin (roundedDuplicate - e.readings.markAt)).lt (.fin roundedTtl) = true ∧
      (Rounding.binary64.sub (.fin roundedDuplicate) (.fin e.readings.markAt)).lt
        (.fin roundedTtl) = true) ∧
    (World.rounded.run ⟨3⟩ (thousands 1022 ++ sweeping)).ends ⟨3⟩
      (.unstamped "1" required_one roundedDuplicate) ≠ some (.dedup, .ignored) := by
  obtain ⟨hapart, hsame⟩ := thousands_apart 1022 le_rfl
  rw [Nat.cast_ofNat] at hapart
  obtain ⟨hlatest, hends⟩ := not_deduped_after hapart hsame
  exact ⟨rfl, thousands_tells 1022, thousands_ordered 1022 le_rfl,
    ⟨_, hlatest, by decide +kernel, by decide +kernel⟩, hends⟩

/-- A duplicate of bob's message within the ttl: the first was done less than the ttl ago. -/
theorem deduped_iff_bob :
    ∃ e, LatestDuplicate ⟨3⟩ World.sample
        [.sample "1" (by decide) 5 (by decide) 0 (.ok ⟨0⟩)]
        (.sample "1" (by decide) 5 (by decide) 1 (.ok ⟨0⟩)) e ∧
      (PyFloat.fin (1 - e.readings.markAt)).lt (.fin 600) = true :=
  ((deduped_iff ⟨3⟩ World.sample .exact (.fin 600) (by simp [PyFloat.lt]) (by simp [PyFloat.lt]) rfl
    [.sample "1" (by decide) 5 (by decide) 0 (.ok ⟨0⟩)]
      (.sample "1" (by decide) 5 (by decide) 1 (.ok ⟨0⟩))
    (by simp [Tells, Delivery.sample, Event.message]; decide) (by decide +kernel)
    (fun _ _ hmet => run_sweptExpired _ _ rfl hmet) rfl).2
      fun _ _ => by rw [Rounding.sub_fin]; rfl).mp
    (by decide +kernel)

end BasecradleRouter.Pipeline
