/-
# Delivery dedup

A cache of the delivery keys woken recently.  An entry is reclaimed in two ways, by the look-up
that finds it expired and by a sweep every `gcInterval` marks, and the two decide expiry by
different subtractions, each rounded.  `Faithful` is the invariant that makes them invisible: what
the cache still holds is the key's latest mark, and what it no longer holds has expired.

A sweep keeps it where it takes nothing that a look-up at the same reading would still find
(`SweepsExpired`).  On a clock that does not run backwards, `seen` then answers from the latest mark
alone (`seen_spec`), whatever was swept and whatever else went through the cache.  Where nothing is
rounded every sweep does (`sweepsExpired_exact`).
-/
import BasecradleRouter.Lib.Dict
import BasecradleRouter.Lib.PyFloat

namespace BasecradleRouter.Dedup

open BasecradleRouter.Lib

/-- What a collapsed duplicate is called wherever the router names it. -/
def duplicateDelivery : String := "duplicate_delivery"

/-- `_GC_INTERVAL` -/
def gcInterval : ℕ := 1024

/-- The cache: when each key was last marked, and the marks since the last sweep; and the arithmetic
of the interpreter's floats. -/
structure DeliveryDeduper where
  rounding : Rounding
  ttl : PyFloat
  marked : Dict String ℚ
  marksSinceGc : ℕ
  ttl_ok : ttl.lt (.fin 0) = false

namespace DeliveryDeduper

/-- `DeliveryDeduper(ttl)` -/
def new (rounding : Rounding) (ttl : PyFloat) (h : ttl.lt (.fin 0) = false) : DeliveryDeduper :=
  ⟨rounding, ttl, Dict.empty, 0, h⟩

/-- `self._ttl <= 0`: dedup is off. -/
def off (d : DeliveryDeduper) : Bool := d.ttl.le (.fin 0)

/-- `now - marked >= self._ttl` -/
def expired (d : DeliveryDeduper) (now marked : ℚ) : Bool :=
  d.ttl.le (d.rounding.sub (.fin now) (.fin marked))

/-- `marked <= now - self._ttl` -/
def stale (d : DeliveryDeduper) (now marked : ℚ) : Bool :=
  (PyFloat.fin marked).le (d.rounding.sub (.fin now) d.ttl)

/-- `seen`, at the clock reading `now`: the answer, and the cache with an expired entry
reclaimed. -/
def seen (d : DeliveryDeduper) (key : String) (now : ℚ) : Bool × DeliveryDeduper :=
  if d.off then
    (false, d)
  else
    match d.marked.get key with
    | none => (false, d)
    | some marked =>
      if d.expired now marked then
        (false, { d with marked := d.marked.del key })
      else
        (true, d)

/-- `_gc` -/
def gc (d : DeliveryDeduper) (now : ℚ) : DeliveryDeduper :=
  { d with marked := d.marked.retain fun marked => !d.stale now marked }

/-- `mark`, at the clock reading `now`. -/
def mark (d : DeliveryDeduper) (key : String) (now : ℚ) : DeliveryDeduper :=
  if d.off then
    d
  else
    let d := { d with marked := d.marked.set key now, marksSinceGc := d.marksSinceGc + 1 }
    if gcInterval ≤ d.marksSinceGc then { d.gc now with marksSinceGc := 0 } else d

/-! ## Expiry -/

variable {d : DeliveryDeduper} {last : Dict String ℚ} {key : String} {clock now marked : ℚ}

/-- Expired stays expired. -/
theorem expired_later (h : d.expired clock marked = true) (hnow : clock ≤ now) :
    d.expired now marked = true :=
  Rounding.le_sub_mono h hnow

/-- A mark of the key is followed by a sweep. -/
def sweeps (d : DeliveryDeduper) : Bool := gcInterval ≤ d.marksSinceGc + 1

/-- That sweep does not take the mark of `k` while a look-up at the same reading would find it. -/
def SweepsExpired (d : DeliveryDeduper) (key : String) (now : ℚ) (k : String) : Prop :=
  d.sweeps = true → ∀ marked, (d.marked.set key now).get k = some marked →
    d.stale now marked = true → d.expired now marked = true

/-- Where nothing is rounded no sweep does. -/
theorem sweepsExpired_exact (h : d.rounding = .exact) (key : String) (now : ℚ) (k : String) :
    d.SweepsExpired key now k := by
  intro _ marked _ hstale
  rw [stale, h] at hstale
  rw [expired, h, Rounding.sub_fin]
  exact (Rounding.le_exact_sub now marked d.ttl).trans hstale

/-! ## The cache answers from the latest mark -/

/-- The cache against the latest marks `last`, at the clock reading `clock`: what it holds is
the latest mark, and a mark it no longer holds has expired. -/
structure Faithful (d : DeliveryDeduper) (last : Dict String ℚ) (clock : ℚ) : Prop where
  held : ∀ k m, d.marked.get k = some m → last.get k = some m
  dropped : ∀ k m, d.marked.get k = none → last.get k = some m → d.expired clock m = true

theorem new_faithful (rounding : Rounding) (ttl : PyFloat) (h : ttl.lt (.fin 0) = false)
    (clock : ℚ) : (new rounding ttl h).Faithful Dict.empty clock :=
  ⟨by simp [new], by simp⟩

theorem Faithful.later (h : d.Faithful last clock) (hnow : clock ≤ now) : d.Faithful last now :=
  ⟨h.held, fun k m hk hm => expired_later (h.dropped k m hk hm) hnow⟩

/-- What no operation changes. -/
structure SameClock (d d' : DeliveryDeduper) : Prop where
  ttl : d'.ttl = d.ttl
  rounding : d'.rounding = d.rounding

theorem SameClock.trans {d' d'' : DeliveryDeduper} (h : d.SameClock d') (h' : d'.SameClock d'') :
    d.SameClock d'' :=
  ⟨h'.ttl.trans h.ttl, h'.rounding.trans h.rounding⟩

theorem SameClock.off {d' : DeliveryDeduper} (h : d.SameClock d') : d'.off = d.off := by
  rw [DeliveryDeduper.off, DeliveryDeduper.off, h.ttl]

theorem seen_same (d : DeliveryDeduper) (key : String) (now : ℚ) :
    d.SameClock (d.seen key now).2 := by
  unfold seen
  split
  · exact ⟨rfl, rfl⟩
  · split
    · exact ⟨rfl, rfl⟩
    · split
      · exact ⟨rfl, rfl⟩
      · exact ⟨rfl, rfl⟩

theorem mark_same (d : DeliveryDeduper) (key : String) (now : ℚ) :
    d.SameClock (d.mark key now) := by
  unfold mark
  split
  · exact ⟨rfl, rfl⟩
  · dsimp only
    split
    · exact ⟨rfl, rfl⟩
    · exact ⟨rfl, rfl⟩

/-- **`seen` is told by the latest mark**: a key is seen iff it was marked and its mark has not
expired. -/
theorem seen_spec (h : d.Faithful last now) (hon : d.off = false) (key : String) :
    (d.seen key now).1 = true ↔ ∃ m, last.get key = some m ∧ d.expired now m = false := by
  unfold seen
  simp only [hon, Bool.false_eq_true, if_false]
  cases hm : d.marked.get key with
  | none =>
    simp only [Bool.false_eq_true, false_iff, not_exists, not_and, Bool.not_eq_false]
    exact fun m hl => h.dropped key m hm hl
  | some m =>
    have hlast := h.held key m hm
    dsimp only
    split
    · next hold => simp [hlast, hold]
    · next hyoung => simp [hlast, hyoung]

/-- Reclaiming an expired entry at a look-up changes no answer. -/
theorem Faithful.seen (h : d.Faithful last now) (key : String) :
    (d.seen key now).2.Faithful last now := by
  unfold DeliveryDeduper.seen
  split
  · exact h
  · split
    · exact h
    · next m hm =>
      split
      · next hexpired =>
        refine ⟨fun k m' hk => ?_, fun k m' hk hl => ?_⟩
        · rw [Dict.get_del] at hk
          split at hk
          · exact absurd hk (by simp)
          · exact h.held k m' hk
        · rw [Dict.get_del] at hk
          split at hk
          · next hkey =>
            subst hkey
            obtain rfl : m = m' := Option.some.inj ((h.held k m hm).symm.trans hl)
            exact hexpired
          · exact h.dropped k m' hk hl
      · exact h

/-- Sweeping what has expired changes no answer. -/
theorem Faithful.gc (h : d.Faithful last now)
    (hswept : ∀ k m, d.marked.get k = some m → d.stale now m = true → d.expired now m = true) :
    (d.gc now).Faithful last now := by
  refine ⟨fun k m hk => ?_, fun k m hk hl => ?_⟩
  · have hget : d.marked.get k = some m := by
      rw [DeliveryDeduper.gc, Dict.get_retain] at hk
      exact (Option.filter_eq_some_iff.mp hk).1
    exact h.held k m hget
  · cases hget : d.marked.get k with
    | none => exact h.dropped k m hget hl
    | some m' =>
      obtain rfl : m' = m := Option.some.inj ((h.held k m' hget).symm.trans hl)
      rw [DeliveryDeduper.gc, Dict.get_retain, hget] at hk
      exact hswept k m' hget (by simpa using hk)

/-- A mark becomes the key's latest. -/
theorem Faithful.mark (h : d.Faithful last now) (hon : d.off = false)
    (hswept : ∀ k, d.SweepsExpired key now k) :
    (d.mark key now).Faithful (last.set key now) now := by
  have hset : ∀ n, ({ d with marked := d.marked.set key now, marksSinceGc := n } :
      DeliveryDeduper).Faithful (last.set key now) now := by
    refine fun n => ⟨fun k m hk => ?_, fun k m hk hl => ?_⟩
    · rw [Dict.get_set] at hk ⊢
      split
      · next hkey => rwa [if_pos hkey] at hk
      · next hkey =>
        rw [if_neg hkey] at hk
        exact h.held k m hk
    · rw [Dict.get_set] at hk hl
      split at hk
      · exact absurd hk (by simp)
      · next hkey =>
        rw [if_neg hkey] at hl
        exact h.dropped k m hk hl
  unfold DeliveryDeduper.mark
  simp only [hon, Bool.false_eq_true, if_false]
  split
  · next hdue =>
    have hgc := (hset (d.marksSinceGc + 1)).gc fun k => hswept k (decide_eq_true hdue)
    exact ⟨hgc.held, hgc.dropped⟩
  · exact hset _

/-! ## What the cache holds -/

/-- A key that is seen is held. -/
theorem held_of_seen (h : (d.seen key now).1 = true) : (d.marked.get key).isSome := by
  unfold seen at h
  split at h
  · exact absurd h (by simp)
  · split at h
    · exact absurd h (by simp)
    · rename_i m hm
      simp [hm]

/-- What a look-up leaves was there. -/
theorem get_of_seen {d : DeliveryDeduper} {key k : String} {now m : ℚ}
    (h : (d.seen key now).2.marked.get k = some m) : d.marked.get k = some m := by
  unfold seen at h
  split at h
  · exact h
  · split at h
    · exact h
    · split at h
      · rw [Dict.get_del] at h
        split at h
        · cases h
        · exact h
      · exact h

/-- What a mark leaves is the mark, or was there. -/
theorem get_of_mark {d : DeliveryDeduper} {key k : String} {now m : ℚ}
    (h : (d.mark key now).marked.get k = some m) :
    (k = key ∧ m = now) ∨ d.marked.get k = some m := by
  have hset : (d.marked.set key now).get k = some m →
      (k = key ∧ m = now) ∨ d.marked.get k = some m := by
    intro hget
    rw [Dict.get_set] at hget
    split at hget
    · next heq => exact Or.inl ⟨heq, (Option.some.inj hget).symm⟩
    · exact Or.inr hget
  unfold mark at h
  split at h
  · exact Or.inr h
  · simp only at h
    split at h
    · rw [gc, Dict.get_retain] at h
      exact hset (Option.filter_eq_some_iff.mp h).1
    · exact hset h

/-- A look-up only forgets. -/
theorem held_of_held_seen {d : DeliveryDeduper} {key k : String} {now : ℚ}
    (h : ((d.seen key now).2.marked.get k).isSome) : (d.marked.get k).isSome := by
  obtain ⟨m, hm⟩ := Option.isSome_iff_exists.mp h
  exact Option.isSome_iff_exists.mpr ⟨m, get_of_seen hm⟩

/-- What the cache holds after a mark is the key marked, or was held before. -/
theorem held_of_held_mark {d : DeliveryDeduper} {key k : String} {now : ℚ}
    (h : ((d.mark key now).marked.get k).isSome) : k = key ∨ (d.marked.get k).isSome := by
  obtain ⟨m, hm⟩ := Option.isSome_iff_exists.mp h
  rcases get_of_mark hm with ⟨rfl, -⟩ | hbefore
  · exact Or.inl rfl
  · exact Or.inr (Option.isSome_iff_exists.mpr ⟨m, hbefore⟩)

end DeliveryDeduper

end BasecradleRouter.Dedup
