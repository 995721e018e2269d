/-
# What a cache would answer

A cache holds marks that have expired until a look-up or a sweep reclaims them, so two caches that
answer alike may hold different things.  `live` is what a cache amounts to at an instant: the marks
that have not expired.  A look-up is told by it and leaves it as it was, and a mark changes its own
key only, unless its sweep takes what a look-up would still find (`SweepsExpired`): the two round
different subtractions.

`Alike` is agreement of two caches on the keys of a set.  An operation on one of them under a key
outside the set keeps it, and so the traffic of other keys never shows.
-/
import BasecradleRouter.Dedup

namespace BasecradleRouter.Dedup.DeliveryDeduper

open BasecradleRouter.Lib

variable {d d' : DeliveryDeduper} {key k : String} {clock now : ℚ} {K : String → Prop}

/-- The marks that count. -/
def live (d : DeliveryDeduper) (now : ℚ) (key : String) : Option ℚ :=
  (d.marked.get key).filter fun marked => !d.expired now marked

theorem live_later (hnow : clock ≤ now) :
    d.live now key = (d.live clock key).filter fun marked => !d.expired now marked := by
  unfold live
  cases hget : d.marked.get key with
  | none => rfl
  | some marked =>
    by_cases hexpired : d.expired clock marked = true
    · simp [Option.filter_some, hexpired, expired_later hexpired hnow]
    · simp [Option.filter_some, hexpired]

/-- A look-up is told by what counts. -/
theorem seen_eq : (d.seen key now).1 = (!d.off && (d.live now key).isSome) := by
  unfold seen live
  cases d.off with
  | true => rfl
  | false =>
    cases hget : d.marked.get key with
    | none => rfl
    | some marked =>
      by_cases hexpired : d.expired now marked = true
      · simp [Option.filter_some, hexpired]
      · simp [Option.filter_some, hexpired]

/-- A look-up reclaims nothing that counts. -/
theorem live_seen : (d.seen key now).2.live now k = d.live now k := by
  unfold seen
  split
  · rfl
  split
  · rfl
  next marked hget =>
  split
  · next hexpired =>
    unfold live
    dsimp only
    rw [Dict.get_del]
    split
    · next heq =>
      rw [heq, hget, Option.filter_some, hexpired]
      rfl
    · rfl
  · rfl

/-- A sweep of what has expired takes nothing that counts. -/
theorem live_gc (hexpired : ∀ marked, d.marked.get k = some marked →
    d.stale now marked = true → d.expired now marked = true) :
    (d.gc now).live now k = d.live now k := by
  have hget : (d.gc now).marked.get k =
      (d.marked.get k).filter fun marked => !d.stale now marked := by
    rw [gc, Dict.get_retain]
  have hsame : (d.gc now).expired now = d.expired now := rfl
  unfold live
  rw [hget, hsame]
  cases hmarked : d.marked.get k with
  | none => rfl
  | some marked =>
    by_cases hstale : d.stale now marked = true
    · simp [Option.filter_some, hstale, hexpired marked hmarked hstale]
    · simp [Option.filter_some, hstale]

/-- A mark changes its own key. -/
theorem live_mark (hon : d.off = false) (hswept : d.SweepsExpired key now k) :
    (d.mark key now).live now k = if k = key then some now else d.live now k := by
  have hset : ∀ n, ({ d with marked := d.marked.set key now, marksSinceGc := n } :
      DeliveryDeduper).live now k = if k = key then some now else d.live now k := by
    intro n
    unfold live
    dsimp only
    rw [Dict.get_set]
    split
    · have hfresh : d.expired now now = false := by
        rwa [expired, Rounding.sub_self_fin]
      have hsame : ({ d with marked := d.marked.set key now, marksSinceGc := n } :
          DeliveryDeduper).expired now now = d.expired now now := rfl
      rw [Option.filter_some, hsame, hfresh]
      rfl
    · rfl
  unfold mark
  rw [hon, if_neg (by decide)]
  dsimp only
  split
  · next hdue =>
    exact (live_gc (hswept (decide_eq_true hdue))).trans (hset (d.marksSinceGc + 1))
  · exact hset _

/-! ## Two caches -/

/-- Two caches that answer alike for the keys in `K`, at the clock reading `clock` and after. -/
structure Alike (K : String → Prop) (clock : ℚ) (d d' : DeliveryDeduper) : Prop where
  same : d.SameClock d'
  live : ∀ k, K k → d.live clock k = d'.live clock k

theorem Alike.refl (K : String → Prop) (clock : ℚ) (d : DeliveryDeduper) : Alike K clock d d :=
  ⟨⟨rfl, rfl⟩, fun _ _ => rfl⟩

theorem Alike.off (h : Alike K clock d d') : d.off = d'.off := h.same.off.symm

theorem Alike.later (h : Alike K clock d d') (hnow : clock ≤ now) : Alike K now d d' := by
  refine ⟨h.same, fun k hk => ?_⟩
  have hexpired : d.expired now = d'.expired now := by
    funext marked
    rw [expired, expired, h.same.ttl, h.same.rounding]
  rw [live_later hnow, live_later hnow, h.live k hk, hexpired]

/-- They answer alike. -/
theorem Alike.answer (h : Alike K now d d') (hkey : K key) :
    (d.seen key now).1 = (d'.seen key now).1 := by
  rw [seen_eq, seen_eq, h.off, h.live key hkey]

theorem SameClock.symm (h : d.SameClock d') : d'.SameClock d := ⟨h.ttl.symm, h.rounding.symm⟩

theorem Alike.seen_left (h : Alike K now d d') (key : String) :
    Alike K now (d.seen key now).2 d' :=
  ⟨(seen_same d key now).symm.trans h.same, fun k hk => live_seen.trans (h.live k hk)⟩

theorem Alike.seen (h : Alike K now d d') (key : String) :
    Alike K now (d.seen key now).2 (d'.seen key now).2 :=
  ⟨(seen_same d key now).symm.trans (h.same.trans (seen_same d' key now)),
    fun k hk => live_seen.trans ((h.live k hk).trans live_seen.symm)⟩

theorem mark_of_off (hoff : d.off = true) : d.mark key now = d := by
  rw [DeliveryDeduper.mark, if_pos hoff]

/-- A mark outside `K` does not show. -/
theorem Alike.mark_left (h : Alike K now d d') (hkey : ¬ K key)
    (hswept : ∀ k, K k → d.SweepsExpired key now k) : Alike K now (d.mark key now) d' := by
  refine ⟨(mark_same d key now).symm.trans h.same, fun k hk => ?_⟩
  have hne : k ≠ key := fun heq => hkey (heq ▸ hk)
  cases hoff : d.off with
  | true => rw [mark_of_off hoff, h.live k hk]
  | false => rw [live_mark hoff (hswept k hk), if_neg hne, h.live k hk]

theorem Alike.mark (h : Alike K now d d') (hswept : ∀ k, K k → d.SweepsExpired key now k)
    (hswept' : ∀ k, K k → d'.SweepsExpired key now k) :
    Alike K now (d.mark key now) (d'.mark key now) := by
  refine ⟨(mark_same d key now).symm.trans (h.same.trans (mark_same d' key now)), fun k hk => ?_⟩
  cases hoff : d.off with
  | true =>
    have hoff' : d'.off = true := h.off ▸ hoff
    rw [mark_of_off hoff, mark_of_off hoff', h.live k hk]
  | false =>
    have hoff' : d'.off = false := h.off ▸ hoff
    rw [live_mark hoff (hswept k hk), live_mark hoff' (hswept' k hk), h.live k hk]

end BasecradleRouter.Dedup.DeliveryDeduper
