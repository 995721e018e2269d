/-
# A bounded map that forgets what was touched longest ago

Python's `OrderedDict` used as an LRU cache: entries stand in the order they were last touched,
a touch moves an entry to the end, and entries fall off the front while there are more than the
capacity.

`Fresh k v T d` says that `k` is held and everything touched since is in `T`.  A touch keeps it
(`Fresh.touch`) as long as `T` stays smaller than the capacity, so an entry survives any traffic
that touches fewer than `capacity` distinct other keys (`fresh_run`).
-/
import Mathlib.Data.Finset.Card
import Mathlib.Data.Finset.Dedup
import Mathlib.Data.List.Nodup

namespace BasecradleRouter.Lib

/-- An ordered map: its entries, oldest first, no key twice. -/
structure Lru (κ ν : Type*) where
  toList : List (κ × ν)
  distinct : (toList.map Prod.fst).Nodup

namespace Lru

variable {κ ν : Type*}

/-- `OrderedDict()` -/
def empty : Lru κ ν := ⟨[], List.nodup_nil⟩

/-- `while len(d) > capacity: d.popitem(last=False)` -/
def evict (capacity : ℕ) (d : Lru κ ν) : Lru κ ν where
  toList := d.toList.drop (d.toList.length - capacity)
  distinct := d.distinct.sublist ((List.drop_sublist _ d.toList).map Prod.fst)

variable [DecidableEq κ]

/-- `d.get(k)` -/
def get (d : Lru κ ν) (k : κ) : Option ν := (d.toList.find? (·.1 = k)).map Prod.snd

theorem nodup_touch (d : Lru κ ν) (k : κ) (v : ν) :
    ((d.toList.filter (·.1 ≠ k) ++ [(k, v)]).map Prod.fst).Nodup := by
  have hd : ((d.toList.filter (·.1 ≠ k)).map Prod.fst).Nodup :=
    d.distinct.sublist (List.filter_sublist.map Prod.fst)
  rw [List.map_append]
  refine List.nodup_append.mpr ⟨hd, List.nodup_singleton k, ?_⟩
  rintro a ha b hb rfl
  obtain ⟨p, hp, rfl⟩ := List.mem_map.mp ha
  have hne : p.1 ≠ k := by simpa using (List.mem_filter.mp hp).2
  exact hne (List.mem_singleton.mp hb)

/-- `d[k] = v; d.move_to_end(k)` -/
def touch (d : Lru κ ν) (k : κ) (v : ν) : Lru κ ν where
  toList := d.toList.filter (·.1 ≠ k) ++ [(k, v)]
  distinct := d.nodup_touch k v

/-- An entry is found by its key. -/
theorem get_eq_some {d : Lru κ ν} {k : κ} {v : ν} : d.get k = some v ↔ (k, v) ∈ d.toList := by
  unfold get
  constructor
  · intro hget
    obtain ⟨p, hp, rfl⟩ := Option.map_eq_some_iff.mp hget
    have hk : p.1 = k := by simpa using List.find?_some hp
    subst hk
    exact List.mem_of_find?_eq_some hp
  · intro hmem
    cases hf : d.toList.find? (·.1 = k) with
    | none => exact absurd hmem (by simpa using List.find?_eq_none.mp hf (k, v))
    | some p =>
      have hk : p.1 = k := by simpa using List.find?_some hf
      have hp : p ∈ d.toList := List.mem_of_find?_eq_some hf
      have heq : p = (k, v) := List.inj_on_of_nodup_map d.distinct hp hmem hk
      simp [heq]

theorem mem_touch {d : Lru κ ν} {k k' : κ} {v v' : ν} :
    (k', v') ∈ (d.touch k v).toList ↔ (k' ≠ k ∧ (k', v') ∈ d.toList) ∨ (k' = k ∧ v' = v) := by
  simp only [touch, List.mem_append, List.mem_filter, List.mem_singleton, Prod.mk.injEq]
  constructor
  · rintro (⟨h1, h2⟩ | h)
    · exact Or.inl ⟨by simpa using h2, h1⟩
    · exact Or.inr h
  · rintro (⟨h1, h2⟩ | h)
    · exact Or.inl ⟨h2, by simpa using h1⟩
    · exact Or.inr h

omit [DecidableEq κ] in
/-- Evicting only forgets. -/
theorem mem_of_mem_evict {d : Lru κ ν} {capacity : ℕ} {p : κ × ν}
    (h : p ∈ (evict capacity d).toList) : p ∈ d.toList :=
  (List.drop_sublist _ d.toList).subset h

omit [DecidableEq κ] in
theorem length_evict_le (capacity : ℕ) (d : Lru κ ν) :
    (evict capacity d).toList.length ≤ capacity := by
  simp only [evict, List.length_drop]
  omega

/-- Touch a key, then evict down to the capacity. -/
def put (capacity : ℕ) (d : Lru κ ν) (k : κ) (v : ν) : Lru κ ν :=
  evict capacity (d.touch k v)

/-- What is held after a `put` was put, or was held before. -/
theorem mem_of_mem_put {d : Lru κ ν} {capacity : ℕ} {k k' : κ} {v v' : ν}
    (h : (k', v') ∈ (d.put capacity k v).toList) :
    (k' = k ∧ v' = v) ∨ (k', v') ∈ d.toList := by
  rcases mem_touch.mp (mem_of_mem_evict h) with ⟨-, hmem⟩ | heq
  · exact Or.inr hmem
  · exact Or.inl heq

/-- A key other than the one that was put is held as it was, or has fallen off. -/
theorem get_put_of_ne (d : Lru κ ν) (capacity : ℕ) {k k' : κ} (v : ν) (h : k' ≠ k) :
    (d.put capacity k v).get k' = d.get k' ∨ (d.put capacity k v).get k' = none := by
  cases hget : (d.put capacity k v).get k' with
  | none => exact Or.inr rfl
  | some v' =>
    rcases mem_of_mem_put (get_eq_some.mp hget) with ⟨heq, -⟩ | hmem
    · exact absurd heq h
    · exact Or.inl (get_eq_some.mpr hmem).symm

/-- A key that was put is held, where there is room for one. -/
theorem get_put_self {d : Lru κ ν} {capacity : ℕ} (h : 1 ≤ capacity) (k : κ) (v : ν) :
    (d.put capacity k v).get k = some v := by
  refine get_eq_some.mpr ?_
  unfold put evict touch
  dsimp only
  rw [List.drop_append_of_le_length (by simp; omega)]
  simp

/-! ## Survival -/

omit [DecidableEq κ] in
/-- `k` is held with value `v`, and whatever was touched since is in `T`. -/
def Fresh (k : κ) (v : ν) (T : Finset κ) (d : Lru κ ν) : Prop :=
  ∃ older newer, d.toList = older ++ (k, v) :: newer ∧ ∀ p ∈ newer, p.1 ∈ T

theorem fresh_touch_self (d : Lru κ ν) (k : κ) (v : ν) (T : Finset κ) :
    Fresh k v T (d.touch k v) :=
  ⟨d.toList.filter (·.1 ≠ k), [], rfl, by simp⟩

theorem Fresh.touch {d : Lru κ ν} {k k' : κ} {v v' : ν} {T : Finset κ} (h : Fresh k v T d)
    (hk : k' ≠ k) (hT : k' ∈ T) : Fresh k v T (d.touch k' v') := by
  obtain ⟨older, newer, hd, hnew⟩ := h
  refine ⟨older.filter (·.1 ≠ k'), newer.filter (·.1 ≠ k') ++ [(k', v')], ?_, ?_⟩
  · simp [Lru.touch, hd, Ne.symm hk]
  · intro p hp
    rcases List.mem_append.mp hp with h0 | h0
    · exact hnew p (List.mem_filter.mp h0).1
    · rw [List.mem_singleton.mp h0]
      exact hT

/-- An entry with fewer than `capacity` entries after it is not the one that falls off. -/
theorem Fresh.evict {d : Lru κ ν} {k : κ} {v : ν} {T : Finset κ} {capacity : ℕ}
    (h : Fresh k v T d) (hT : T.card < capacity) : Fresh k v T (evict capacity d) := by
  obtain ⟨older, newer, hlist, hnew⟩ := h
  have hnodup : (newer.map Prod.fst).Nodup := by
    have hall := d.distinct
    rw [hlist, List.map_append, List.map_cons] at hall
    exact (List.nodup_cons.mp (List.nodup_append.mp hall).2.1).2
  have hlen : newer.length ≤ T.card := by
    have hsub : (newer.map Prod.fst).toFinset ⊆ T := by
      intro a ha
      obtain ⟨p, hp, rfl⟩ := List.mem_map.mp (List.mem_toFinset.mp ha)
      exact hnew p hp
    have hcard := Finset.card_le_card hsub
    rwa [List.toFinset_card_of_nodup hnodup, List.length_map] at hcard
  refine ⟨older.drop (d.toList.length - capacity), newer, ?_, hnew⟩
  have hle : d.toList.length - capacity ≤ older.length := by
    rw [hlist]
    simp only [List.length_append, List.length_cons]
    omega
  have htoList : (Lru.evict capacity d).toList =
      d.toList.drop (d.toList.length - capacity) := rfl
  rw [htoList]
  conv_lhs => rw [hlist]
  rw [List.drop_append_of_le_length (by rw [← hlist]; exact hle), ← hlist]

/-- What is put is fresh, where there is room for one. -/
theorem fresh_put_self (d : Lru κ ν) (k : κ) (v : ν) {T : Finset κ} {capacity : ℕ}
    (hT : T.card < capacity) : Fresh k v T (d.put capacity k v) :=
  (fresh_touch_self d k v T).evict hT

/-- An entry stays fresh while others in `T` are put. -/
theorem Fresh.put {d : Lru κ ν} {k k' : κ} {v v' : ν} {T : Finset κ} {capacity : ℕ}
    (h : Fresh k v T d) (hk : k' ≠ k) (hk' : k' ∈ T) (hT : T.card < capacity) :
    Fresh k v T (d.put capacity k' v') :=
  (h.touch hk hk').evict hT

/-! ## Room for all -/

omit [DecidableEq κ] in
/-- Whatever is held has one of these keys. -/
def Within (keys : Finset κ) (d : Lru κ ν) : Prop := ∀ p ∈ d.toList, p.1 ∈ keys

theorem Within.put {d : Lru κ ν} {keys : Finset κ} (h : Within keys d) {k : κ} (hk : k ∈ keys)
    (capacity : ℕ) (v : ν) : Within keys (d.put capacity k v) := by
  rintro ⟨k', v'⟩ hmem
  rcases mem_of_mem_put hmem with ⟨rfl, -⟩ | hold
  · exact hk
  · exact h _ hold

omit [DecidableEq κ] in
/-- No more entries than keys. -/
theorem Within.length_le {d : Lru κ ν} {keys : Finset κ} (h : Within keys d) :
    d.toList.length ≤ keys.card := by
  classical
  have hsub : (d.toList.map Prod.fst).toFinset ⊆ keys := by
    intro k hk
    obtain ⟨p, hp, rfl⟩ := List.mem_map.mp (List.mem_toFinset.mp hk)
    exact h p hp
  have hcard := Finset.card_le_card hsub
  rwa [List.toFinset_card_of_nodup d.distinct, List.length_map] at hcard

/-- A key that is not held leaves room for fewer. -/
theorem Within.length_lt {d : Lru κ ν} {keys : Finset κ} (h : Within keys d) {k : κ} (hk : k ∈ keys)
    (hnone : d.get k = none) : d.toList.length < keys.card := by
  have hwithin : Within (keys.erase k) d := by
    intro p hp
    refine Finset.mem_erase.mpr ⟨?_, h p hp⟩
    rintro rfl
    rw [get_eq_some.mpr hp] at hnone
    cases hnone
  exact lt_of_le_of_lt hwithin.length_le (Finset.card_erase_lt_of_mem hk)

/-- A fresh entry is held. -/
theorem Fresh.get {d : Lru κ ν} {k : κ} {v : ν} {T : Finset κ} (h : Fresh k v T d) :
    d.get k = some v := by
  obtain ⟨older, newer, hlist, -⟩ := h
  exact get_eq_some.mpr (by rw [hlist]; simp)

/-! ## What falls off -/

/-- A key that is held makes no entry more. -/
theorem length_touch_le (d : Lru κ ν) {k : κ} (h : (d.get k).isSome = true) (v : ν) :
    (d.touch k v).toList.length ≤ d.toList.length := by
  obtain ⟨u, hu⟩ := Option.isSome_iff_exists.mp h
  have hlt : (d.toList.filter (·.1 ≠ k)).length < d.toList.length :=
    List.length_filter_lt_length_iff_exists.mpr ⟨(k, u), get_eq_some.mp hu, by simp⟩
  unfold touch
  rw [List.length_append, List.length_singleton]
  exact hlt

/-- A key that is not held comes after every entry. -/
theorem touch_of_get_none {d : Lru κ ν} {k : κ} (h : d.get k = none) (v : ν) :
    (d.touch k v).toList = d.toList ++ [(k, v)] := by
  have hall : d.toList.filter (·.1 ≠ k) = d.toList := by
    refine List.filter_eq_self.mpr fun p hp => ?_
    unfold get at h
    rw [Option.map_eq_none_iff, List.find?_eq_none] at h
    simpa using h p hp
  exact congrArg (· ++ [(k, v)]) hall

omit [DecidableEq κ] in
/-- The key touched longest ago. -/
def oldest (d : Lru κ ν) : Option κ := d.toList.head?.map Prod.fst

/-- **Only a new key lets another go**, where the map is full: the oldest. -/
theorem get_put_other {d : Lru κ ν} {capacity : ℕ} (hle : d.toList.length ≤ capacity) {k k' : κ}
    (hne : k' ≠ k) (v : ν) :
    (d.put capacity k v).get k' =
      if d.get k = none ∧ d.toList.length = capacity ∧ d.oldest = some k' then none
      else d.get k' := by
  have hput : (d.put capacity k v).toList =
      (d.touch k v).toList.drop ((d.touch k v).toList.length - capacity) := rfl
  have hkeep : (d.put capacity k v).toList = (d.touch k v).toList →
      (d.put capacity k v).get k' = d.get k' := by
    intro hall
    refine Option.ext fun v' => ?_
    rw [get_eq_some, get_eq_some, hall, mem_touch]
    simp [hne]
  cases hknown : d.get k with
  | some u =>
    rw [if_neg fun h => nomatch h.1]
    have hlength := d.length_touch_le (by rw [hknown]; rfl) v
    exact hkeep (by rw [hput, Nat.sub_eq_zero_of_le (le_trans hlength hle), List.drop_zero])
  | none =>
    have htouch := touch_of_get_none hknown v
    rw [htouch, List.length_append, List.length_singleton] at hput
    by_cases hfull : d.toList.length = capacity
    · rw [hfull, Nat.add_sub_cancel_left] at hput
      cases hlist : d.toList with
      | nil =>
        have hold : d.oldest = none := by rw [oldest, hlist]; rfl
        rw [if_neg (by rw [hold]; exact fun h => nomatch h.2.2)]
        refine Option.ext fun v' => ?_
        rw [get_eq_some, get_eq_some, hput, hlist]
        simp
      | cons p rest =>
        have hold : d.oldest = some p.1 := by rw [oldest, hlist]; rfl
        have hdistinct := d.distinct
        rw [hlist, List.map_cons, List.nodup_cons] at hdistinct
        rw [hlist, List.cons_append, List.drop_succ_cons, List.drop_zero] at hput
        by_cases hk' : p.1 = k'
        · rw [if_pos ⟨rfl, by rw [← hlist]; exact hfull, by rw [hold, hk']⟩]
          refine Option.eq_none_iff_forall_ne_some.mpr fun v' hv' => ?_
          rw [get_eq_some, hput, List.mem_append, List.mem_singleton] at hv'
          rcases hv' with hrest | heq
          · refine hdistinct.1 ?_
            rw [hk']
            exact List.mem_map.mpr ⟨_, hrest, rfl⟩
          · exact hne (congrArg Prod.fst heq)
        · rw [if_neg (by rw [hold]; exact fun h => hk' (Option.some.inj h.2.2))]
          refine Option.ext fun v' => ?_
          have hp : p ≠ (k', v') := fun h => hk' (congrArg Prod.fst h)
          rw [get_eq_some, get_eq_some, hput, hlist]
          simp [hne, Ne.symm hp]
    · rw [if_neg fun h => hfull h.2.1]
      refine hkeep ?_
      rw [hput, htouch, Nat.sub_eq_zero_of_le (by omega), List.drop_zero]

/-! ## Runs -/

section Run

variable {α : Type*} (run : List α → Lru κ ν) (key : α → κ) {l : List α}

/-- In a run whose steps put at their own keys, or change nothing, only these keys are added. -/
theorem within_run {keys : Finset κ} (h : Within keys (run [])) (hkeys : ∀ a ∈ l, key a ∈ keys)
    (hstep : ∀ before a after, l = before ++ a :: after →
      (∃ capacity v, run (before ++ [a]) = (run before).put capacity (key a) v) ∨
        run (before ++ [a]) = run before) : Within keys (run l) := by
  induction l using List.reverseRecOn with
  | nil => exact h
  | append_singleton l a ih =>
    have hbefore := ih (fun b hb => hkeys b (List.mem_append_left _ hb))
      fun before b after hl => hstep before b (after ++ [a]) (by rw [hl]; simp)
    rcases hstep l a [] rfl with ⟨_, _, hput⟩ | hsame
    · rw [hput]
      exact hbefore.put (hkeys a (by simp)) _ _
    · rw [hsame]
      exact hbefore

/-- **An entry of a run is held while fewer others than the capacity are put**, if the first step at
its key puts it. -/
theorem fresh_run {k : κ} {T : Finset κ} {capacity : ℕ}
    (hT : ∀ a ∈ l, key a ≠ k → key a ∈ T) (hcard : T.card < capacity)
    (hstep : ∀ before a after, l = before ++ a :: after →
      (∃ v, run (before ++ [a]) = (run before).put capacity (key a) v) ∨
        run (before ++ [a]) = run before ∧ (key a = k → ∃ b ∈ before, key b = k))
    (hmem : ∃ a ∈ l, key a = k) : ∃ v, Fresh k v T (run l) := by
  induction l using List.reverseRecOn with
  | nil =>
    obtain ⟨_, hnil, -⟩ := hmem
    cases hnil
  | append_singleton l a ih =>
    have hbefore := ih (fun b hb => hT b (List.mem_append_left _ hb))
      fun before b after hl => hstep before b (after ++ [a]) (by rw [hl]; simp)
    have hlast : key a = k ∨ ∃ b ∈ l, key b = k := by
      obtain ⟨b, hb, hbk⟩ := hmem
      rcases List.mem_append.mp hb with hold | hnew
      · exact Or.inr ⟨b, hold, hbk⟩
      · rw [List.mem_singleton.mp hnew] at hbk
        exact Or.inl hbk
    rcases hstep l a [] rfl with ⟨v, hput⟩ | ⟨hsame, hknown⟩
    · rw [hput]
      by_cases hk : key a = k
      · rw [hk]
        exact ⟨v, fresh_put_self _ _ _ hcard⟩
      · obtain ⟨v', hv'⟩ := hbefore (hlast.resolve_left hk)
        exact ⟨v', hv'.put hk (hT a (by simp) hk) hcard⟩
    · rw [hsame]
      exact hbefore (hlast.elim hknown id)

end Run

end Lru

end BasecradleRouter.Lib
