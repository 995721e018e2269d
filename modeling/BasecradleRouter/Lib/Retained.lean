/-
# What a bounded store still holds

A store takes in one report after another, each under its key and with a stamp.  A report of a key
that is held leaves the later of the two stamps there, and one of a key that is not held opens it,
or changes nothing.  To make room a report may let another key's entry go.

A report that opens its key is held in the end, with a stamp no older than its own, unless its key
is let go later and what is reported after that does not bring it back (`allHeld_iff`).
-/
import Mathlib.Data.List.Induction
import Mathlib.Order.MinMax

namespace BasecradleRouter.Lib

/-- A store of stamped entries that may let one go to make room for another. -/
structure Retaining (σ κ α τ : Type*) [LinearOrder τ] where
  record : σ → α → σ
  key : α → κ
  stamp : α → τ
  opens : α → Bool
  stampAt : σ → κ → Option τ
  LetsGo : σ → α → κ → Prop
  of_letsGo : ∀ s a k, LetsGo s a k →
    k ≠ key a ∧ (stampAt s k).isSome = true ∧ stampAt (record s a) k = none
  self_none : ∀ s a, stampAt s (key a) = none →
    stampAt (record s a) (key a) = if opens a then some (stamp a) else none
  self_some : ∀ s a t, stampAt s (key a) = some t →
    stampAt (record s a) (key a) = some (max t (stamp a))
  other : ∀ s a k, k ≠ key a → ¬ LetsGo s a k → stampAt (record s a) k = stampAt s k

namespace Retaining

variable {σ κ α τ : Type*} [LinearOrder τ] (r : Retaining σ κ α τ)

/-- The store after reports in the order they come. -/
def recordAll (s : σ) (l : List α) : σ := l.foldl r.record s

/-- The key is held, with a stamp no older than `t`. -/
def Holds (s : σ) (k : κ) (t : τ) : Prop := ∃ u, r.stampAt s k = some u ∧ t ≤ u

/-- The reports bring a key that is not held back to `t`: one opens it, and from there on one is as
late. -/
def BringsBack (k : κ) (t : τ) (l : List α) : Prop :=
  ∃ before a after, l = before ++ a :: after ∧ r.key a = k ∧ r.opens a = true ∧
    ∃ b ∈ a :: after, r.key b = k ∧ t ≤ r.stamp b

/-- The key of a wanted report is let go later, and not brought back. -/
def Loses (wanted : α → Prop) (s : σ) (l : List α) : Prop :=
  ∃ before a mid b after, l = before ++ a :: (mid ++ b :: after) ∧ wanted a ∧
    r.LetsGo (r.recordAll s (before ++ a :: mid)) b (r.key a) ∧
    ¬ r.BringsBack (r.key a) (r.stamp a) after

variable {r} {s : σ} {k : κ} {t : τ} {a : α} {l : List α}

theorem recordAll_append (s : σ) (l l' : List α) :
    r.recordAll s (l ++ l') = r.recordAll (r.recordAll s l) l' :=
  List.foldl_append

theorem recordAll_snoc (s : σ) (l : List α) (a : α) :
    r.recordAll s (l ++ [a]) = r.record (r.recordAll s l) a :=
  List.foldl_append

/-- A report that opens its key is held. -/
theorem holds_record (s : σ) (hopens : r.opens a = true) :
    r.Holds (r.record s a) (r.key a) (r.stamp a) := by
  cases hknown : r.stampAt s (r.key a) with
  | none => exact ⟨r.stamp a, by rw [r.self_none s a hknown, if_pos hopens], le_refl _⟩
  | some u => exact ⟨_, r.self_some s a u hknown, le_max_right _ _⟩

/-- A report of a key that is held leaves both stamps. -/
theorem Holds.record (h : r.Holds s k t) (hnot : ¬ r.LetsGo s a k) :
    r.Holds (r.record s a) k t := by
  obtain ⟨u, hknown, hle⟩ := h
  by_cases hk : k = r.key a
  · subst hk
    exact ⟨_, r.self_some s a u hknown, le_trans hle (le_max_left _ _)⟩
  · exact ⟨u, by rw [r.other s a k hk hnot, hknown], hle⟩

theorem BringsBack.append (h : r.BringsBack k t l) (l' : List α) :
    r.BringsBack k t (l ++ l') := by
  obtain ⟨before, a, after, rfl, hkey, hopens, b, hb, hbkey, hle⟩ := h
  refine ⟨before, a, after ++ l', by simp, hkey, hopens, b, ?_, hbkey, hle⟩
  exact List.mem_append_left l' hb

/-- What is held of a key that was not was brought back. -/
theorem bringsBack_of_holds (hnone : r.stampAt s k = none)
    (h : r.Holds (r.recordAll s l) k t) : r.BringsBack k t l := by
  induction l using List.reverseRecOn generalizing t with
  | nil =>
    obtain ⟨u, hknown, -⟩ := h
    rw [recordAll, List.foldl_nil, hnone] at hknown
    cases hknown
  | append_singleton l a ih =>
    obtain ⟨u, hknown, hle⟩ := h
    rw [recordAll_snoc] at hknown
    by_cases hk : k = r.key a
    · subst hk
      cases hbefore : r.stampAt (r.recordAll s l) (r.key a) with
      | none =>
        rw [r.self_none _ a hbefore] at hknown
        split at hknown
        · next hopens =>
          cases hknown
          exact ⟨l, a, [], rfl, rfl, hopens, a, List.mem_cons_self, rfl, hle⟩
        · cases hknown
      | some v =>
        rw [r.self_some _ a v hbefore] at hknown
        cases hknown
        rcases le_max_iff.mp hle with hold | hnew
        · exact (ih ⟨v, hbefore, hold⟩).append [a]
        · -- the key was opened before, and `a` is as late
          obtain ⟨before, b, after, rfl, hkey, hopens, -⟩ := ih ⟨v, hbefore, le_refl v⟩
          exact ⟨before, b, after ++ [a], by simp, hkey, hopens, a, by simp, rfl, hnew⟩
    · by_cases hgo : r.LetsGo (r.recordAll s l) a k
      · rw [(r.of_letsGo _ a k hgo).2.2] at hknown
        cases hknown
      · rw [r.other _ a k hk hgo] at hknown
        exact (ih ⟨u, hknown, hle⟩).append [a]

/-- What a key still needs of the reports to come: nothing, one as late, or to be brought back. -/
def Awaits (r : Retaining σ κ α τ) (s : σ) (k : κ) (t : τ) (l : List α) : Prop :=
  r.Holds s k t ∨ ((r.stampAt s k).isSome = true ∧ ∃ b ∈ l, r.key b = k ∧ t ≤ r.stamp b) ∨
    r.BringsBack k t l

/-- A key that is held gets what it awaits of the next report or still awaits it, unless it is let
go. -/
theorem Awaits.record (h : r.Awaits s k t (a :: l)) (hnot : ¬ r.LetsGo s a k) :
    r.Awaits (r.record s a) k t l := by
  have hknown : (r.stampAt s k).isSome = true →
      (r.stampAt (r.record s a) k).isSome = true := by
    intro hsome
    obtain ⟨u, hu⟩ := Option.isSome_iff_exists.mp hsome
    obtain ⟨v, hv, -⟩ := Holds.record ⟨u, hu, le_refl u⟩ hnot
    exact Option.isSome_iff_exists.mpr ⟨v, hv⟩
  rcases h with hholds | ⟨hsome, b, hb, hkey, hle⟩ | ⟨before, b, after, hl, hkey, hopens, hlate⟩
  · exact Or.inl (hholds.record hnot)
  · rcases List.mem_cons.mp hb with rfl | hb
    · subst hkey
      obtain ⟨u, hu⟩ := Option.isSome_iff_exists.mp hsome
      exact Or.inl ⟨_, r.self_some s b u hu, le_trans hle (le_max_right _ _)⟩
    · exact Or.inr (Or.inl ⟨hknown hsome, b, hb, hkey, hle⟩)
  · cases before with
    | cons c before =>
      obtain ⟨rfl, rfl⟩ := List.cons.inj hl
      exact Or.inr (Or.inr ⟨before, b, after, rfl, hkey, hopens, hlate⟩)
    | nil =>
      obtain ⟨rfl, rfl⟩ := List.cons.inj hl
      obtain ⟨u, hu, hle⟩ := holds_record s hopens
      rw [hkey] at hu
      obtain ⟨c, hc, hckey, hcle⟩ := hlate
      rcases List.mem_cons.mp hc with rfl | hc
      · exact Or.inl ⟨u, hu, le_trans hcle hle⟩
      · exact Or.inr (Or.inl ⟨by rw [hu]; rfl, c, hc, hckey, hcle⟩)

/-- A key gets what it awaits if it is brought back whenever it is let go. -/
theorem holds_of_awaits (h : r.Awaits s k t l)
    (hback : ∀ before b after, l = before ++ b :: after → r.LetsGo (r.recordAll s before) b k →
      r.BringsBack k t after) : r.Holds (r.recordAll s l) k t := by
  induction l generalizing s with
  | nil =>
    rcases h with hholds | ⟨-, b, hb, -⟩ | ⟨before, b, after, hnil, -⟩
    · exact hholds
    · cases hb
    · exact absurd hnil (by simp)
  | cons a l ih =>
    refine ih ?_ fun before b after hl hgo => hback (a :: before) b after (by rw [hl]; rfl) hgo
    by_cases hgo : r.LetsGo s a k
    · exact Or.inr (Or.inr (hback [] a l rfl hgo))
    · exact h.record hgo

/-- A key that is held is held in the end exactly if it is brought back whenever it is let go. -/
theorem holds_recordAll_iff (h : r.Holds s k t) :
    r.Holds (r.recordAll s l) k t ↔ ∀ before b after, l = before ++ b :: after →
      r.LetsGo (r.recordAll s before) b k → r.BringsBack k t after := by
  constructor
  · rintro hholds before b after rfl hgo
    rw [recordAll_append] at hholds
    exact bringsBack_of_holds (r.of_letsGo _ b k hgo).2.2 hholds
  · exact holds_of_awaits (Or.inl h)

/-- **Every wanted report is held in the end**, with a stamp no older than its own, exactly if the
key of none is let go for good. -/
theorem allHeld_iff {wanted : α → Prop} (hwanted : ∀ a, wanted a → r.opens a = true) (s : σ)
    (l : List α) :
    (∀ a ∈ l, wanted a → r.Holds (r.recordAll s l) (r.key a) (r.stamp a)) ↔
      ¬ r.Loses wanted s l := by
  have hafter : ∀ before a after, r.opens a = true →
      (r.Holds (r.recordAll s (before ++ a :: after)) (r.key a) (r.stamp a) ↔
        ∀ mid b rest, after = mid ++ b :: rest →
          r.LetsGo (r.recordAll s (before ++ a :: mid)) b (r.key a) →
          r.BringsBack (r.key a) (r.stamp a) rest) := by
    intro before a after hopens
    rw [recordAll_append]
    refine (holds_recordAll_iff (holds_record (r.recordAll s before) hopens)).trans ?_
    simp only [recordAll_append]
    exact Iff.rfl
  constructor
  · rintro hall ⟨before, a, mid, b, after, rfl, ha, hgo, hlost⟩
    exact hlost ((hafter before a _ (hwanted a ha)).mp (hall a (by simp) ha) mid b after rfl hgo)
  · intro hkept a hmem ha
    obtain ⟨before, after, rfl⟩ := List.append_of_mem hmem
    refine (hafter before a after (hwanted a ha)).mpr fun mid b rest hsplit hgo => ?_
    by_contra hlost
    exact hkept ⟨before, a, mid, b, rest, by rw [hsplit], ha, hgo, hlost⟩

end Retaining

end BasecradleRouter.Lib
