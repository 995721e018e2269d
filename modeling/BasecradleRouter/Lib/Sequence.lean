/-
# Runs over a list of inputs

A component whose every step is total, `step : σ → ι → σ`, runs over a list of inputs by taking
them one after the other.  Where `Steps` asks only where a run leads, this is about its
*history*: `Met step s l m i` says that on the run over `l` from `s` the input `i` met the state
`m`.

Two rules follow.  `after_invariant` is the invariant rule, for an invariant that may mention
the inputs so far.  `born_of_held` is the rule for what a state holds: if every step either gives
birth to a thing or held it before, then whatever a run's end holds some input gave birth to.

`Latest step s l P i` says that of the inputs that met a state as `P` asks, `i` was the last one;
`latest_snoc` is its rule for one input more.

`unwinding` is the rule for taking some inputs out of a run: what relates the two states must be
kept by an input that both runs take, and by one that only the fuller run takes.
-/
import Mathlib.Data.List.Induction

namespace BasecradleRouter.Lib

variable {σ ι ρ : Type*}

/-- Where the inputs lead. -/
def after (step : σ → ι → σ) (s : σ) (l : List ι) : σ := l.foldl step s

section

variable (step : σ → ι → σ) (s : σ)

@[simp] theorem after_nil : after step s [] = s := rfl

theorem after_append (l l' : List ι) :
    after step s (l ++ l') = after step (after step s l) l' := List.foldl_append

@[simp] theorem after_snoc (l : List ι) (i : ι) :
    after step s (l ++ [i]) = step (after step s l) i := after_append step s l [i]

theorem after_cons (l : List ι) (i : ι) : after step s (i :: l) = after step (step s i) l := rfl

end

/-- On the run over `l` from `s`, the input `i` met the state `m`. -/
def Met (step : σ → ι → σ) (s : σ) (l : List ι) (m : σ) (i : ι) : Prop :=
  ∃ earlier later, l = earlier ++ i :: later ∧ m = after step s earlier

section

variable {step : σ → ι → σ} {s : σ}

theorem Met.append {l : List ι} {m : σ} {i : ι} (h : Met step s l m i) (l' : List ι) :
    Met step s (l ++ l') m i := by
  obtain ⟨earlier, later, rfl, rfl⟩ := h
  exact ⟨earlier, later ++ l', by simp, rfl⟩

theorem met_last (l : List ι) (i : ι) : Met step s (l ++ [i]) (after step s l) i :=
  ⟨l, [], rfl, rfl⟩

theorem Met.mem {l : List ι} {m : σ} {i : ι} (h : Met step s l m i) : i ∈ l := by
  obtain ⟨earlier, later, rfl, -⟩ := h
  simp

/-- **The invariant rule**, for an invariant of the inputs so far and the state they lead to. -/
theorem after_invariant {I : List ι → σ → Prop} (h0 : I [] s)
    (hstep : ∀ l i, I l (after step s l) → I (l ++ [i]) (step (after step s l) i)) (l : List ι) :
    I l (after step s l) := by
  induction l using List.reverseRecOn with
  | nil => exact h0
  | append_singleton l i ih =>
    rw [after_snoc]
    exact hstep l i ih

/-- **The rule for what is held.**  If nothing is held at first, and what is held after a step was
born in it or held before, then whatever is held was born on the way. -/
theorem born_of_held {holds : σ → ρ → Prop} {born : σ → ι → ρ → Prop} (h0 : ∀ r, ¬ holds s r)
    (hstep : ∀ m i r, holds (step m i) r → born m i r ∨ holds m r) (l : List ι) {r : ρ}
    (h : holds (after step s l) r) : ∃ m i, Met step s l m i ∧ born m i r := by
  induction l using List.reverseRecOn with
  | nil => exact absurd h (h0 r)
  | append_singleton l i ih =>
    rw [after_snoc] at h
    rcases hstep _ _ _ h with hborn | hheld
    · exact ⟨_, i, met_last l i, hborn⟩
    · obtain ⟨m, j, hmet, hborn⟩ := ih hheld
      exact ⟨m, j, hmet.append [i], hborn⟩

/-- What a step brought about and no step undoes holds at the end of the run. -/
theorem Met.persists {Q : σ → Prop} {l : List ι} {m : σ} {i : ι} (h : Met step s l m i)
    (hQ : Q (step m i)) (hstep : ∀ m j, Q m → Q (step m j)) : Q (after step s l) := by
  obtain ⟨earlier, later, rfl, rfl⟩ := h
  rw [after_append, after_cons]
  exact after_invariant (I := fun _ m => Q m) hQ (fun _ j hm => hstep _ j hm) later

/-! ## The latest input of a kind -/

/-- `i` is the latest input on the run that met its state as `P` asks. -/
def Latest (step : σ → ι → σ) (s : σ) (l : List ι) (P : σ → ι → Prop) (i : ι) : Prop :=
  ∃ earlier later, l = earlier ++ i :: later ∧ P (after step s earlier) i ∧
    ∀ mid j rest, later = mid ++ j :: rest → ¬ P (after step s (earlier ++ i :: mid)) j

theorem not_latest_nil {P : σ → ι → Prop} {i : ι} : ¬ Latest step s [] P i := by
  rintro ⟨earlier, later, h, -⟩
  simp at h

theorem latest_snoc {l : List ι} {P : σ → ι → Prop} {i j : ι} :
    Latest step s (l ++ [j]) P i ↔
      (P (after step s l) j ∧ i = j) ∨ (¬ P (after step s l) j ∧ Latest step s l P i) := by
  constructor
  · rintro ⟨earlier, later, hl, hP, hlater⟩
    rcases List.eq_nil_or_concat later with rfl | ⟨later', j', rfl⟩
    · obtain ⟨rfl, hj⟩ := List.append_inj' hl rfl
      obtain rfl : j = i := by simpa using hj
      exact Or.inl ⟨hP, rfl⟩
    · rw [List.concat_eq_append] at hl hlater
      rw [← List.cons_append, ← List.append_assoc] at hl
      obtain ⟨rfl, hj⟩ := List.append_inj' hl rfl
      obtain rfl : j = j' := by simpa using hj
      refine Or.inr ⟨hlater later' j [] rfl, earlier, later', rfl, hP, ?_⟩
      intro mid k rest hmid
      exact hlater mid k (rest ++ [j]) (by simp [hmid])
  · rintro (⟨hP, rfl⟩ | ⟨hP, earlier, later, rfl, hi, hlater⟩)
    · exact ⟨l, [], rfl, hP, fun mid j rest h => by simp at h⟩
    · refine ⟨earlier, later ++ [j], by simp, hi, fun mid k rest hmid => ?_⟩
      rcases List.eq_nil_or_concat rest with rfl | ⟨rest', j', rfl⟩
      · obtain ⟨rfl, hk⟩ := List.append_inj' hmid rfl
        obtain rfl : j = k := by simpa using hk
        exact hP
      · rw [List.concat_eq_append, ← List.cons_append, ← List.append_assoc] at hmid
        exact hlater mid k rest' (List.append_inj' hmid rfl).1

/-- Only what the run's inputs answer to `P` counts. -/
theorem latest_congr {l : List ι} {P Q : σ → ι → Prop} {i : ι}
    (h : ∀ m j, j ∈ l → (P m j ↔ Q m j)) : Latest step s l P i ↔ Latest step s l Q i := by
  refine exists_congr fun earlier => exists_congr fun later => and_congr_right fun hl => ?_
  subst hl
  refine and_congr (h _ i (by simp)) (forall₄_congr fun mid j rest hmid => ?_)
  subst hmid
  exact not_congr (h _ j (by simp))

end

/-! ## Taking inputs out of a run -/

/-- What the inputs of a run yield, each at the state it meets. -/
def gathered (step : σ → ι → σ) (f : σ → ι → List ρ) (s : σ) : List ι → List ρ
  | [] => []
  | i :: l => f s i ++ gathered step f (step s i) l

section

variable {step : σ → ι → σ} {s t : σ}

/-- The first input meets the state that the run starts in. -/
theorem met_first (l : List ι) (i : ι) : Met step s (i :: l) s i := ⟨[], l, rfl, rfl⟩

/-- What is met after the first input is met on the run. -/
theorem Met.cons {l : List ι} {m : σ} {i j : ι} (h : Met step (step s i) l m j) :
    Met step s (i :: l) m j := by
  obtain ⟨earlier, later, rfl, rfl⟩ := h
  exact ⟨i :: earlier, later, rfl, rfl⟩

theorem Met.of_cons {l : List ι} {m : σ} {i j : ι} (h : Met step s (i :: l) m j) :
    (m = s ∧ j = i) ∨ Met step (step s i) l m j := by
  obtain ⟨earlier, later, hl, rfl⟩ := h
  cases earlier with
  | nil =>
    cases hl
    exact Or.inl ⟨rfl, rfl⟩
  | cons k earlier =>
    cases hl
    exact Or.inr ⟨earlier, later, rfl, rfl⟩

theorem not_met_nil {m : σ} {i : ι} : ¬ Met step s [] m i := by
  rintro ⟨earlier, later, h, -⟩
  simp at h

/-- What is met on two runs, one after the other. -/
theorem Met.of_append {l l' : List ι} {m : σ} {i : ι} (h : Met step s (l ++ l') m i) :
    Met step s l m i ∨ Met step (after step s l) l' m i := by
  induction l generalizing s with
  | nil => exact Or.inr h
  | cons j l ih =>
    rcases h.of_cons with ⟨rfl, rfl⟩ | h
    · exact Or.inl (met_first l i)
    · exact (ih h).imp_left Met.cons

/-- What is yielded is in order, if it is at each input and from input to input. -/
theorem gathered_pairwise {f : σ → ι → List ρ} {R : ρ → ρ → Prop} {l : List ι}
    (hself : ∀ m, ∀ i ∈ l, (f m i).Pairwise R)
    (hnext : l.Pairwise fun i j => ∀ m m', ∀ a ∈ f m i, ∀ b ∈ f m' j, R a b) :
    (gathered step f s l).Pairwise R := by
  have hmem : ∀ {l : List ι} {s : σ} {b : ρ}, b ∈ gathered step f s l →
      ∃ m, ∃ j ∈ l, b ∈ f m j := by
    intro l
    induction l with
    | nil =>
      intro s b hb
      cases hb
    | cons j l ih =>
      intro s b hb
      rcases List.mem_append.mp hb with hb | hb
      · exact ⟨s, j, List.mem_cons_self, hb⟩
      · obtain ⟨m, k, hk, hb⟩ := ih hb
        exact ⟨m, k, List.mem_cons_of_mem _ hk, hb⟩
  induction l generalizing s with
  | nil => exact List.Pairwise.nil
  | cons i l ih =>
    obtain ⟨hfirst, hrest⟩ := List.pairwise_cons.mp hnext
    refine List.pairwise_append.mpr ⟨hself s i List.mem_cons_self,
      ih (fun m j hj => hself m j (List.mem_cons_of_mem _ hj)) hrest, fun a ha b hb => ?_⟩
    obtain ⟨m, j, hj, hb⟩ := hmem hb
    exact hfirst j hj s m a ha b hb

/-- **The unwinding rule**, for a relation that may mention the inputs still to come. -/
theorem unwinding {R : List ι → σ → σ → Prop} {kept : ι → Bool}
    (hkept : ∀ i l s t, kept i = true → R (i :: l) s t → R l (step s i) (step t i))
    (hgone : ∀ i l s t, kept i = false → R (i :: l) s t → R l (step s i) t)
    (l : List ι) (h : R l s t) : R [] (after step s l) (after step t (l.filter kept)) := by
  induction l generalizing s t with
  | nil => exact h
  | cons i l ih =>
    rw [after_cons]
    cases hi : kept i with
    | true =>
      rw [List.filter_cons_of_pos hi, after_cons]
      exact ih (hkept i l s t hi h)
    | false =>
      rw [List.filter_cons_of_neg (by simp [hi])]
      exact ih (hgone i l s t hi h)

end

end BasecradleRouter.Lib
