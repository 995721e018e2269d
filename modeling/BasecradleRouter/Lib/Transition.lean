/-
# Runs of a labelled transition system

A component whose steps are a partial function `step : σ → ι → Option σ` (`none` where the
label is not enabled) runs by taking labels one after the other.  Nothing here knows what a
state or a label is.  The rules the developments below use are the invariant rule
(`Steps.invariant`: what one step preserves, a run preserves; `Steps.invariant_of` where only some
labels do), the abstraction rule (`Steps.abstracts`: if every step moves an abstract value by a
relation, a run moves it by that relation's reflexive transitive closure), the trace rule
(`Steps.traces`: what every step adds to a trace, a run adds in order) and the measure rule
(`Steps.bounded`: if every step leaves less to do, a run is no longer than what there was to do).
-/
import Mathlib.Data.Nat.Notation
import Mathlib.Logic.Relation

namespace BasecradleRouter.Lib

variable {σ ι τ : Type*}

/-- `Steps step s ls s'`: the labels `ls`, taken in order, lead from `s` to `s'`. -/
inductive Steps (step : σ → ι → Option σ) : σ → List ι → σ → Prop
  | nil (s : σ) : Steps step s [] s
  | cons {s s₁ s' : σ} {l : ι} {ls : List ι} :
      step s l = some s₁ → Steps step s₁ ls s' → Steps step s (l :: ls) s'

namespace Steps

variable {step : σ → ι → Option σ}

/-- The state a list of labels leads to, computed. -/
def run (step : σ → ι → Option σ) : σ → List ι → Option σ
  | s, [] => some s
  | s, l :: ls => (step s l).bind fun s' => run step s' ls

theorem of_run {s s' : σ} {ls : List ι} (h : run step s ls = some s') : Steps step s ls s' := by
  induction ls generalizing s with
  | nil =>
    obtain rfl : s = s' := Option.some.inj h
    exact .nil s
  | cons l ls ih =>
    obtain ⟨s₁, hl, hrest⟩ := Option.bind_eq_some_iff.mp h
    exact .cons hl (ih hrest)

/-- Runs compose. -/
theorem trans {s m s' : σ} {ls ls' : List ι} (h : Steps step s ls m)
    (h' : Steps step m ls' s') : Steps step s (ls ++ ls') s' := by
  induction h with
  | nil => exact h'
  | cons hl _ ih => exact .cons hl (ih h')

/-- **The invariant rule.**  What every enabled step preserves holds at the end of every run
that starts where it holds. -/
theorem invariant {I : σ → Prop} (hstep : ∀ s l s', I s → step s l = some s' → I s')
    {s s' : σ} {ls : List ι} (h : Steps step s ls s') (hs : I s) : I s' := by
  induction h with
  | nil => exact hs
  | cons hl _ ih => exact ih (hstep _ _ _ hs hl)

/-- The invariant rule, for runs by labels of `P`. -/
theorem invariant_of {I : σ → Prop} {P : ι → Prop}
    (hstep : ∀ s l s', I s → P l → step s l = some s' → I s') {s s' : σ} {ls : List ι}
    (h : Steps step s ls s') (hs : I s) (hls : ∀ l ∈ ls, P l) : I s' := by
  induction h with
  | nil => exact hs
  | cons hl _ ih =>
    obtain ⟨hfirst, hrest⟩ := List.forall_mem_cons.mp hls
    exact ih (hstep _ _ _ hs hfirst hl) hrest

/-- **The trace rule.**  If, under an invariant, each step by a label of `P` adds to a trace what
its label is worth, then so does a run by such labels. -/
theorem traces {I : σ → Prop} {P : ι → Prop} (trace : σ → List τ) (worth : ι → List τ)
    (hI : ∀ s l s', I s → P l → step s l = some s' → I s')
    (hadds : ∀ s l s', I s → P l → step s l = some s' → trace s' = trace s ++ worth l)
    {s s' : σ} {ls : List ι} (h : Steps step s ls s') (hs : I s) (hls : ∀ l ∈ ls, P l) :
    trace s' = trace s ++ ls.flatMap worth := by
  induction h with
  | nil => rw [List.flatMap_nil, List.append_nil]
  | cons hl _ ih =>
    obtain ⟨hfirst, hrest⟩ := List.forall_mem_cons.mp hls
    rw [ih (hI _ _ _ hs hfirst hl) hrest, hadds _ _ _ hs hfirst hl, List.flatMap_cons,
      List.append_assoc]

/-- **The abstraction rule.**  If, under an invariant, each step moves the abstract value
`abs s` by some `R`-moves, then so does a whole run. -/
theorem abstracts {I : σ → Prop} (abs : σ → τ) {R : τ → τ → Prop}
    (hI : ∀ s l s', I s → step s l = some s' → I s')
    (hR : ∀ s l s', I s → step s l = some s' → Relation.ReflTransGen R (abs s) (abs s'))
    {s s' : σ} {ls : List ι} (h : Steps step s ls s') (hs : I s) :
    Relation.ReflTransGen R (abs s) (abs s') := by
  induction h with
  | nil => exact .refl
  | cons hl _ ih => exact (hR _ _ _ hs hl).trans (ih (hI _ _ _ hs hl))

/-- **The measure rule.**  If, under an invariant, each step by a label of `P` leaves less to do,
then a run by such labels is no longer than what there was to do. -/
theorem bounded {I : σ → Prop} {P : ι → Prop} (work : σ → ℕ)
    (hI : ∀ s l s', I s → step s l = some s' → I s')
    (hless : ∀ s l s', I s → P l → step s l = some s' → work s' < work s)
    {s s' : σ} {ls : List ι} (h : Steps step s ls s') (hs : I s) (hls : ∀ l ∈ ls, P l) :
    ls.length + work s' ≤ work s := by
  induction h with
  | nil => exact Nat.le_of_eq (Nat.zero_add _)
  | @cons s s₁ _ l ls hl _ ih =>
    have hfirst := hless s l s₁ hs (hls l List.mem_cons_self) hl
    have hrest := ih (hI _ _ _ hs hl) fun l hmem => hls l (List.mem_cons_of_mem _ hmem)
    rw [List.length_cons]
    omega

end Steps

end BasecradleRouter.Lib
