/-
# Computations that may raise, over state that a raise does not undo

A Python function works on shared state, returns or raises, and what it did before it raised
stays done.  `Py σ ε α` is that: from a state to a result or an exception, and the state left
behind either way.  `handle` is `try … except`, `finallyDo` is `try … finally`.

Each construct has its one run lemma, tagged for `simp`, so a program is executed
symbolically by rewriting.
-/
import Mathlib.Tactic.Common

namespace BasecradleRouter.Lib

/-- A computation over the state `σ` that returns an `α` or raises an `ε`. -/
def Py (σ ε α : Type) : Type := σ → Except ε α × σ

namespace Py

variable {σ ε α β : Type}

/-- Run a computation from a state. -/
def run (x : Py σ ε α) (s : σ) : Except ε α × σ := x s

instance : Monad (Py σ ε) where
  pure a := fun s => (.ok a, s)
  bind x f := fun s =>
    match x s with
    | (.ok a, s') => f a s'
    | (.error e, s') => (.error e, s')

/-- `raise e` -/
def raise (e : ε) : Py σ ε α := fun s => (.error e, s)

/-- Look at the state. -/
def look (f : σ → α) : Py σ ε α := fun s => (.ok (f s), s)

/-- Change the state. -/
def change (f : σ → σ) : Py σ ε Unit := fun s => (.ok (), f s)

/-- A call that answers and changes the state. -/
def call (f : σ → α × σ) : Py σ ε α := fun s => (.ok (f s).1, (f s).2)

/-- A value that stands for code which may have raised instead. -/
def ofExcept (x : Except ε α) : Py σ ε α := fun s => (x, s)

/-- A value missing where Python raises `e`. -/
def ofOption (e : ε) : Option α → Py σ ε α
  | some a => pure a
  | none => raise e

/-- `try: x  except e: h e` -/
def handle (x : Py σ ε α) (h : ε → Py σ ε α) : Py σ ε α := fun s =>
  match x s with
  | (.ok a, s') => (.ok a, s')
  | (.error e, s') => h e s'

/-- `try: x`, with the `except` clauses still to come: an exception is a value. -/
def catching (x : Py σ ε α) : Py σ ε (Except ε α) := fun s => (.ok (x s).1, (x s).2)

/-- `except e as exc: raise f(exc)` -/
def mapError {ε' : Type} (f : ε → ε') (x : Py σ ε α) : Py σ ε' α := fun s =>
  match x s with
  | (.ok a, s') => (.ok a, s')
  | (.error e, s') => (.error (f e), s')

/-- `try: x  finally: f` -/
def finallyDo (x : Py σ ε α) (f : Py σ ε Unit) : Py σ ε α := fun s =>
  match x s with
  | (r, s') =>
    match f s' with
    | (.ok _, s'') => (r, s'')
    | (.error e, s'') => (.error e, s'')

/-- A computation over a part of the state. -/
def within {τ : Type} (part : τ → σ) (put : τ → σ → τ) (x : Py σ ε α) : Py τ ε α := fun t =>
  ((x (part t)).1, put t (x (part t)).2)

@[simp] theorem run_pure (a : α) (s : σ) : (pure a : Py σ ε α).run s = (.ok a, s) := rfl

@[simp] theorem run_raise (e : ε) (s : σ) : (raise e : Py σ ε α).run s = (.error e, s) := rfl

@[simp] theorem run_look (f : σ → α) (s : σ) : (look f : Py σ ε α).run s = (.ok (f s), s) := rfl

@[simp] theorem run_change (f : σ → σ) (s : σ) :
    (change f : Py σ ε Unit).run s = (.ok (), f s) := rfl

@[simp] theorem run_call (f : σ → α × σ) (s : σ) :
    (call f : Py σ ε α).run s = (.ok (f s).1, (f s).2) := rfl

@[simp] theorem run_ofExcept (x : Except ε α) (s : σ) :
    (ofExcept x : Py σ ε α).run s = (x, s) := rfl

@[simp] theorem run_bind (x : Py σ ε α) (f : α → Py σ ε β) (s : σ) :
    (x >>= f).run s = match x.run s with
      | (.ok a, s') => (f a).run s'
      | (.error e, s') => (.error e, s') := rfl

@[simp] theorem run_handle (x : Py σ ε α) (h : ε → Py σ ε α) (s : σ) :
    (x.handle h).run s = match x.run s with
      | (.ok a, s') => (.ok a, s')
      | (.error e, s') => (h e).run s' := rfl

@[simp] theorem run_catching (x : Py σ ε α) (s : σ) :
    x.catching.run s = (.ok (x.run s).1, (x.run s).2) := rfl

@[simp] theorem run_mapError {ε' : Type} (f : ε → ε') (x : Py σ ε α) (s : σ) :
    (x.mapError f).run s = match x.run s with
      | (.ok a, s') => (.ok a, s')
      | (.error e, s') => (.error (f e), s') := rfl

@[simp] theorem run_finallyDo (x : Py σ ε α) (f : Py σ ε Unit) (s : σ) :
    (x.finallyDo f).run s = match f.run (x.run s).2 with
      | (.ok _, s') => ((x.run s).1, s')
      | (.error e, s') => (.error e, s') := rfl

@[simp] theorem run_within {τ : Type} (part : τ → σ) (put : τ → σ → τ) (x : Py σ ε α) (t : τ) :
    (x.within part put).run t = ((x.run (part t)).1, put t (x.run (part t)).2) := rfl

/-- A branch runs as the branch taken. -/
theorem run_ite (c : Prop) [Decidable c] (x y : Py σ ε α) (s : σ) :
    (if c then x else y).run s = if c then x.run s else y.run s := by
  split <;> rfl

/-- A sequence returns where both parts do. -/
theorem run_bind_eq_ok {x : Py σ ε α} {f : α → Py σ ε β} {s s' : σ} {b : β} :
    (x >>= f).run s = (.ok b, s') ↔
      ∃ a s₁, x.run s = (.ok a, s₁) ∧ (f a).run s₁ = (.ok b, s') := by
  rw [run_bind]
  constructor
  · intro h
    split at h
    · next a s₁ hx => exact ⟨a, s₁, hx, h⟩
    · cases h
  · rintro ⟨a, s₁, hx, hf⟩
    rw [hx]
    exact hf

/-- A value first: the sequence returns where it is there and the rest returns. -/
theorem run_ofExcept_bind_eq_ok {x : Except ε α} {f : α → Py σ ε β} {s s' : σ} {b : β} :
    (ofExcept x >>= f).run s = (.ok b, s') ↔ ∃ a, x = .ok a ∧ (f a).run s = (.ok b, s') := by
  rw [run_bind_eq_ok]
  constructor
  · rintro ⟨a, s₁, hx, hf⟩
    rw [run_ofExcept, Prod.mk.injEq] at hx
    obtain ⟨hx, rfl⟩ := hx
    exact ⟨a, hx, hf⟩
  · rintro ⟨a, hx, hf⟩
    exact ⟨a, s, by rw [run_ofExcept, hx], hf⟩

/-- A look first: the rest runs with what was seen. -/
@[simp] theorem run_look_bind {g : σ → α} {f : α → Py σ ε β} {s : σ} :
    (look g >>= f).run s = (f (g s)).run s := rfl

/-! ## What a program returns -/

/-- Whatever the state, if the program returns, it returns something of `P`. -/
def Returns (P : α → Prop) (x : Py σ ε α) : Prop := ∀ s a s', x.run s = (.ok a, s') → P a

theorem returns_pure {P : α → Prop} {a : α} (h : P a) : Returns P (pure a : Py σ ε α) := by
  intro s b s' hrun
  cases hrun
  exact h

theorem returns_raise {P : α → Prop} (e : ε) : Returns P (raise e : Py σ ε α) := by
  intro s a s' hrun
  cases hrun

/-- A sequence returns what its last part returns. -/
theorem Returns.bind {Q : α → Prop} {P : β → Prop} {x : Py σ ε α} {f : α → Py σ ε β}
    (hx : Returns Q x) (hf : ∀ a, Q a → Returns P (f a)) : Returns P (x >>= f) := by
  intro s b s' hrun
  obtain ⟨a, s₁, hx', hf'⟩ := run_bind_eq_ok.mp hrun
  exact hf a (hx s a s₁ hx') s₁ b s' hf'

/-- The same, where the first part may return anything. -/
theorem returns_bind {P : β → Prop} {x : Py σ ε α} {f : α → Py σ ε β}
    (hf : ∀ a, Returns P (f a)) : Returns P (x >>= f) :=
  Returns.bind (fun _ _ _ _ => trivial) fun a _ => hf a

theorem Returns.within {τ : Type} {P : α → Prop} {x : Py σ ε α} (h : Returns P x)
    (part : τ → σ) (put : τ → σ → τ) : Returns P (x.within part put) := by
  intro t a t' hrun
  rw [run_within, Prod.mk.injEq] at hrun
  exact h (part t) a (x.run (part t)).2 (Prod.ext hrun.1 rfl)

theorem Returns.mapError {ε' : Type} {P : α → Prop} {x : Py σ ε α} (h : Returns P x)
    (f : ε → ε') : Returns P (x.mapError f) := by
  intro s a s' hrun
  rw [run_mapError] at hrun
  split at hrun
  · next a' s₁ hx =>
    cases hrun
    exact h s a s' hx
  · cases hrun

theorem Returns.catching {P : α → Prop} {x : Py σ ε α} (h : Returns P x) :
    Returns (fun made : Except ε α => ∀ a, made = .ok a → P a) x.catching := by
  intro s made s' hrun a ha
  rw [run_catching, Prod.mk.injEq, Except.ok.injEq] at hrun
  exact h s a (x.run s).2 (Prod.ext (hrun.1.trans ha) rfl)

theorem Returns.handle {P : α → Prop} {x : Py σ ε α} {h : ε → Py σ ε α} (hx : Returns P x)
    (hh : ∀ e, Returns P (h e)) : Returns P (x.handle h) := by
  intro s a s' hrun
  rw [run_handle] at hrun
  split at hrun
  · next a' s₁ hx' =>
    cases hrun
    exact hx s a s' hx'
  · next e s₁ _ => exact hh e s₁ a s' hrun

/-! ## What a program raises -/

/-- Whatever the state, if the program raises, it raises something of `P`. -/
def Raises (P : ε → Prop) (x : Py σ ε α) : Prop := ∀ s e s', x.run s = (.error e, s') → P e

section

variable {P : ε → Prop}

theorem raises_pure (a : α) : Raises P (pure a : Py σ ε α) := by
  intro s e s' hrun
  cases hrun

theorem raises_raise {e : ε} (h : P e) : Raises P (raise e : Py σ ε α) := by
  intro s e' s' hrun
  cases hrun
  exact h

theorem raises_change (f : σ → σ) : Raises P (change f : Py σ ε Unit) := by
  intro s e s' hrun
  cases hrun

theorem raises_look (f : σ → α) : Raises P (look f : Py σ ε α) := by
  intro s e s' hrun
  cases hrun

theorem raises_ofExcept {x : Except ε α} (h : ∀ e, x = .error e → P e) :
    Raises P (ofExcept x : Py σ ε α) := by
  intro s e s' hrun
  rw [run_ofExcept, Prod.mk.injEq] at hrun
  exact h e hrun.1

/-- A sequence raises what its parts raise. -/
theorem Raises.bind {x : Py σ ε α} {f : α → Py σ ε β} (hx : Raises P x)
    (hf : ∀ a, Raises P (f a)) : Raises P (x >>= f) := by
  intro s e s' hrun
  rw [run_bind] at hrun
  split at hrun
  · next a s₁ _ => exact hf a s₁ e s' hrun
  · next e' s₁ hx' =>
    cases hrun
    exact hx s e s' hx'

/-- A sequence raises where its first part does, or its second after it. -/
theorem run_bind_eq_error {x : Py σ ε α} {f : α → Py σ ε β} {s s' : σ} {e : ε} :
    (x >>= f).run s = (.error e, s') ↔ x.run s = (.error e, s') ∨
      ∃ a s₁, x.run s = (.ok a, s₁) ∧ (f a).run s₁ = (.error e, s') := by
  rw [run_bind]
  rcases hx : x.run s with ⟨e' | a, s₁⟩
  · constructor
    · intro h
      cases h
      exact Or.inl rfl
    · rintro (h | ⟨a, s₂, h, -⟩)
      · cases h
        rfl
      · cases h
  · constructor
    · exact fun h => Or.inr ⟨a, s₁, rfl, h⟩
    · rintro (h | ⟨a', s₂, h, hf⟩)
      · cases h
      · cases h
        exact hf

end

/-! ## Two runs of a program -/

/-- From states that `R` relates, the program does the same, and leaves states that `R` relates. -/
def Respects (R : σ → σ → Prop) (x : Py σ ε α) : Prop :=
  ∀ s t, R s t → (x.run s).1 = (x.run t).1 ∧ R (x.run s).2 (x.run t).2

section

variable {R : σ → σ → Prop}

theorem respects_pure (a : α) : Respects R (pure a : Py σ ε α) := fun _ _ h => ⟨rfl, h⟩

theorem respects_raise (e : ε) : Respects R (raise e : Py σ ε α) := fun _ _ h => ⟨rfl, h⟩

theorem respects_ofExcept (x : Except ε α) : Respects R (ofExcept x : Py σ ε α) :=
  fun _ _ h => ⟨rfl, h⟩

theorem respects_change {f : σ → σ} (h : ∀ s t, R s t → R (f s) (f t)) :
    Respects R (change f : Py σ ε Unit) := fun s t hst => ⟨rfl, h s t hst⟩

theorem Respects.bind {x : Py σ ε α} {f : α → Py σ ε β} (hx : Respects R x)
    (hf : ∀ a, Respects R (f a)) : Respects R (x >>= f) := by
  intro s t hst
  obtain ⟨hsame, hleft⟩ := hx s t hst
  rw [run_bind, run_bind]
  rcases hs : x.run s with ⟨e | a, s'⟩ <;> rcases ht : x.run t with ⟨e' | a', t'⟩ <;>
    rw [hs, ht] at hsame hleft
  · exact ⟨congrArg Except.error (Except.error.inj hsame), hleft⟩
  · cases hsame
  · cases hsame
  · cases hsame
    exact hf a s' t' hleft

theorem Respects.catching {x : Py σ ε α} (hx : Respects R x) : Respects R x.catching := by
  intro s t hst
  obtain ⟨hsame, hleft⟩ := hx s t hst
  exact ⟨congrArg Except.ok hsame, hleft⟩

theorem Respects.handle {x : Py σ ε α} {h : ε → Py σ ε α} (hx : Respects R x)
    (hh : ∀ e, Respects R (h e)) : Respects R (x.handle h) := by
  intro s t hst
  obtain ⟨hsame, hleft⟩ := hx s t hst
  rw [run_handle, run_handle]
  rcases hs : x.run s with ⟨e | a, s'⟩ <;> rcases ht : x.run t with ⟨e' | a', t'⟩ <;>
    rw [hs, ht] at hsame hleft
  · cases hsame
    exact hh e s' t' hleft
  · cases hsame
  · cases hsame
  · exact ⟨congrArg Except.ok (Except.ok.inj hsame), hleft⟩

/-- A program on a part respects what its states agree on. -/
theorem Respects.within {τ : Type} {Q : τ → τ → Prop} {part : τ → σ} {put : τ → σ → τ}
    {x : Py σ ε α} (hx : Respects R x) (hpart : ∀ s t, Q s t → R (part s) (part t))
    (hput : ∀ s t a b, Q s t → R a b → Q (put s a) (put t b)) :
    Respects Q (x.within part put) := by
  intro s t hst
  obtain ⟨hsame, hleft⟩ := hx (part s) (part t) (hpart s t hst)
  exact ⟨hsame, hput s t _ _ hst hleft⟩

end

/-! ## Loops -/

section

variable {τ : Type} {view : σ → τ} {I : τ → Prop} {f : τ → α → τ} {xs : List α}
  {body : α → Py σ ε Unit}

/-- A turn of a loop that returns, and does `f` to what is looked at of the state. -/
def Turns (view : σ → τ) (f : τ → α → τ) (body : α → Py σ ε Unit) (a : α) (s : σ) : Prop :=
  ∃ s', (body a).run s = (.ok (), s') ∧ view s' = f (view s) a

/-- **A loop whose turns all return** does what they do, one after another. -/
theorem forM_returns (hI : ∀ a ∈ xs, ∀ t, I t → I (f t a))
    (hturn : ∀ a ∈ xs, ∀ s, I (view s) → Turns view f body a s) (s : σ) (hs : I (view s)) :
    ∃ s', (xs.forM body).run s = (.ok (), s') ∧ view s' = xs.foldl f (view s) := by
  induction xs generalizing s with
  | nil => exact ⟨s, rfl, rfl⟩
  | cons x xs ih =>
    obtain ⟨s₁, hrun, hview⟩ := hturn x List.mem_cons_self s hs
    have hI' : I (view s₁) := hview ▸ hI x List.mem_cons_self _ hs
    obtain ⟨s', hrest, hview'⟩ := ih (fun a ha => hI a (List.mem_cons_of_mem _ ha))
      (fun a ha => hturn a (List.mem_cons_of_mem _ ha)) s₁ hI'
    refine ⟨s', ?_, ?_⟩
    · show (body x >>= fun _ => xs.forM body).run s = _
      rw [run_bind, hrun]
      exact hrest
    · rw [hview', hview, List.foldl_cons]

/-- **A loop with a turn that raises** raises, if every turn before returns or raises. -/
theorem forM_raises (hI : ∀ a ∈ xs, ∀ t, I t → I (f t a))
    (hturn : ∀ a ∈ xs, ∀ s, I (view s) →
      Turns view f body a s ∨ ∃ e s', (body a).run s = (.error e, s'))
    (hbad : ∃ a ∈ xs, ∀ s, I (view s) → ∃ e s', (body a).run s = (.error e, s'))
    (s : σ) (hs : I (view s)) : ∃ e s', (xs.forM body).run s = (.error e, s') := by
  induction xs generalizing s with
  | nil =>
    obtain ⟨a, hmem, -⟩ := hbad
    exact absurd hmem List.not_mem_nil
  | cons x xs ih =>
    have hloop : ∀ s, ((x :: xs).forM body).run s =
        (body x >>= fun _ => xs.forM body).run s := fun _ => rfl
    rcases hturn x List.mem_cons_self s hs with ⟨s₁, hrun, hview⟩ | ⟨e, s', hrun⟩
    · have hI' : I (view s₁) := hview ▸ hI x List.mem_cons_self _ hs
      obtain ⟨a, hmem, hraises⟩ := hbad
      have hlater : a ∈ xs := by
        rcases List.mem_cons.mp hmem with rfl | hlater
        · obtain ⟨e, s', herror⟩ := hraises s hs
          rw [hrun] at herror
          cases herror
        · exact hlater
      obtain ⟨e, s', hrest⟩ := ih (fun a ha => hI a (List.mem_cons_of_mem _ ha))
        (fun a ha => hturn a (List.mem_cons_of_mem _ ha)) ⟨a, hlater, hraises⟩ s₁ hI'
      refine ⟨e, s', ?_⟩
      rw [hloop, run_bind, hrun]
      exact hrest
    · refine ⟨e, s', ?_⟩
      rw [hloop, run_bind, hrun]

end

end Py

end BasecradleRouter.Lib
