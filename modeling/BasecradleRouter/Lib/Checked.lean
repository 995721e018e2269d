/-
# Loops that stop at the first error

A loader goes through its entries and raises at the first that is wrong.  `foldlM_ok` is the
invariant rule for such a loop: what holds of no entries, and passes from the entries done to one
more, holds of all of them once the loop has come through.  `foldlM_returns` is the rule for coming
through.
-/
import Mathlib.Data.List.Forall2

namespace BasecradleRouter.Lib

variable {ε α β : Type}

theorem ok_bind (a : α) (f : α → Except ε β) : (Except.ok a >>= f) = f a := rfl

/-- One step after another came through if both did. -/
theorem bind_eq_ok {x : Except ε α} {f : α → Except ε β} {b : β} :
    (x >>= f) = .ok b ↔ ∃ a, x = .ok a ∧ f a = .ok b := by
  cases x with
  | error e => simp [bind, Except.bind]
  | ok a => simp [bind, Except.bind]

/-- Or the first that did not is what came of them. -/
theorem bind_eq_error {x : Except ε α} {f : α → Except ε β} {e : ε} :
    (x >>= f) = .error e ↔ x = .error e ∨ ∃ a, x = .ok a ∧ f a = .error e := by
  cases x with
  | error e => simp [bind, Except.bind]
  | ok a => simp [bind, Except.bind]

theorem map_eq_ok {f : α → β} {x : Except ε α} {b : β} :
    x.map f = .ok b ↔ ∃ a, x = .ok a ∧ f a = b := by
  cases x with
  | error e => simp [Except.map]
  | ok a => simp [Except.map]

theorem toOption_eq_some {x : Except ε α} {a : α} : x.toOption = some a ↔ x = .ok a := by
  cases x with
  | error e => simp [Except.toOption]
  | ok a => simp [Except.toOption]

/-- **What a loop that came through has established.** -/
theorem foldlM_ok {P : List α → β → Prop} {f : β → α → Except ε β} {b b' : β} {l : List α}
    (hnil : P [] b)
    (hstep : ∀ done a rest b b', l = done ++ a :: rest → P done b → f b a = .ok b' →
      P (done ++ [a]) b')
    (h : l.foldlM f b = .ok b') : P l b' := by
  have hfrom : ∀ (rest done : List α) (b : β), l = done ++ rest → P done b →
      rest.foldlM f b = .ok b' → P l b' := by
    intro rest
    induction rest with
    | nil =>
      intro done b hl hdone hb
      cases hb
      rwa [hl, List.append_nil]
    | cons a rest ih =>
      intro done b hl hdone hb
      rw [List.foldlM_cons] at hb
      obtain ⟨b₁, hb₁, hb⟩ := bind_eq_ok.mp hb
      exact ih (done ++ [a]) b₁ (by rw [hl, List.append_assoc, List.singleton_append])
        (hstep done a rest b b₁ hl hdone hb₁) hb
  exact hfrom l [] b rfl hnil h

/-- **A loop comes through** if no step raises on what the steps before established. -/
theorem foldlM_returns {P : List α → β → Prop} {f : β → α → Except ε β} {b : β} {l : List α}
    (hnil : P [] b)
    (hstep : ∀ done a rest b, l = done ++ a :: rest → P done b →
      ∃ b', f b a = .ok b' ∧ P (done ++ [a]) b') :
    ∃ b', l.foldlM f b = .ok b' := by
  have hfrom : ∀ (rest done : List α) (b : β), l = done ++ rest → P done b →
      ∃ b', rest.foldlM f b = .ok b' := by
    intro rest
    induction rest with
    | nil => exact fun _ b _ _ => ⟨b, rfl⟩
    | cons a rest ih =>
      intro done b hl hdone
      obtain ⟨b₁, hb₁, hdone₁⟩ := hstep done a rest b hl hdone
      obtain ⟨b', hb'⟩ :=
        ih (done ++ [a]) b₁ (by rw [hl, List.append_assoc, List.singleton_append]) hdone₁
      exact ⟨b', by rw [List.foldlM_cons]; exact bind_eq_ok.mpr ⟨b₁, hb₁, hb'⟩⟩
  exact hfrom l [] b rfl hnil

/-- What a comprehension that came through has made of each element. -/
theorem mapM_ok {f : α → Except ε β} : ∀ {l : List α} {bs : List β}, l.mapM f = .ok bs →
    List.Forall₂ (fun a b => f a = .ok b) l bs
  | [], bs, h => by
    rw [List.mapM_nil] at h
    cases h
    exact .nil
  | a :: l, bs, h => by
    rw [List.mapM_cons] at h
    obtain ⟨b, hb, h⟩ := bind_eq_ok.mp h
    obtain ⟨bs', hbs, h⟩ := bind_eq_ok.mp h
    cases h
    exact .cons hb (mapM_ok hbs)

/-- Where every call returns, the whole does. -/
theorem mapM_returns {f : α → Except ε β} {l : List α} (h : ∀ a ∈ l, ∃ b, f a = .ok b) :
    ∃ bs, l.mapM f = .ok bs := by
  induction l with
  | nil => exact ⟨[], by rw [List.mapM_nil]; rfl⟩
  | cons a l ih =>
    obtain ⟨ha, hl⟩ := List.forall_mem_cons.mp h
    obtain ⟨b, hb⟩ := ha
    obtain ⟨bs, hbs⟩ := ih hl
    exact ⟨b :: bs, by rw [List.mapM_cons, hb, hbs]; rfl⟩

/-- Each element's is among what was made. -/
theorem mapM_ok_mem {f : α → Except ε β} {l : List α} {bs : List β} (h : l.mapM f = .ok bs)
    {a : α} (ha : a ∈ l) : ∃ b ∈ bs, f a = .ok b := by
  have hmade := mapM_ok h
  clear h
  induction hmade with
  | nil => cases ha
  | cons hb hrest ih =>
    rcases List.mem_cons.mp ha with rfl | ha
    · exact ⟨_, List.mem_cons_self, hb⟩
    · obtain ⟨b, hmem, hb⟩ := ih ha
      exact ⟨b, List.mem_cons_of_mem _ hmem, hb⟩

/-- What was made was made of an element. -/
theorem mem_made {f : α → Except ε β} {l : List α} {bs : List β} (h : l.mapM f = .ok bs)
    {b : β} (hb : b ∈ bs) : ∃ a ∈ l, f a = .ok b := by
  have hmade := mapM_ok h
  clear h
  induction hmade with
  | nil => cases hb
  | cons hhead _ ih =>
    rcases List.mem_cons.mp hb with rfl | hb
    · exact ⟨_, List.mem_cons_self, hhead⟩
    · obtain ⟨a, ha, hfa⟩ := ih hb
      exact ⟨a, List.mem_cons_of_mem _ ha, hfa⟩

/-- A comprehension comes through in any order, with what it made in that order. -/
theorem mapM_perm {f : α → Except ε β} {l l' : List α} (hperm : l.Perm l') {bs : List β}
    (h : l.mapM f = .ok bs) : ∃ bs', l'.mapM f = .ok bs' ∧ bs.Perm bs' := by
  induction hperm generalizing bs with
  | nil => exact ⟨bs, h, .refl bs⟩
  | cons a _ ih =>
    rw [List.mapM_cons] at h ⊢
    obtain ⟨b, hb, h⟩ := bind_eq_ok.mp h
    obtain ⟨rest, hrest, h⟩ := bind_eq_ok.mp h
    cases h
    obtain ⟨rest', hrest', hperm'⟩ := ih hrest
    exact ⟨b :: rest', bind_eq_ok.mpr ⟨b, hb, bind_eq_ok.mpr ⟨rest', hrest', rfl⟩⟩, hperm'.cons b⟩
  | swap a a' l =>
    rw [List.mapM_cons, List.mapM_cons] at h ⊢
    obtain ⟨b', hb', h⟩ := bind_eq_ok.mp h
    obtain ⟨rest, hrest, h⟩ := bind_eq_ok.mp h
    cases h
    obtain ⟨b, hb, hrest⟩ := bind_eq_ok.mp hrest
    obtain ⟨bs, hbs, hrest⟩ := bind_eq_ok.mp hrest
    cases hrest
    refine ⟨b :: b' :: bs, bind_eq_ok.mpr ⟨b, hb, bind_eq_ok.mpr ⟨b' :: bs, ?_, rfl⟩⟩,
      .swap b b' bs⟩
    exact bind_eq_ok.mpr ⟨b', hb', bind_eq_ok.mpr ⟨bs, hbs, rfl⟩⟩
  | trans _ _ ih ih' =>
    obtain ⟨bs', hbs', hperm'⟩ := ih h
    obtain ⟨bs'', hbs'', hperm''⟩ := ih' hbs'
    exact ⟨bs'', hbs'', hperm'.trans hperm''⟩

/-- A comprehension comes through elsewhere if each element's does. -/
theorem mapM_forall₂ {f : α → Except ε β} {R : α → α → Prop} {S : β → β → Prop}
    (hstep : ∀ a a' b, R a a' → f a = .ok b → ∃ b', f a' = .ok b' ∧ S b b') {l l' : List α}
    (hl : List.Forall₂ R l l') {bs : List β} (h : l.mapM f = .ok bs) :
    ∃ bs', l'.mapM f = .ok bs' ∧ List.Forall₂ S bs bs' := by
  induction hl generalizing bs with
  | nil =>
    rw [List.mapM_nil] at h
    cases h
    exact ⟨[], rfl, .nil⟩
  | cons haa' _ ih =>
    rw [List.mapM_cons] at h ⊢
    obtain ⟨b, hb, h⟩ := bind_eq_ok.mp h
    obtain ⟨rest, hrest, h⟩ := bind_eq_ok.mp h
    cases h
    obtain ⟨b', hb', hbb'⟩ := hstep _ _ b haa' hb
    obtain ⟨rest', hrest', hall⟩ := ih hrest
    exact ⟨b' :: rest', bind_eq_ok.mpr ⟨b', hb', bind_eq_ok.mpr ⟨rest', hrest', rfl⟩⟩,
      .cons hbb' hall⟩

/-- A loop that goes through what each element comes to goes through all of it. -/
theorem foldlM_foldl {γ : Type} {f : α → Except ε (List β)} {g : γ → β → γ} {l : List α} {c : γ} :
    l.foldlM (fun c a => (f a).map fun bs => bs.foldl g c) c =
      (l.mapM f).map fun bss => bss.flatten.foldl g c := by
  induction l generalizing c with
  | nil => rfl
  | cons a l ih =>
    rw [List.foldlM_cons, List.mapM_cons]
    cases hf : f a with
    | error e => rfl
    | ok bs =>
      show l.foldlM _ (bs.foldl g c) = _
      rw [ih]
      cases hrest : l.mapM f with
      | error e => rfl
      | ok bss =>
        show Except.ok (bss.flatten.foldl g (bs.foldl g c)) =
          Except.ok ((bs :: bss).flatten.foldl g c)
        rw [List.flatten_cons, List.foldl_append]

/-- The elements of two lists correspond, in whatever order. -/
def Rearranged (R : α → α → Prop) (l l' : List α) : Prop :=
  ∃ mid, List.Forall₂ R l mid ∧ mid.Perm l'

theorem perm_flatten {bss bss' : List (List β)} (h : List.Forall₂ List.Perm bss bss') :
    bss.flatten.Perm bss'.flatten := by
  induction h with
  | nil => exact .refl []
  | cons hhead _ ih => exact hhead.append ih

/-- **A comprehension of lists over a rearranged list** makes the same elements. -/
theorem mapM_rearranged {f : α → Except ε (List β)} {R : α → α → Prop}
    (hstep : ∀ a a' b, R a a' → f a = .ok b → ∃ b', f a' = .ok b' ∧ b.Perm b') {l l' : List α}
    (hl : Rearranged R l l') {bss : List (List β)} (h : l.mapM f = .ok bss) :
    ∃ bss', l'.mapM f = .ok bss' ∧ bss.flatten.Perm bss'.flatten := by
  obtain ⟨mid, hmid, hperm⟩ := hl
  obtain ⟨bss₁, hbss₁, hall⟩ := mapM_forall₂ hstep hmid h
  obtain ⟨bss', hbss', hperm'⟩ := mapM_perm hperm hbss₁
  exact ⟨bss', hbss', (perm_flatten hall).trans hperm'.flatten⟩

end BasecradleRouter.Lib
