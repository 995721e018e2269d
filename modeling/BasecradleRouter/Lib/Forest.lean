/-
# Parent links

Where no link leads back to where it came from (`Acyclic`), going up from a node ends, and the nodes
that are met on the way are its line (`exists_line`).  A node under another has the longer line
(`Line.length_lt`).  Going down, a walk that takes a node off a stack and puts its children there
comes by no node twice (`Visit`), so that it takes no more turns than there are nodes.
-/
import Mathlib.Data.List.Nodup
import Mathlib.Data.List.Perm.Subperm
import Mathlib.Logic.Relation

namespace BasecradleRouter.Lib.Forest

open Relation

variable {α : Type}

/-- A link leads from the second node up to the first. -/
def Under (parent : α → Option α) (a b : α) : Prop := parent b = some a

/-- No node is under itself. -/
def Acyclic (parent : α → Option α) : Prop := ∀ a, ¬ TransGen (Under parent) a a

/-- The nodes with a link that are met going up. -/
inductive Line (parent : α → Option α) : α → List α → Prop
  | top {a : α} : parent a = none → Line parent a []
  | up {a b : α} {l : List α} : parent a = some b → Line parent b l → Line parent a (a :: l)

variable {parent : α → Option α} {nodes : List α} {a b c : α} {l l' : List α}

/-! ## 1. Going up -/

theorem under_unique (h : Under parent a c) (h' : Under parent b c) : a = b :=
  Option.some.inj (h.symm.trans h')

/-- What is above a child is above its parent, or is the parent. -/
theorem above_parent (h : TransGen (Under parent) a c) (hc : Under parent b c) :
    ReflTransGen (Under parent) a b := by
  obtain ⟨d, hpath, hd⟩ := TransGen.tail'_iff.mp h
  rwa [under_unique hc hd]

namespace Line

theorem unique (h : Line parent a l) (h' : Line parent a l') : l = l' := by
  induction h generalizing l' with
  | top htop =>
    cases h' with
    | top => rfl
    | up hup => cases htop.symm.trans hup
  | up hup _ ih =>
    cases h' with
    | top htop => cases htop.symm.trans hup
    | up hup' hrest =>
      cases hup.symm.trans hup'
      rw [ih hrest]

/-- A line's nodes are above the one it starts from, and have a link. -/
theorem above (h : Line parent a l) : ∀ b ∈ l,
    ReflTransGen (Under parent) b a ∧ (parent b).isSome = true := by
  induction h with
  | top => exact fun b hb => absurd hb List.not_mem_nil
  | up hup _ ih =>
    intro b hb
    rcases List.mem_cons.mp hb with rfl | hb
    · exact ⟨.refl, Option.isSome_iff_exists.mpr ⟨_, hup⟩⟩
    · exact ⟨(ih b hb).1.tail hup, (ih b hb).2⟩

theorem nodup (hacyclic : Acyclic parent) (h : Line parent a l) : l.Nodup := by
  induction h with
  | top => exact List.nodup_nil
  | up hup hline ih =>
    refine List.nodup_cons.mpr ⟨fun hmem => ?_, ih⟩
    exact hacyclic _ (TransGen.tail' (hline.above _ hmem).1 hup)

/-- A line is no longer than there are nodes. -/
theorem length_le (hacyclic : Acyclic parent) (hnodes : ∀ a, (parent a).isSome = true → a ∈ nodes)
    (h : Line parent a l) : l.length ≤ nodes.length :=
  (List.subperm_of_subset (h.nodup hacyclic) fun b hb => hnodes b (h.above b hb).2).length_le

/-- **A node under another** has the longer line. -/
theorem length_lt (h : TransGen (Under parent) a b) (ha : Line parent a l)
    (hb : Line parent b l') : l.length < l'.length := by
  induction h generalizing l' with
  | single hstep =>
    rw [hb.unique (.up hstep ha)]
    exact Nat.lt_succ_self _
  | tail _ hstep ih =>
    cases hb with
    | top htop => cases htop.symm.trans hstep
    | up hup hrest =>
      cases hup.symm.trans hstep
      exact Nat.lt_succ_of_lt (ih hrest)

end Line

/-- Going up ends, from a node that so many others of the forest are under. -/
theorem line_below (hacyclic : Acyclic parent)
    (hnodes : ∀ a, (parent a).isSome = true → a ∈ nodes) : ∀ (room : ℕ) (a : α) (below : List α),
    below.Nodup → (∀ b ∈ below, b ∈ nodes ∧ TransGen (Under parent) a b) →
      nodes.length ≤ below.length + room → ∃ l, Line parent a l
  | room, a, below, hnodup, hbelow, hroom => by
    cases hparent : parent a with
    | none => exact ⟨[], .top hparent⟩
    | some b =>
      have ha : a ∈ nodes := hnodes a (by rw [hparent]; rfl)
      have hmem : ∀ c ∈ a :: below, c ∈ nodes := by
        intro c hc
        rcases List.mem_cons.mp hc with rfl | hc
        · exact ha
        · exact (hbelow c hc).1
      have hnodup' : (a :: below).Nodup :=
        List.nodup_cons.mpr ⟨fun h => hacyclic a (hbelow a h).2, hnodup⟩
      have hlength : below.length + 1 ≤ nodes.length :=
        (List.subperm_of_subset hnodup' hmem).length_le
      cases room with
      | zero => omega
      | succ room =>
        have hbelow' : ∀ c ∈ a :: below, c ∈ nodes ∧ TransGen (Under parent) b c := by
          intro c hc
          refine ⟨hmem c hc, ?_⟩
          rcases List.mem_cons.mp hc with rfl | hc
          · exact .single hparent
          · exact TransGen.head hparent (hbelow c hc).2
        obtain ⟨l, hline⟩ := line_below hacyclic hnodes room b (a :: below) hnodup' hbelow'
          (by rw [List.length_cons]; omega)
        exact ⟨a :: l, .up hparent hline⟩

/-- **Going up ends.** -/
theorem exists_line (hacyclic : Acyclic parent)
    (hnodes : ∀ a, (parent a).isSome = true → a ∈ nodes) (a : α) : ∃ l, Line parent a l :=
  line_below hacyclic hnodes nodes.length a [] List.nodup_nil
    (fun _ hb => absurd hb List.not_mem_nil) (by rw [List.length_nil]; omega)

/-! ## 2. Going down -/

/-- Where a walk down from a root stands: what it has come by, and what is on its stack. -/
structure Visit (parent : α → Option α) (nodes : List α) (root : α) (visited stack : List α) :
    Prop where
  nodup : (visited ++ stack).Nodup
  within : ∀ x ∈ visited ++ stack, x ∈ nodes
  below : ∀ x ∈ visited ++ stack, ReflTransGen (Under parent) root x
  parents : ∀ x ∈ visited ++ stack, x = root ∨ ∃ y ∈ visited, Under parent y x

namespace Visit

variable {root x : α} {visited stack children : List α}

theorem start (hroot : root ∈ nodes) : Visit parent nodes root [] [root] where
  nodup := List.nodup_singleton root
  within _ hy := List.mem_singleton.mp hy ▸ hroot
  below _ hy := List.mem_singleton.mp hy ▸ .refl
  parents _ hy := Or.inl (List.mem_singleton.mp hy)

/-- The next node is passed over. -/
theorem pass (h : Visit parent nodes root visited (x :: stack)) :
    Visit parent nodes root (x :: visited) stack := by
  have hperm : (visited ++ x :: stack).Perm (x :: visited ++ stack) := List.perm_middle
  refine ⟨hperm.nodup_iff.mp h.nodup, fun y hy => h.within y (hperm.mem_iff.mpr hy),
    fun y hy => h.below y (hperm.mem_iff.mpr hy), fun y hy => ?_⟩
  refine (h.parents y (hperm.mem_iff.mpr hy)).imp_right ?_
  rintro ⟨z, hz, hunder⟩
  exact ⟨z, List.mem_cons_of_mem x hz, hunder⟩

/-- **The next node's children** are put on the stack: none of them has been there. -/
theorem expand (h : Visit parent nodes root visited (x :: stack)) (hacyclic : Acyclic parent)
    (hnodup : children.Nodup) (hchildren : ∀ c ∈ children, c ∈ nodes ∧ Under parent x c) :
    Visit parent nodes root (x :: visited) (children ++ stack) := by
  have hpassed := h.pass
  have hx : ReflTransGen (Under parent) root x := h.below x (by simp)
  have hfresh : ∀ c ∈ children, c ∉ x :: visited ++ stack := by
    intro c hc hmem
    rcases hpassed.parents c hmem with rfl | ⟨y, hy, hunder⟩
    · exact hacyclic _ (TransGen.tail' hx (hchildren c hc).2)
    · -- The parent of a node that has been there was taken off the stack, but `x` only now is.
      rcases h.parents c (List.perm_middle.mem_iff.mpr hmem) with rfl | ⟨z, hz, hunder'⟩
      · exact hacyclic _ (TransGen.tail' hx (hchildren c hc).2)
      · obtain rfl := under_unique hunder' (hchildren c hc).2
        exact (List.nodup_append.mp h.nodup).2.2 z hz z List.mem_cons_self rfl
  have hperm : (x :: visited ++ (children ++ stack)).Perm
      (children ++ (x :: visited ++ stack)) := by
    rw [← List.append_assoc, ← List.append_assoc]
    exact List.perm_append_comm.append_right stack
  refine ⟨hperm.nodup_iff.mpr (List.nodup_append.mpr ⟨hnodup, hpassed.nodup, ?_⟩), ?_, ?_, ?_⟩
  · rintro c hc d hd rfl
    exact hfresh c hc hd
  · intro y hy
    rcases List.mem_append.mp (hperm.mem_iff.mp hy) with hy | hy
    · exact (hchildren y hy).1
    · exact hpassed.within y hy
  · intro y hy
    rcases List.mem_append.mp (hperm.mem_iff.mp hy) with hy | hy
    · exact hx.tail (hchildren y hy).2
    · exact hpassed.below y hy
  · intro y hy
    rcases List.mem_append.mp (hperm.mem_iff.mp hy) with hy | hy
    · exact Or.inr ⟨x, List.mem_cons_self, (hchildren y hy).2⟩
    · exact hpassed.parents y hy

/-- While something is on the stack, not every node has been visited. -/
theorem length_lt (h : Visit parent nodes root visited (x :: stack)) :
    visited.length < nodes.length := by
  have hlength := (List.subperm_of_subset h.nodup h.within).length_le
  rw [List.length_append, List.length_cons] at hlength
  omega

end Visit

end BasecradleRouter.Lib.Forest
