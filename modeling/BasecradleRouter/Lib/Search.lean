/-
# Search with a stack

`search` takes a node off a stack, passes over one it has seen, and puts the others' successors on.
A node is expanded once, so that `work`, what is on the stack and what the unseen nodes can still
put there, bounds the turns; with that many the search has seen exactly what can be reached from the
stack it began with (`mem_reach`).
-/
import Mathlib.Algebra.Order.BigOperators.Group.List
import Mathlib.Algebra.Order.Group.Nat
import Mathlib.Algebra.Ring.Nat
import Mathlib.Logic.Relation

namespace BasecradleRouter.Lib.Search

variable {α : Type} [DecidableEq α] (next : α → List α)

/-- The loop, with the stack's top first: what has been seen when it ends. -/
def search : ℕ → List α → List α → List α
  | 0, _, seen => seen
  | _ + 1, [], seen => seen
  | turns + 1, x :: stack, seen =>
    if x ∈ seen then search turns stack seen
    else search turns ((next x).reverse ++ stack) (x :: seen)

/-- What the nodes that are not seen can put on the stack. -/
def unseen (nodes seen : List α) : ℕ :=
  ((nodes.filter (· ∉ seen)).map fun x => (next x).length).sum

/-- What is and what can be on the stack. -/
def work (nodes stack seen : List α) : ℕ := stack.length + unseen next nodes seen

/-- What is seen of the nodes from a stack. -/
def reach (nodes stack : List α) : List α :=
  search next (work next nodes stack []) stack []

variable {next} {nodes stack seen : List α} {turns : ℕ} {x y : α}

/-- A node that is seen now puts nothing on the stack any more. -/
theorem unseen_cons (next : α → List α) (hx : x ∈ nodes) (hseen : x ∉ seen) :
    (next x).length + unseen next nodes (x :: seen) ≤ unseen next nodes seen := by
  unfold unseen
  induction nodes with
  | nil => cases hx
  | cons y nodes ih =>
    have hmono : ((nodes.filter (· ∉ x :: seen)).map fun z => (next z).length).sum ≤
        ((nodes.filter (· ∉ seen)).map fun z => (next z).length).sum := by
      refine ((List.Sublist.map _ ?_).sum_le_sum fun _ _ => Nat.zero_le _)
      refine List.monotone_filter_right _ fun z hz => ?_
      simp only [List.mem_cons, not_or, decide_eq_true_eq] at hz ⊢
      exact hz.2
    by_cases hxy : x = y
    · subst hxy
      rw [List.filter_cons_of_neg (by simp), List.filter_cons_of_pos (by simpa using hseen),
        List.map_cons, List.sum_cons]
      omega
    · have hx' : x ∈ nodes := (List.mem_cons.mp hx).resolve_left hxy
      have hrest := ih hx'
      by_cases hy : y ∈ seen
      · rw [List.filter_cons_of_neg (by simp [hy]), List.filter_cons_of_neg (by simp [hy])]
        exact hrest
      · have hyx : y ≠ x := fun h => hxy h.symm
        rw [List.filter_cons_of_pos (by simp [hy, hyx]), List.filter_cons_of_pos (by simp [hy]),
          List.map_cons, List.map_cons, List.sum_cons, List.sum_cons]
        omega

/-- What is seen stays seen. -/
theorem subset_search : ∀ {turns : ℕ} {stack seen : List α}, y ∈ seen →
    y ∈ search next turns stack seen
  | 0, _, _, h => h
  | _ + 1, [], _, h => h
  | turns + 1, x :: stack, seen, h => by
    unfold search
    split
    · exact subset_search h
    · exact subset_search (List.mem_cons_of_mem _ h)

/-- What is seen is seen already, or can be reached from the stack. -/
theorem search_sound : ∀ {turns : ℕ} {stack seen : List α}, y ∈ search next turns stack seen →
    y ∈ seen ∨ ∃ x ∈ stack, Relation.ReflTransGen (fun a b => b ∈ next a) x y
  | 0, _, _, h => Or.inl h
  | _ + 1, [], _, h => Or.inl h
  | turns + 1, x :: stack, seen, h => by
    unfold search at h
    split at h
    · rcases search_sound h with hseen | ⟨z, hz, hpath⟩
      · exact Or.inl hseen
      · exact Or.inr ⟨z, List.mem_cons_of_mem _ hz, hpath⟩
    · rcases search_sound h with hseen | ⟨z, hz, hpath⟩
      · rcases List.mem_cons.mp hseen with rfl | hseen
        · exact Or.inr ⟨y, List.mem_cons_self, .refl⟩
        · exact Or.inl hseen
      · rcases List.mem_append.mp hz with hz | hz
        · exact Or.inr ⟨x, List.mem_cons_self, .head (List.mem_reverse.mp hz) hpath⟩
        · exact Or.inr ⟨z, List.mem_cons_of_mem _ hz, hpath⟩

/-- With turns enough the stack is emptied: what was on it is seen, and the successors of what is
seen. -/
theorem search_complete (hnodes : ∀ a ∈ nodes, ∀ b ∈ next a, b ∈ nodes) :
    ∀ {turns : ℕ} {stack seen : List α}, work next nodes stack seen ≤ turns →
      (∀ a ∈ stack, a ∈ nodes) → (∀ a ∈ seen, ∀ b ∈ next a, b ∈ seen ∨ b ∈ stack) →
      (∀ a ∈ stack, a ∈ search next turns stack seen) ∧
        ∀ a ∈ search next turns stack seen, ∀ b ∈ next a, b ∈ search next turns stack seen
  | 0, [], seen, _, _, hseen =>
    ⟨nofun, fun a ha b hb => (hseen a ha b hb).resolve_right List.not_mem_nil⟩
  | 0, _ :: _, _, hwork, _, _ => by
    unfold work at hwork
    rw [List.length_cons] at hwork
    omega
  | _ + 1, [], seen, _, _, hseen =>
    ⟨nofun, fun a ha b hb => (hseen a ha b hb).resolve_right List.not_mem_nil⟩
  | turns + 1, x :: stack, seen, hwork, hstack, hseen => by
    have hbelow : ∀ a ∈ stack, a ∈ nodes := fun a ha => hstack a (List.mem_cons_of_mem _ ha)
    unfold search
    unfold work at hwork
    rw [List.length_cons] at hwork
    split
    · next hx =>
      have hrest : ∀ a ∈ seen, ∀ b ∈ next a, b ∈ seen ∨ b ∈ stack := by
        intro a ha b hb
        rcases hseen a ha b hb with h | h
        · exact Or.inl h
        · rcases List.mem_cons.mp h with rfl | h
          · exact Or.inl hx
          · exact Or.inr h
      have hwork' : work next nodes stack seen ≤ turns := by
        unfold work
        omega
      obtain ⟨hon, hclosed⟩ := search_complete hnodes hwork' hbelow hrest
      refine ⟨fun a ha => ?_, hclosed⟩
      rcases List.mem_cons.mp ha with rfl | ha
      · exact subset_search hx
      · exact hon a ha
    · next hx =>
      have hxnodes : x ∈ nodes := hstack x List.mem_cons_self
      have hless := unseen_cons next hxnodes hx
      have hwork' : work next nodes ((next x).reverse ++ stack) (x :: seen) ≤ turns := by
        unfold work
        rw [List.length_append, List.length_reverse]
        omega
      have hon' : ∀ a ∈ (next x).reverse ++ stack, a ∈ nodes := by
        intro a ha
        rcases List.mem_append.mp ha with ha | ha
        · exact hnodes x hxnodes a (List.mem_reverse.mp ha)
        · exact hbelow a ha
      have hrest : ∀ a ∈ x :: seen, ∀ b ∈ next a,
          b ∈ x :: seen ∨ b ∈ (next x).reverse ++ stack := by
        intro a ha b hb
        rcases List.mem_cons.mp ha with rfl | ha
        · exact Or.inr (List.mem_append_left _ (List.mem_reverse.mpr hb))
        · rcases hseen a ha b hb with h | h
          · exact Or.inl (List.mem_cons_of_mem _ h)
          · rcases List.mem_cons.mp h with rfl | h
            · exact Or.inl List.mem_cons_self
            · exact Or.inr (List.mem_append_right _ h)
      obtain ⟨hon, hclosed⟩ := search_complete hnodes hwork' hon' hrest
      refine ⟨fun a ha => ?_, hclosed⟩
      rcases List.mem_cons.mp ha with rfl | ha
      · exact subset_search List.mem_cons_self
      · exact hon a (List.mem_append_right _ ha)

/-- **What is reached is what there is a path to.** -/
theorem mem_reach (hnodes : ∀ a ∈ nodes, ∀ b ∈ next a, b ∈ nodes)
    (hstack : ∀ a ∈ stack, a ∈ nodes) :
    y ∈ reach next nodes stack ↔
      ∃ x ∈ stack, Relation.ReflTransGen (fun a b => b ∈ next a) x y := by
  unfold reach
  constructor
  · intro h
    exact (search_sound h).resolve_left List.not_mem_nil
  · rintro ⟨x, hx, hpath⟩
    have hempty : ∀ a ∈ ([] : List α), ∀ b ∈ next a, b ∈ [] ∨ b ∈ stack :=
      fun _ ha => absurd ha List.not_mem_nil
    have hreach := search_complete hnodes (le_refl _) hstack hempty
    induction hpath with
    | refl => exact hreach.1 x hx
    | tail _ hstep ih => exact hreach.2 _ ih _ hstep

/-- No node is seen twice. -/
theorem nodup_search : ∀ {turns : ℕ} {stack seen : List α}, seen.Nodup →
    (search next turns stack seen).Nodup
  | 0, _, _, h => h
  | _ + 1, [], _, h => h
  | turns + 1, x :: stack, seen, h => by
    unfold search
    split
    · exact nodup_search h
    · next hx => exact nodup_search (List.nodup_cons.mpr ⟨hx, h⟩)

end BasecradleRouter.Lib.Search
