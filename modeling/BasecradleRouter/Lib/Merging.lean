/-
# Findings that share something are one

Findings come one after another, and a new one absorbs every kept one it is related to.  Whatever
is related to a merged finding is related to one of the two it is made of (`Absorbs`), so that
what is kept stays unrelated and each kept finding is built from a component of the findings so far:
`components_foldl`.

`IsComponents` says what that is without the loop.  The components are determined by what was found,
in whatever order (`IsComponents.mem_iff`).
-/
import Mathlib.Data.List.Induction
import Mathlib.Data.List.Pairwise
import Mathlib.Logic.Relation

namespace BasecradleRouter.Lib.Merging

open Relation

variable {α : Type} {related : α → α → Bool} {merged : α → α → α}

/-! ## 1. The loop -/

/-- A new finding takes the place of every kept one it is related to. -/
def absorb [DecidableEq α] (related : α → α → Bool) (merged : α → α → α) (kept : List α)
    (new : α) : List α :=
  let taken := (kept.filter (related · new)).foldl
    (fun state seen => (state.1.erase seen, merged seen state.2)) (kept, new)
  taken.1 ++ [taken.2]

/-- What is related to a merged finding is related to one of the two. -/
structure Absorbs (related : α → α → Bool) (merged : α → α → α) : Prop where
  symm : ∀ {a b}, related a b = true → related b a = true
  merged : ∀ {s a}, related s a = true → ∀ x,
    (related x (merged s a) = true ↔ related x s = true ∨ related x a = true)

/-- A finding that is made of others, each related to what it is merged with. -/
inductive Built (related : α → α → Bool) (merged : α → α → α) : α → List α → Prop
  | one (a : α) : Built related merged a [a]
  | merge {s a : α} {g g' : List α} (h : related s a = true) (hs : Built related merged s g)
      (ha : Built related merged a g') : Built related merged (merged s a) (g ++ g')

/-! ## 2. Components -/

/-- Related through findings that were found. -/
def Linked (related : α → α → Bool) (found : List α) : α → α → Prop :=
  ReflTransGen fun a b => a ∈ found ∧ b ∈ found ∧ related a b = true

/-- The connected components of what was found. -/
structure IsComponents (related : α → α → Bool) (found : List α) (components : List (List α)) :
    Prop where
  perm : components.flatten.Perm found
  connected : ∀ c ∈ components, c ≠ [] ∧ ∀ a ∈ c, ∀ b ∈ c, Linked related found a b
  apart : components.Pairwise fun c c' => ∀ a ∈ c, ∀ b ∈ c', ¬ Linked related found a b

theorem Linked.symm (hsymm : ∀ {a b}, related a b = true → related b a = true) {found : List α}
    {a b : α} (h : Linked related found a b) : Linked related found b a := by
  induction h with
  | refl => exact .refl
  | tail _ hstep ih => exact .head ⟨hstep.2.1, hstep.1, hsymm hstep.2.2⟩ ih

/-- Links only need findings that were found. -/
theorem Linked.mono {found found' : List α} (hsub : ∀ x ∈ found, x ∈ found') {a b : α}
    (h : Linked related found a b) : Linked related found' a b := by
  induction h with
  | refl => exact .refl
  | tail _ hstep ih => exact .tail ih ⟨hsub _ hstep.1, hsub _ hstep.2.1, hstep.2.2⟩

namespace IsComponents

variable {found found' : List α} {components components' : List (List α)}

theorem mem_found (h : IsComponents related found components) {c : List α} (hc : c ∈ components)
    {a : α} (ha : a ∈ c) : a ∈ found :=
  h.perm.mem_iff.mp (List.mem_flatten.mpr ⟨c, hc, ha⟩)

/-- A component is all that is linked with one of it. -/
theorem mem_iff (hsymm : ∀ {a b}, related a b = true → related b a = true)
    (h : IsComponents related found components) {c : List α} (hc : c ∈ components) {a : α}
    (ha : a ∈ c) {x : α} : x ∈ c ↔ x ∈ found ∧ Linked related found a x := by
  constructor
  · exact fun hx => ⟨h.mem_found hc hx, (h.connected c hc).2 a ha x hx⟩
  · rintro ⟨hx, hlinked⟩
    obtain ⟨c', hc', hxc'⟩ := List.mem_flatten.mp (h.perm.mem_iff.mpr hx)
    by_contra hout
    have hne : c ≠ c' := by
      rintro rfl
      exact hout hxc'
    have hswap : Std.Symm fun c c' : List α => ∀ a ∈ c, ∀ b ∈ c', ¬ Linked related found a b :=
      ⟨fun c c' hcc' b hb a ha hba => hcc' a ha b hb (hba.symm hsymm)⟩
    exact h.apart.forall hc hc' hne a ha x hxc' hlinked

/-- The same findings have the same components. -/
theorem same (hsymm : ∀ {a b}, related a b = true → related b a = true)
    (h : IsComponents related found components) (h' : IsComponents related found' components')
    (hfound : ∀ x, x ∈ found ↔ x ∈ found') {c : List α} (hc : c ∈ components) :
    ∃ c' ∈ components', ∀ x, x ∈ c ↔ x ∈ c' := by
  obtain ⟨a, ha⟩ := List.exists_mem_of_ne_nil c (h.connected c hc).1
  have ha' : a ∈ found' := (hfound a).mp (h.mem_found hc ha)
  obtain ⟨c', hc', hac'⟩ := List.mem_flatten.mp (h'.perm.mem_iff.mpr ha')
  refine ⟨c', hc', fun x => ?_⟩
  rw [h.mem_iff hsymm hc ha, h'.mem_iff hsymm hc' hac', hfound]
  exact and_congr_right fun _ =>
    ⟨Linked.mono fun y => (hfound y).mp, Linked.mono fun y => (hfound y).mpr⟩

end IsComponents

/-! ## 3. What is built -/

namespace Built

variable {a x : α} {g : List α}

theorem ne_nil (h : Built related merged a g) : g ≠ [] := by
  induction h with
  | one a => exact List.cons_ne_nil a []
  | merge _ _ _ ih _ => simp [ih]

/-- What is related to a built finding is related to one it is made of. -/
theorem related_iff (hm : Absorbs related merged) (h : Built related merged a g) :
    related x a = true ↔ ∃ b ∈ g, related x b = true := by
  induction h with
  | one a => simp
  | merge hrelated _ _ ihs iha =>
    rw [hm.merged hrelated, ihs, iha]
    simp only [List.mem_append, or_and_right, exists_or]

/-- What a finding is built from is linked. -/
theorem linked (hm : Absorbs related merged) (h : Built related merged a g) {found : List α}
    (hsub : ∀ b ∈ g, b ∈ found) : ∀ b ∈ g, ∀ c ∈ g, Linked related found b c := by
  induction h with
  | one a =>
    intro b hb c hc
    rw [List.mem_singleton.mp hb, List.mem_singleton.mp hc]
    exact .refl
  | @merge s a g g' hrelated hs ha ihs iha =>
    have hg : ∀ b ∈ g, b ∈ found := fun b hb => hsub b (List.mem_append_left g' hb)
    have hg' : ∀ b ∈ g', b ∈ found := fun b hb => hsub b (List.mem_append_right g hb)
    -- the two parts touch somewhere
    obtain ⟨c', hc', hsc'⟩ := (ha.related_iff hm).mp hrelated
    obtain ⟨c, hc, hc'c⟩ := (hs.related_iff hm).mp (hm.symm hsc')
    have hbridge : Linked related found c c' := .single ⟨hg c hc, hg' c' hc', hm.symm hc'c⟩
    have hacross : ∀ b ∈ g, ∀ b' ∈ g', Linked related found b b' := fun b hb b' hb' =>
      ((ihs hg b hb c hc).trans hbridge).trans (iha hg' c' hc' b' hb')
    intro b hb d hd
    rcases List.mem_append.mp hb with hb | hb
    · rcases List.mem_append.mp hd with hd | hd
      · exact ihs hg b hb d hd
      · exact hacross b hb d hd
    · rcases List.mem_append.mp hd with hd | hd
      · exact (hacross d hd b hb).symm hm.symm
      · exact iha hg' b hb d hd

end Built

/-! ## 4. One turn -/

theorem foldl_erase_cons [DecidableEq α] {x : α} {taken : List α} (hx : x ∉ taken)
    (kept : List α) : taken.foldl List.erase (x :: kept) = x :: taken.foldl List.erase kept := by
  induction taken generalizing kept with
  | nil => rfl
  | cons y taken ih =>
    rw [List.mem_cons, not_or] at hx
    obtain ⟨hne, hrest⟩ := hx
    rw [List.foldl_cons, List.foldl_cons, List.erase_cons_tail (by simpa using hne), ih hrest]

/-- Removing what passes a test one by one leaves what does not. -/
theorem foldl_erase_filter [DecidableEq α] (p : α → Bool) (kept : List α) :
    (kept.filter p).foldl List.erase kept = kept.filter (!p ·) := by
  induction kept with
  | nil => rfl
  | cons x kept ih =>
    cases hx : p x with
    | true =>
      rw [List.filter_cons_of_pos hx, List.filter_cons_of_neg (by simp [hx]), List.foldl_cons,
        List.erase_cons_head, ih]
    | false =>
      have hout : x ∉ kept.filter p := fun hmem => by simp [hx] at hmem
      rw [List.filter_cons_of_neg (by simp [hx]), List.filter_cons_of_pos (by simp [hx]),
        foldl_erase_cons hout, ih]

theorem absorb_eq [DecidableEq α] (related : α → α → Bool) (merged : α → α → α) (kept : List α)
    (new : α) : absorb related merged kept new = kept.filter (!related · new) ++
      [(kept.filter (related · new)).foldl (fun acc seen => merged seen acc) new] := by
  have hfold : ∀ (taken kept : List α) (new : α),
      taken.foldl (fun state seen => (state.1.erase seen, merged seen state.2)) (kept, new) =
        (taken.foldl List.erase kept, taken.foldl (fun acc seen => merged seen acc) new) := by
    intro taken
    induction taken with
    | nil => exact fun _ _ => rfl
    | cons seen taken ih => exact fun kept new => ih (kept.erase seen) (merged seen new)
  unfold absorb
  rw [hfold, foldl_erase_filter]

/-- A kept finding with those it is built from. -/
abbrev Part (α : Type) := α × List α

/-- What is kept, each with what it is built from, after the findings so far. -/
structure Keeps (related : α → α → Bool) (merged : α → α → α) (found : List α)
    (parts : List (Part α)) : Prop where
  built : ∀ p ∈ parts, Built related merged p.1 p.2
  perm : (parts.flatMap Prod.snd).Perm found
  unrelated : parts.Pairwise fun p q => related p.1 q.1 = false

/-- Findings merged into a new one. -/
theorem built_foldl (hm : Absorbs related merged) {new : α} {g : List α}
    (hnew : Built related merged new g) {taken : List (Part α)}
    (hbuilt : ∀ p ∈ taken, Built related merged p.1 p.2)
    (hrelated : ∀ p ∈ taken, related p.1 new = true) :
    ∃ g', Built related merged
      ((taken.map Prod.fst).foldl (fun acc seen => merged seen acc) new) g' ∧
      g'.Perm (taken.flatMap Prod.snd ++ g) := by
  induction taken generalizing new g with
  | nil => exact ⟨g, hnew, .refl _⟩
  | cons p taken ih =>
    obtain ⟨hp, hbuilt⟩ := List.forall_mem_cons.mp hbuilt
    obtain ⟨hpnew, hrelated⟩ := List.forall_mem_cons.mp hrelated
    obtain ⟨g', hg', hperm⟩ := ih (.merge hpnew hp hnew) hbuilt fun q hq =>
      (hm.merged hpnew q.1).mpr (Or.inr (hrelated q hq))
    refine ⟨g', hg', hperm.trans ?_⟩
    rw [List.flatMap_cons, ← List.append_assoc]
    exact List.perm_append_comm.append_right g

/-- Kept findings are unrelated, whichever comes first. -/
theorem Keeps.apart (hm : Absorbs related merged) {found : List α} {parts : List (Part α)}
    (h : Keeps related merged found parts) {p q : Part α} (hp : p ∈ parts) (hq : q ∈ parts)
    (hne : p ≠ q) : related p.1 q.1 = false := by
  have hsymm : Std.Symm fun p q : Part α => related p.1 q.1 = false :=
    ⟨fun p q hpq => eq_false_of_ne_true fun hqp => by
      rw [hm.symm hqp] at hpq
      cases hpq⟩
  exact h.unrelated.forall hp hq hne

theorem Keeps.absorb [DecidableEq α] (hm : Absorbs related merged) {found : List α}
    {parts : List (Part α)} (h : Keeps related merged found parts) (new : α) :
    ∃ parts', parts'.map Prod.fst = absorb related merged (parts.map Prod.fst) new ∧
      Keeps related merged (found ++ [new]) parts' := by
  let touches : Part α → Bool := fun p => related p.1 new
  obtain ⟨g, hg, hperm⟩ := built_foldl hm (.one new)
    (fun p hp => h.built p (List.mem_filter.mp hp).1)
    (fun p hp => (List.mem_filter.mp hp).2 : ∀ p ∈ parts.filter touches, related p.1 new = true)
  refine ⟨parts.filter (!touches ·) ++ [(((parts.filter touches).map Prod.fst).foldl
    (fun acc seen => merged seen acc) new, g)], ?_, ?_, ?_, ?_⟩
  · rw [absorb_eq, List.filter_map, List.filter_map, List.map_append]
    rfl
  · intro p hp
    rcases List.mem_append.mp hp with hp | hp
    · exact h.built p (List.mem_filter.mp hp).1
    · rw [List.mem_singleton.mp hp]
      exact hg
  · have hsplit : (parts.filter touches ++ parts.filter (!touches ·)).Perm parts :=
      List.filter_append_perm touches parts
    have hrest := (hsplit.flatMap_right Prod.snd).trans h.perm
    rw [List.flatMap_append] at hrest
    rw [List.flatMap_append, List.flatMap_singleton]
    refine (hperm.append_left _).trans (.trans ?_ (hrest.append_right [new]))
    rw [← List.append_assoc]
    exact List.perm_append_comm.append_right [new]
  · refine List.pairwise_append.mpr ⟨h.unrelated.filter _, List.pairwise_singleton _ _, ?_⟩
    intro p hp q hq
    obtain ⟨hpmem, hpnew⟩ := List.mem_filter.mp hp
    rw [List.mem_singleton.mp hq]
    refine eq_false_of_ne_true fun hrelated => ?_
    obtain ⟨b, hb, hpb⟩ := (hg.related_iff hm).mp hrelated
    rcases List.mem_append.mp (hperm.mem_iff.mp hb) with hb | hb
    · -- `b` is in a finding that was taken, and `p` was kept apart from that
      obtain ⟨q', hq', hbq'⟩ := List.mem_flatMap.mp hb
      obtain ⟨hq'mem, hq'new⟩ := List.mem_filter.mp hq'
      have hpq' : related p.1 q'.1 = true :=
        ((h.built q' hq'mem).related_iff hm).mpr ⟨b, hbq', hpb⟩
      have hne : p ≠ q' := by
        rintro rfl
        rw [hq'new] at hpnew
        cases hpnew
      rw [h.apart hm hpmem hq'mem hne] at hpq'
      cases hpq'
    · rw [List.mem_singleton.mp hb] at hpb
      rw [show touches p = true from hpb] at hpnew
      cases hpnew

/-! ## 5. The whole loop -/

theorem Keeps.isComponents (hm : Absorbs related merged) {found : List α}
    (hself : ∀ a ∈ found, related a a = true) {parts : List (Part α)}
    (h : Keeps related merged found parts) : IsComponents related found (parts.map Prod.snd) := by
  have hmem : ∀ p ∈ parts, ∀ a ∈ p.2, a ∈ found := fun p hp a ha =>
    h.perm.mem_iff.mp (List.mem_flatMap.mpr ⟨p, hp, ha⟩)
  have htouch : ∀ p ∈ parts, ∀ q ∈ parts, ∀ a ∈ p.2, ∀ b ∈ q.2, related a b = true →
      related p.1 q.1 = true := by
    intro p hp q hq a ha b hb hab
    refine ((h.built q hq).related_iff hm).mpr ⟨b, hb, hm.symm ?_⟩
    exact ((h.built p hp).related_iff hm).mpr ⟨a, ha, hm.symm hab⟩
  have hclosed : ∀ p ∈ parts, ∀ a ∈ p.2, ∀ b, Linked related found a b → b ∈ p.2 := by
    intro p hp a ha b hlinked
    induction hlinked with
    | refl => exact ha
    | @tail b c _ hstep ih =>
      obtain ⟨-, hc, hbc⟩ := hstep
      obtain ⟨q, hq, hcq⟩ := List.mem_flatMap.mp (h.perm.mem_iff.mpr hc)
      by_contra hout
      have hne : p ≠ q := by
        rintro rfl
        exact hout hcq
      have hpq := htouch p hp q hq b ih c hcq hbc
      rw [h.apart hm hp hq hne] at hpq
      cases hpq
  refine ⟨h.perm, ?_, ?_⟩
  · intro c hc
    obtain ⟨p, hp, rfl⟩ := List.mem_map.mp hc
    exact ⟨(h.built p hp).ne_nil, (h.built p hp).linked hm (hmem p hp)⟩
  · rw [List.pairwise_map]
    refine h.unrelated.imp_of_mem fun {p q} hp hq hpq a ha b hb hlinked => ?_
    have hbp : b ∈ p.2 := hclosed p hp a ha b hlinked
    rw [htouch p hp q hq b hbp b hb (hself b (hmem q hq b hb))] at hpq
    cases hpq

/-- **What is kept in the end is built from the components of what was found.** -/
theorem components_foldl [DecidableEq α] (hm : Absorbs related merged) (found : List α)
    (hself : ∀ a ∈ found, related a a = true) :
    ∃ parts : List (Part α), parts.map Prod.fst = found.foldl (absorb related merged) [] ∧
      Keeps related merged found parts ∧ IsComponents related found (parts.map Prod.snd) := by
  have hloop : ∃ parts : List (Part α),
      parts.map Prod.fst = found.foldl (absorb related merged) [] ∧
        Keeps related merged found parts := by
    induction found using List.reverseRecOn with
    | nil => exact ⟨[], rfl, fun p hp => absurd hp List.not_mem_nil, .refl _, .nil⟩
    | append_singleton found new ih =>
      obtain ⟨parts, hparts, hkeeps⟩ := ih fun a ha => hself a (List.mem_append_left [new] ha)
      obtain ⟨parts', hparts', hkeeps'⟩ := hkeeps.absorb hm new
      refine ⟨parts', ?_, hkeeps'⟩
      rw [List.foldl_append, List.foldl_cons, List.foldl_nil, ← hparts, hparts']
  obtain ⟨parts, hparts, hkeeps⟩ := hloop
  exact ⟨parts, hparts, hkeeps, hkeeps.isComponents hm hself⟩

end BasecradleRouter.Lib.Merging
