/-
# Anchored patterns without alternatives

The patterns that guard a value on its way into an argument list are anchored at both ends and are a
row of character classes, each repeated between two bounds.  A `Pattern` is that row, so that
patterns written in two languages can be compared as values.
-/
import Mathlib.Tactic.Common

namespace BasecradleRouter.Lib

/-- A character class, as ranges of characters, and how often it stands. -/
structure Piece where
  ranges : List (Char × Char)
  least : ℕ
  most : ℕ
  deriving DecidableEq

/-- Whether a character is of the class. -/
def Piece.accepts (p : Piece) (c : Char) : Bool :=
  p.ranges.any fun r => decide (r.1 ≤ c) && decide (c ≤ r.2)

/-- `\A…\Z`, or `^…$` where a line end is a character like any other. -/
abbrev Pattern := List Piece

namespace Pattern

/-- A text as itself. -/
def literal (text : String) : Pattern := text.toList.map fun c => ⟨[(c, c)], 1, 1⟩

/-- Whether the pattern matches the whole of a text. -/
def fits : Pattern → List Char → Bool
  | [], cs => cs.isEmpty
  | p :: ps, cs => (List.range (p.most + 1)).any fun n =>
      decide (p.least ≤ n) && decide (n ≤ cs.length) && (cs.take n).all p.accepts &&
        fits ps (cs.drop n)

variable {p : Piece} {ps qs : Pattern} {cs : List Char}

/-- A pattern matches piece by piece. -/
theorem fits_cons : fits (p :: ps) cs = true ↔ ∃ a b, cs = a ++ b ∧
    (p.least ≤ a.length ∧ a.length ≤ p.most ∧ ∀ c ∈ a, p.accepts c = true) ∧ fits ps b = true := by
  rw [fits, List.any_eq_true]
  constructor
  · rintro ⟨n, hn, h⟩
    simp only [Bool.and_eq_true, decide_eq_true_eq, List.all_eq_true, List.mem_range] at h hn
    obtain ⟨⟨⟨hleast, hlength⟩, hall⟩, hrest⟩ := h
    refine ⟨cs.take n, cs.drop n, (List.take_append_drop n cs).symm, ?_, hrest⟩
    rw [List.length_take_of_le hlength]
    exact ⟨hleast, Nat.lt_succ_iff.mp hn, hall⟩
  · rintro ⟨a, b, rfl, ⟨hleast, hmost, hall⟩, hrest⟩
    refine ⟨a.length, List.mem_range.mpr (Nat.lt_succ_iff.mpr hmost), ?_⟩
    simpa [hleast] using ⟨hall, hrest⟩

/-- And part by part. -/
theorem fits_append : fits (ps ++ qs) cs = true ↔
    ∃ a b, cs = a ++ b ∧ fits ps a = true ∧ fits qs b = true := by
  induction ps generalizing cs with
  | nil =>
    constructor
    · intro h
      exact ⟨[], cs, rfl, rfl, h⟩
    · rintro ⟨a, b, rfl, ha, hb⟩
      obtain rfl := List.isEmpty_iff.mp ha
      exact hb
  | cons p ps ih =>
    rw [List.cons_append, fits_cons]
    constructor
    · rintro ⟨a, b, rfl, ha, hb⟩
      obtain ⟨b, c, rfl, hb, hc⟩ := ih.mp hb
      exact ⟨a ++ b, c, by simp, fits_cons.mpr ⟨a, b, rfl, ha, hb⟩, hc⟩
    · rintro ⟨ab, c, rfl, hab, hc⟩
      obtain ⟨a, b, rfl, ha, hb⟩ := fits_cons.mp hab
      exact ⟨a, b ++ c, by simp, ha, ih.mpr ⟨b, c, rfl, hb, hc⟩⟩

/-- One piece. -/
theorem fits_one : fits [p] cs = true ↔
    p.least ≤ cs.length ∧ cs.length ≤ p.most ∧ ∀ c ∈ cs, p.accepts c = true := by
  rw [fits_cons]
  constructor
  · rintro ⟨a, b, rfl, ha, hb⟩
    obtain rfl := List.isEmpty_iff.mp hb
    rwa [List.append_nil]
  · intro h
    exact ⟨cs, [], (List.append_nil cs).symm, h, rfl⟩

/-- A literal matches itself. -/
theorem fits_literal {text : String} : fits (literal text) cs = true ↔ cs = text.toList := by
  unfold literal
  induction text.toList generalizing cs with
  | nil => exact List.isEmpty_iff
  | cons d ds ih =>
    rw [List.map_cons, fits_cons]
    constructor
    · rintro ⟨a, b, rfl, ⟨hleast, hmost, hall⟩, hb⟩
      obtain ⟨c, rfl⟩ := List.length_eq_one_iff.mp (Nat.le_antisymm hmost hleast)
      have hc := hall c List.mem_cons_self
      simp only [Piece.accepts, List.any_cons, List.any_nil, Bool.or_false, Bool.and_eq_true,
        decide_eq_true_eq] at hc
      rw [ih.mp hb, Char.le_antisymm hc.2 hc.1]
      rfl
    · rintro rfl
      refine ⟨[d], ds, rfl, ⟨Nat.le_refl 1, Nat.le_refl 1, fun c hc => ?_⟩, ih.mpr rfl⟩
      rw [List.mem_singleton.mp hc]
      simp [Piece.accepts]

end Pattern

end BasecradleRouter.Lib
