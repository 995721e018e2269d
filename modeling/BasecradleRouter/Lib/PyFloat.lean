/-
# Python's float

The numbers Python's `float` accepts, as rationals with the two infinities and NaN.  Order
comparisons with NaN are false.  Readings of a clock are finite, so they are plain rationals that
embed by `fin`.

A sum or a difference of finite values is rounded (`Rounding`): a double's is the nearest one to it,
and a greater exact result is never rounded to a smaller one.  `Rounding.exact` does not round.
-/
import Mathlib.Algebra.Order.Ring.Unbundled.Rat
import Mathlib.Tactic.Linarith

namespace BasecradleRouter.Lib

/-- A float. -/
inductive PyFloat
  | fin (q : ℚ)
  | inf
  | negInf
  | nan
  deriving DecidableEq

namespace PyFloat

/-- `a < b` -/
def lt : PyFloat → PyFloat → Bool
  | nan, _ => false
  | _, nan => false
  | fin a, fin b => decide (a < b)
  | fin _, inf => true
  | fin _, negInf => false
  | inf, _ => false
  | negInf, negInf => false
  | negInf, _ => true

/-- `a <= b` -/
def le : PyFloat → PyFloat → Bool
  | nan, _ => false
  | _, nan => false
  | fin a, fin b => decide (a ≤ b)
  | fin _, inf => true
  | fin _, negInf => false
  | inf, inf => true
  | inf, _ => false
  | negInf, _ => true

/-- `-a` -/
def neg : PyFloat → PyFloat
  | fin a => fin (-a)
  | inf => negInf
  | negInf => inf
  | nan => nan

theorem le_trans {a b c : PyFloat} (hab : le a b = true) (hbc : le b c = true) :
    le a c = true := by
  cases a <;> cases b <;> cases c <;> simp_all only [le, decide_eq_true_eq, Bool.false_eq_true]
  exact hab.trans hbc

/-- What is at least `d` above stays so further up. -/
theorem le_fin_mono {d : PyFloat} {a b : ℚ} (h : le d (fin a) = true) (hab : a ≤ b) :
    le d (fin b) = true :=
  le_trans h (decide_eq_true hab)

/-- Where neither is NaN, below and at least are opposites. -/
theorem lt_eq_not_le {a d : PyFloat} (ha : a ≠ nan) (hd : d ≠ nan) : lt a d = !le d a := by
  cases a <;> cases d <;> simp_all only [lt, le, ← decide_not, not_le, ne_eq, not_true] <;> rfl

end PyFloat

/-! ## Sums and differences -/

/-- What a float makes of the sum or the difference of two finite ones. -/
structure Rounding where
  round : ℚ → PyFloat
  zero : round 0 = .fin 0
  mono : ∀ {a b : ℚ}, a ≤ b → (round a).le (round b) = true

namespace Rounding

/-- The arithmetic that does not round. -/
def exact : Rounding where
  round := .fin
  zero := rfl
  mono hab := decide_eq_true hab

variable (r : Rounding)

/-- `a + b` -/
def add : PyFloat → PyFloat → PyFloat
  | .nan, _ => .nan
  | _, .nan => .nan
  | .fin a, .fin b => r.round (a + b)
  | .fin _, .inf => .inf
  | .fin _, .negInf => .negInf
  | .inf, .negInf => .nan
  | .inf, _ => .inf
  | .negInf, .inf => .nan
  | .negInf, _ => .negInf

/-- `a - b` -/
def sub (a b : PyFloat) : PyFloat := r.add a b.neg

variable {r}

theorem sub_fin (a b : ℚ) : r.sub (.fin a) (.fin b) = r.round (a - b) := by
  rw [sub_eq_add_neg]
  rfl

/-- Finite values are apart by something that is not NaN. -/
theorem sub_fin_ne_nan (a b : ℚ) : r.sub (.fin a) (.fin b) ≠ .nan := by
  rw [sub_fin]
  intro h
  have hself := r.mono (le_refl (a - b))
  rw [h] at hself
  cases hself

/-- Two readings of one clock are apart by nothing. -/
theorem sub_self_fin (a : ℚ) : r.sub (.fin a) (.fin a) = .fin 0 := by
  rw [sub_fin, sub_self, r.zero]

/-- From further up less is taken away to no less. -/
theorem le_sub_mono {x d : PyFloat} {a b : ℚ} (h : x.le (r.sub (.fin a) d) = true) (hab : a ≤ b) :
    x.le (r.sub (.fin b) d) = true := by
  cases d with
  | fin q => exact PyFloat.le_trans h (r.mono (by linarith))
  | inf => exact h
  | negInf => exact h
  | nan => exact h

/-- Is one finite value at least `d` above another: without rounding it is told by subtracting
either way round. -/
theorem le_exact_sub (a b : ℚ) (d : PyFloat) :
    d.le (.fin (a - b)) = (PyFloat.fin b).le (exact.sub (.fin a) d) := by
  cases d with
  | fin q =>
    have h : q ≤ a - b ↔ b ≤ a + -q := by constructor <;> intro h <;> linarith
    simp only [PyFloat.le, sub, PyFloat.neg, add, exact, h]
  | inf => rfl
  | negInf => rfl
  | nan => rfl

end Rounding

end BasecradleRouter.Lib
