/-
# Doubles

`Rounding.binary64` is what an interpreter's float does: the nearest multiple of the spacing that
doubles have at the exact result, the even one of two that are as near, and an infinity past the
last of them.

Rounding to the nearest of a set is monotone whatever is done with ties (`nearest_mono`); that the
spacing's nearest multiple is the nearest of all doubles is `abs_sub_nearest_le`.
-/
import BasecradleRouter.Lib.PyFloat
import Mathlib.Data.Int.Log
import Mathlib.Data.Rat.Floor
import Mathlib.Tactic.Linarith
import Mathlib.Tactic.Positivity
import Mathlib.Tactic.Ring

namespace BasecradleRouter.Lib

namespace Binary64

/-! ## 1. Rounding to an integer -/

/-- The nearest integer, and the even one of two. -/
def roundEven (x : ℚ) : ℤ :=
  let below := ⌊x⌋
  if x - below < 1 / 2 then below
  else if 1 / 2 < x - below then below + 1
  else if Even below then below else below + 1

theorem abs_sub_roundEven_le_half (x : ℚ) : |x - roundEven x| ≤ 1 / 2 := by
  have hlow := Int.floor_le x
  have hhigh := Int.lt_floor_add_one x
  unfold roundEven
  dsimp only
  rw [abs_le]
  split
  · constructor <;> linarith
  split
  · push_cast
    constructor <;> linarith
  split
  · constructor <;> linarith
  · push_cast
    constructor <;> linarith

/-- No integer is nearer. -/
theorem abs_sub_roundEven_le (x : ℚ) (n : ℤ) : |x - roundEven x| ≤ |x - n| := by
  have hhalf := abs_le.mp (abs_sub_roundEven_le_half x)
  by_cases heq : roundEven x = n
  · rw [heq]
  · have hapart : (1 : ℚ) ≤ |(roundEven x : ℚ) - n| := by
      have hint : 1 ≤ |roundEven x - n| := Int.one_le_abs (sub_ne_zero.mpr heq)
      exact_mod_cast hint
    have htriangle := abs_sub_le (roundEven x : ℚ) x n
    rw [abs_sub_comm (roundEven x : ℚ) x] at htriangle
    have := abs_sub_roundEven_le_half x
    linarith

/-! ## 2. Rounding to a double -/

/-- The exponent of the spacing that doubles have at a number. -/
def exponent (q : ℚ) : ℤ := max (Int.log 2 |q| - 52) (-1074)

/-- The nearest multiple of that spacing. -/
def nearest (q : ℚ) : ℚ := roundEven (q / 2 ^ exponent q) * 2 ^ exponent q

/-- A double, were there no last one. -/
def Representable (f : ℚ) : Prop :=
  ∃ m e : ℤ, |m| ≤ 2 ^ 53 ∧ -1074 ≤ e ∧ f = m * 2 ^ e

theorem two_zpow_pos (e : ℤ) : (0 : ℚ) < 2 ^ e := zpow_pos two_pos e

theorem nearest_zero : nearest 0 = 0 := by
  have hround : roundEven 0 = 0 := by decide +kernel
  rw [nearest, zero_div, hround, Int.cast_zero, zero_mul]

/-- No multiple of the spacing is nearer. -/
theorem abs_sub_nearest_le_multiple (q : ℚ) (n : ℤ) :
    |q - nearest q| ≤ |q - n * 2 ^ exponent q| := by
  have hpos := two_zpow_pos (exponent q)
  have hscaled : ∀ z : ℤ, |q - z * 2 ^ exponent q| =
      |q / 2 ^ exponent q - z| * 2 ^ exponent q := by
    intro z
    rw [← abs_of_pos hpos, ← abs_mul, abs_of_pos hpos, sub_mul, div_mul_cancel₀ q hpos.ne']
  rw [nearest, hscaled, hscaled]
  exact mul_le_mul_of_nonneg_right (abs_sub_roundEven_le _ n) hpos.le

theorem abs_lt_two_zpow (q : ℚ) : |q| < 2 ^ (exponent q + 53) := by
  have hlog : |q| < 2 ^ (Int.log 2 |q| + 1) := Int.lt_zpow_succ_log_self one_lt_two |q|
  have hle : Int.log 2 |q| + 1 ≤ exponent q + 53 := by
    have := le_max_left (Int.log 2 |q| - 52) (-1074)
    unfold exponent
    omega
  exact hlog.trans_le (zpow_le_zpow_right₀ one_le_two hle)

theorem representable_nearest (q : ℚ) : Representable (nearest q) := by
  refine ⟨roundEven (q / 2 ^ exponent q), exponent q, ?_, le_max_right _ _, rfl⟩
  have hpos := two_zpow_pos (exponent q)
  have hscaled : |q / 2 ^ exponent q| < 2 ^ 53 := by
    rw [abs_div, abs_of_pos hpos, div_lt_iff₀ hpos, ← zpow_natCast, ← zpow_add₀ two_ne_zero]
    simpa [add_comm] using abs_lt_two_zpow q
  have hhalf := abs_sub_roundEven_le_half (q / 2 ^ exponent q)
  have htriangle := abs_sub_abs_le_abs_sub (roundEven (q / 2 ^ exponent q) : ℚ)
    (q / 2 ^ exponent q)
  rw [abs_sub_comm] at htriangle
  have hlt : (|roundEven (q / 2 ^ exponent q)| : ℚ) < 2 ^ 53 + 1 := by linarith
  have hint : |roundEven (q / 2 ^ exponent q)| < 2 ^ 53 + 1 := by exact_mod_cast hlt
  omega

/-- What lies between a number and what is closer to zero is nearer to it. -/
theorem nearer_than_beyond {q s f : ℚ} (hs : s ≤ |q|) (hf : |f| ≤ s) :
    (0 < q → |q - s| ≤ |q - f|) ∧ (q < 0 → |q - -s| ≤ |q - f|) := by
  obtain ⟨hlow, hhigh⟩ := abs_le.mp hf
  constructor
  · intro hq
    rw [abs_of_pos hq] at hs
    rw [abs_of_nonneg (by linarith), abs_of_nonneg (by linarith)]
    linarith
  · intro hq
    rw [abs_of_neg hq] at hs
    rw [abs_of_nonpos (by linarith), abs_of_nonpos (by linarith)]
    linarith

/-- **No double is nearer.** -/
theorem abs_sub_nearest_le (q : ℚ) {f : ℚ} (hf : Representable f) : |q - nearest q| ≤ |q - f| := by
  obtain ⟨m, e, hm, he, rfl⟩ := hf
  by_cases hfine : exponent q ≤ e
  · -- a multiple of the spacing
    obtain ⟨k, hk⟩ := Int.eq_ofNat_of_zero_le (sub_nonneg.mpr hfine)
    have hmultiple : (m : ℚ) * 2 ^ e = (m * 2 ^ k : ℤ) * 2 ^ exponent q := by
      have hsplit : e = (k : ℤ) + exponent q := by omega
      rw [hsplit, zpow_add₀ two_ne_zero]
      push_cast
      rw [zpow_natCast, mul_assoc]
    rw [hmultiple]
    exact abs_sub_nearest_le_multiple q _
  · -- of a finer spacing, so no further from zero than where the spacing changes
    rcases eq_or_ne q 0 with rfl | hne
    · rw [nearest_zero, sub_self, abs_zero]
      exact abs_nonneg _
    have hlow : (2 : ℚ) ^ (exponent q + 52) ≤ |q| := by
      have hlog : exponent q = Int.log 2 |q| - 52 := by
        unfold exponent at hfine ⊢
        omega
      rw [hlog, sub_add_cancel]
      exact Int.zpow_log_le_self one_lt_two (abs_pos.mpr hne)
    have hsmall : |(m : ℚ) * 2 ^ e| ≤ 2 ^ (exponent q + 52) := by
      have hm' : |(m : ℚ)| ≤ 2 ^ (53 : ℤ) := by exact_mod_cast hm
      rw [abs_mul, abs_of_pos (two_zpow_pos e)]
      calc
        |(m : ℚ)| * 2 ^ e ≤ 2 ^ (53 : ℤ) * 2 ^ e :=
          mul_le_mul_of_nonneg_right hm' (two_zpow_pos e).le
        _ = 2 ^ (53 + e) := (zpow_add₀ two_ne_zero _ _).symm
        _ ≤ 2 ^ (exponent q + 52) := zpow_le_zpow_right₀ one_le_two (by omega)
    have hchange : (2 : ℚ) ^ (exponent q + 52) = (2 ^ 52 : ℤ) * 2 ^ exponent q := by
      rw [add_comm, zpow_add₀ two_ne_zero]
      norm_num
    obtain ⟨hpos, hneg⟩ := nearer_than_beyond hlow hsmall
    rcases lt_or_gt_of_ne hne with hq | hq
    · have hmultiple : ((-2 ^ 52 : ℤ) : ℚ) * 2 ^ exponent q = -2 ^ (exponent q + 52) := by
        rw [hchange]
        push_cast
        ring
      have hbest := abs_sub_nearest_le_multiple q (-2 ^ 52)
      rw [hmultiple] at hbest
      exact hbest.trans (hneg hq)
    · have hbest := abs_sub_nearest_le_multiple q (2 ^ 52)
      rw [← hchange] at hbest
      exact hbest.trans (hpos hq)

/-- **Rounding to the nearest is monotone.** -/
theorem nearest_mono {a b : ℚ} (hab : a ≤ b) : nearest a ≤ nearest b := by
  by_contra hlt
  rw [not_le] at hlt
  have ha := abs_sub_nearest_le a (representable_nearest b)
  have hb := abs_sub_nearest_le b (representable_nearest a)
  rw [← sq_le_sq] at ha hb
  have hba : b ≤ a := by nlinarith
  rw [le_antisymm hab hba] at hlt
  exact absurd hlt (lt_irrefl _)

/-! ## 3. The arithmetic of doubles -/

/-- What is past the last double is an infinity. -/
def round (q : ℚ) : PyFloat :=
  if 2 ^ 1024 ≤ nearest q then .inf
  else if nearest q ≤ -2 ^ 1024 then .negInf
  else .fin (nearest q)

theorem round_mono {a b : ℚ} (hab : a ≤ b) : (round a).le (round b) = true := by
  have hmono := nearest_mono hab
  unfold round
  split
  · next ha =>
    rw [if_pos (ha.trans hmono)]
    rfl
  split
  · split
    · rfl
    split
    · rfl
    · rfl
  · next ha =>
    split
    · rfl
    rw [if_neg fun hb => ha (hmono.trans hb)]
    exact decide_eq_true hmono

theorem round_zero : round 0 = .fin 0 := by
  unfold round
  rw [nearest_zero, if_neg (by norm_num), if_neg (by norm_num)]

/-- A double is its own nearest. -/
theorem nearest_of_representable {f : ℚ} (hf : Representable f) : nearest f = f := by
  have hle := abs_sub_nearest_le f hf
  rw [sub_self, abs_zero] at hle
  exact (sub_eq_zero.mp (abs_eq_zero.mp (le_antisymm hle (abs_nonneg _)))).symm

/-- An integer of a double's precision is not rounded. -/
theorem round_intCast {n : ℤ} (h : |n| ≤ 2 ^ 53) : round n = .fin n := by
  have hf : Representable n := ⟨n, 0, h, by decide, by simp⟩
  obtain ⟨hlow, hhigh⟩ := abs_le.mp h
  have hlow' : (-2 ^ 53 : ℚ) ≤ n := by exact_mod_cast hlow
  have hhigh' : (n : ℚ) ≤ 2 ^ 53 := by exact_mod_cast hhigh
  have hlast : (2 ^ 53 : ℚ) < 2 ^ 1024 := pow_lt_pow_right₀ one_lt_two (by omega)
  unfold round
  rw [nearest_of_representable hf, if_neg (not_le.mpr (hhigh'.trans_lt hlast)),
    if_neg (not_le.mpr ((neg_lt_neg hlast).trans_le hlow'))]

end Binary64

/-- The arithmetic of doubles. -/
def Rounding.binary64 : Rounding := ⟨Binary64.round, Binary64.round_zero, Binary64.round_mono⟩

/-- Nothing is rounded where the difference is an integer of up to 53 bits. -/
theorem Rounding.binary64_sub {a b : ℚ} (n : ℤ) (h : a - b = n) (hn : |n| ≤ 2 ^ 53) :
    Rounding.binary64.sub (.fin a) (.fin b) = .fin n := by
  rw [Rounding.sub_fin, h]
  exact Binary64.round_intCast hn

end BasecradleRouter.Lib
