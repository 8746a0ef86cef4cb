import Mathlib.Analysis.Complex.Exponential
import Mathlib.Analysis.Complex.Trigonometric

/-!
# Digits of sines

The series of the sine of a natural number, cut off far enough, is a fraction whose distance from
the sine is known.  The integer part of a multiple of the sine is found by comparing natural
numbers.
-/

namespace GPush.Crypt.Sine

open Complex (I)
open scoped Nat

/-- The numerator over `(4 * k)!` of the first `2 * k` terms of the series of the sine of `n`. -/
def numerator (n : Nat) : Nat → Int
  | 0 => 0
  | k + 1 =>
      numerator n k * ((4 * k + 1) * (4 * k + 2) * (4 * k + 3) * (4 * k + 4) : Nat) +
        (n ^ (4 * k + 1) * ((4 * k + 2) * (4 * k + 3) * (4 * k + 4)) : Nat) -
          (n ^ (4 * k + 3) * (4 * k + 4) : Nat)

/-- A term of the series of the exponential function at `n * I`. -/
theorem im_term (n k power : Nat) :
    ((n * I : ℂ) ^ (4 * k + power) / ((4 * k + power)! : ℂ)).im =
      n ^ (4 * k + power) / (4 * k + power)! * (I ^ power).im := by
  have turns : (I : ℂ) ^ (4 * k + power) = I ^ power := by
    rw [pow_add, pow_mul, Complex.I_pow_four, one_pow, one_mul]
  have real : (n * I : ℂ) ^ (4 * k + power) / ((4 * k + power)! : ℂ) =
      ((n ^ (4 * k + power) / (4 * k + power)! : ℝ) : ℂ) * I ^ power := by
    rw [mul_pow, turns]
    push_cast
    ring
  rw [real, Complex.im_ofReal_mul]

/-- The fraction is the imaginary part of a sum for `n * I`. -/
theorem im_sum (n k : Nat) :
    (∑ m ∈ Finset.range (4 * k), (n * I : ℂ) ^ m / (m ! : ℂ)).im =
      (numerator n k : ℝ) / (4 * k)! := by
  induction k with
  | zero => simp [numerator]
  | succ k ih =>
      have zeroth := im_term n k 0
      have first := im_term n k 1
      have second := im_term n k 2
      have third := im_term n k 3
      have nonzero : ((4 * k)! : ℝ) ≠ 0 := Nat.cast_ne_zero.mpr (Nat.factorial_ne_zero _)
      simp only [pow_zero, Complex.one_im, mul_zero, add_zero] at zeroth
      simp only [pow_one, Complex.I_im, mul_one] at first
      simp only [Complex.I_sq, Complex.neg_im, Complex.one_im, neg_zero, mul_zero] at second
      simp only [Complex.I_pow_three, Complex.neg_im, Complex.I_im, mul_neg, mul_one] at third
      rw [Nat.mul_succ, Finset.sum_range_succ, Finset.sum_range_succ, Finset.sum_range_succ,
        Finset.sum_range_succ, Complex.add_im, Complex.add_im, Complex.add_im, Complex.add_im, ih,
        zeroth, first, second, third, numerator]
      simp only [Nat.factorial_succ]
      push_cast
      field_simp
      ring

/-- How far the fraction is from the sine. -/
theorem abs_sub_le {n k : Nat} (converges : 2 * n ≤ 4 * k + 1) :
    |Real.sin n - numerator n k / (4 * k)!| ≤ n ^ (4 * k) / (4 * k)! * 2 := by
  have normEq : ‖(n * I : ℂ)‖ = n := by
    rw [Complex.norm_mul, Complex.norm_I, mul_one, Complex.norm_natCast]
  have small : ‖(n * I : ℂ)‖ / (4 * k).succ ≤ 1 / 2 := by
    rw [normEq, div_le_div_iff₀ (by positivity) (by positivity)]
    have converges' : (2 * n : ℝ) ≤ 4 * k + 1 := by exact_mod_cast converges
    push_cast
    linarith
  have sine : Real.sin n = (Complex.exp (n * I)).im := by
    exact_mod_cast (Complex.exp_ofReal_mul_I_im n).symm
  have bound := (Complex.abs_im_le_norm _).trans (Complex.exp_bound' small)
  rwa [Complex.sub_im, ← sine, im_sum, normEq] at bound

/-- The fraction leaves no doubt that the integer part of `s` times the absolute value of the
sine of `n` is `t`. -/
def Determines (k s n t : Nat) : Prop :=
  t * (4 * k)! + 2 * s * n ^ (4 * k) ≤ s * (numerator n k).natAbs ∧
    s * (numerator n k).natAbs + 2 * s * n ^ (4 * k) < (t + 1) * (4 * k)!

instance (k s n t : Nat) : Decidable (Determines k s n t) :=
  inferInstanceAs (Decidable (_ ∧ _))

theorem floor_eq {k s n t : Nat} (converges : 2 * n ≤ 4 * k + 1) (determines : Determines k s n t) :
    ⌊s * |Real.sin n|⌋₊ = t := by
  have positive : (0 : ℝ) < (4 * k)! := Nat.cast_pos.mpr (Nat.factorial_pos _)
  have near := (abs_abs_sub_abs_le _ _).trans (abs_sub_le converges)
  rw [abs_div, abs_of_pos positive, ← Int.cast_abs, Int.abs_eq_natAbs, Int.cast_natCast,
    abs_le] at near
  obtain ⟨least, most⟩ := near
  -- both ends as multiples of the factorial
  have least' : (numerator n k).natAbs - 2 * n ^ (4 * k) ≤ |Real.sin n| * (4 * k)! := by
    rw [← div_le_iff₀ positive, sub_div, mul_comm (2 : ℝ), mul_div_right_comm]
    linarith
  have most' : |Real.sin n| * (4 * k)! ≤ (numerator n k).natAbs + 2 * n ^ (4 * k) := by
    rw [← le_div_iff₀ positive, add_div, mul_comm (2 : ℝ), mul_div_right_comm]
    linarith
  obtain ⟨above, below⟩ := determines
  have above' : (t * (4 * k)! + 2 * s * n ^ (4 * k) : ℝ) ≤ s * (numerator n k).natAbs := by
    exact_mod_cast above
  have below' : (s * (numerator n k).natAbs + 2 * s * n ^ (4 * k) : ℝ) < (t + 1) * (4 * k)! := by
    exact_mod_cast below
  have nonneg : (0 : ℝ) ≤ s := Nat.cast_nonneg s
  rw [Nat.floor_eq_iff (by positivity)]
  constructor
  · have scaled := mul_le_mul_of_nonneg_left least' nonneg
    apply le_of_mul_le_mul_right _ positive
    linarith
  · have scaled := mul_le_mul_of_nonneg_left most' nonneg
    apply lt_of_mul_lt_mul_right _ positive.le
    linarith

end GPush.Crypt.Sine
