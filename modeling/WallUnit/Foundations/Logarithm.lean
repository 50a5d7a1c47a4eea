import Mathlib.Analysis.SpecialFunctions.Log.Basic
import Mathlib.Tactic.FieldSimp
import Mathlib.Tactic.Linarith
import Mathlib.Tactic.Positivity

/-!
Owns what fixed-point logarithms are checked with: bounds on a logarithm read off a
comparison of whole powers, how far the logarithm moves over a step of its argument, and
the rounding of a whole quotient.

Does not own tables.
-/

namespace WallUnit.Foundations

/-- The whole quotient is the real one cut off. -/
theorem nat_div_bounds {value divisor : Nat} (positive : 0 < divisor) :
    ((value / divisor : Nat) : ℝ) ≤ (value : ℝ) / divisor ∧
      (value : ℝ) / divisor < (value / divisor : Nat) + 1 := by
  refine ⟨Nat.cast_div_le, ?_⟩
  rw [div_lt_iff₀ (Nat.cast_pos.mpr positive), add_mul, one_mul]
  exact_mod_cast Nat.lt_div_mul_add positive

theorem mul_log_le_of_pow_le {base power exponent : Nat} (positive : 0 < base)
    (le : base ^ power ≤ 2 ^ exponent) :
    power * Real.log base ≤ exponent * Real.log 2 := by
  have cast : (base : ℝ) ^ power ≤ 2 ^ exponent := by exact_mod_cast le
  have pos : (0 : ℝ) < (base : ℝ) ^ power := pow_pos (Nat.cast_pos.mpr positive) power
  have logs := Real.log_le_log pos cast
  rwa [Real.log_pow, Real.log_pow] at logs

theorem mul_log_two_le_of_le_pow {base power exponent factor : Nat} (positive : 0 < base)
    (scaled : 0 < factor) (le : 2 ^ exponent ≤ base ^ power * factor) :
    exponent * Real.log 2 ≤ power * Real.log base + Real.log factor := by
  have cast : (2 : ℝ) ^ exponent ≤ (base : ℝ) ^ power * factor := by exact_mod_cast le
  have pos : (0 : ℝ) < (base : ℝ) ^ power := pow_pos (Nat.cast_pos.mpr positive) power
  have factorPos : (0 : ℝ) < factor := Nat.cast_pos.mpr scaled
  have logs := Real.log_le_log (by positivity) cast
  rwa [Real.log_mul pos.ne' factorPos.ne', Real.log_pow, Real.log_pow] at logs

/-- Over a step upwards the logarithm grows at most at the rate it has at the start and at
least at the rate it has at the end. -/
theorem log_step_bounds {start step : ℝ} (positive : 0 < start) (forward : 0 ≤ step) :
    step / (start + step) ≤ Real.log (start + step) - Real.log start ∧
      Real.log (start + step) - Real.log start ≤ step / start := by
  have ended : 0 < start + step := by linarith
  rw [← Real.log_div ended.ne' positive.ne']
  constructor
  · have back := Real.one_sub_inv_le_log_of_pos (div_pos ended positive)
    have rate : 1 - ((start + step) / start)⁻¹ = step / (start + step) := by
      field_simp
      ring
    rwa [rate] at back
  · have ahead := Real.log_le_sub_one_of_pos (div_pos ended positive)
    have rate : (start + step) / start - 1 = step / start := by
      field_simp
      ring
    rwa [rate] at ahead

end WallUnit.Foundations
