import Mathlib.Analysis.Real.Sqrt
import Mathlib.Data.Nat.Sqrt
import Mathlib.Tactic.LinearCombination
import Mathlib.Tactic.Linarith
import Mathlib.Tactic.Ring

/-!
Owns the square root taken one binary digit at a time, as machines without a divider take
it: what the remainder and the root register hold between two digits, what they hold at the
end, how large the trial subtrahend gets, and the root rounded to the nearest number.

Does not own register widths.
-/

namespace WallUnit.Foundations

/-- What is left of the radicand, and the root found so far in the scale of the next digit. -/
@[ext]
structure Digits where
  num : Nat
  res : Nat
deriving DecidableEq, Repr

/-- One digit: `bit` is the square of its place value. -/
def Digits.step (bit : Nat) (digits : Digits) : Digits :=
  if digits.res + bit ≤ digits.num then
    ⟨digits.num - (digits.res + bit), digits.res / 2 + bit⟩
  else ⟨digits.num, digits.res / 2⟩

/-- `count` digits, from the place whose square is `4 ^ (count - 1)` down to the units. -/
def Digits.run : Nat → Digits → Digits
  | 0, digits => digits
  | place + 1, digits => run place (digits.step (4 ^ place))

/-- Between two digits: `root` is the root of `radicand` cut off below `2 ^ place`, and the
registers hold its remainder and its double in the scale of the next digit. -/
structure CutRoot (radicand place root : Nat) (digits : Digits) : Prop where
  scale : digits.res = root * 2 ^ place
  remainder : digits.num + root * root = radicand
  above : radicand < (root + 2 ^ place) * (root + 2 ^ place)
  aligned : 2 ^ place ∣ root

theorem CutRoot.start {radicand count : Nat} (small : radicand < 4 ^ count) :
    CutRoot radicand count 0 ⟨radicand, 0⟩ where
  scale := (Nat.zero_mul _).symm
  remainder := rfl
  above := by
    rw [Nat.zero_add, ← Nat.mul_pow]
    exact small
  aligned := Nat.dvd_zero _

/-- The next digit is one exactly when its trial subtrahend fits into the remainder. -/
theorem CutRoot.step {radicand place root : Nat} {digits : Digits}
    (cut : CutRoot radicand (place + 1) root digits) :
    ∃ next, CutRoot radicand place next (digits.step (4 ^ place)) := by
  have square : (4 : Nat) ^ place = 2 ^ place * 2 ^ place := by rw [← Nat.mul_pow]
  have double : digits.res = 2 * (root * 2 ^ place) := by
    rw [cut.scale, Nat.pow_succ]
    ring
  have half : digits.res / 2 = root * 2 ^ place := by
    rw [double, Nat.mul_div_cancel_left _ Nat.two_pos]
  have above := cut.above
  have remainder := cut.remainder
  rw [Nat.pow_succ] at above
  have aligned : 2 ^ place ∣ root :=
    Nat.dvd_trans (Nat.pow_dvd_pow 2 (Nat.le_succ place)) cut.aligned
  by_cases fits : digits.res + 4 ^ place ≤ digits.num
  · refine ⟨root + 2 ^ place, ?_⟩
    rw [Digits.step, if_pos fits]
    refine ⟨?_, ?_, ?_, Nat.dvd_add aligned (Nat.dvd_refl _)⟩
    · dsimp only
      rw [half, square]
      ring
    · dsimp only
      rw [double, square] at fits ⊢
      have grown : (root + 2 ^ place) * (root + 2 ^ place)
          = 2 * (root * 2 ^ place) + 2 ^ place * 2 ^ place + root * root := by ring
      omega
    · calc radicand < (root + 2 ^ place * 2) * (root + 2 ^ place * 2) := above
        _ = (root + 2 ^ place + 2 ^ place) * (root + 2 ^ place + 2 ^ place) := by ring
  · refine ⟨root, ?_⟩
    rw [Digits.step, if_neg fits]
    refine ⟨half, remainder, ?_, aligned⟩
    rw [double, square] at fits
    have grown : (root + 2 ^ place) * (root + 2 ^ place)
        = 2 * (root * 2 ^ place) + 2 ^ place * 2 ^ place + root * root := by ring
    omega

theorem CutRoot.run {radicand place root : Nat} {digits : Digits}
    (cut : CutRoot radicand place root digits) :
    ∃ whole, CutRoot radicand 0 whole (digits.run place) := by
  induction place generalizing root digits with
  | zero => exact ⟨root, cut⟩
  | succ place inductionHypothesis =>
      obtain ⟨next, one⟩ := cut.step
      exact inductionHypothesis one

/-- All digits taken, the root register holds the integer square root and the other one what
its square leaves. -/
theorem Digits.run_eq_sqrt {radicand count : Nat} (small : radicand < 4 ^ count) :
    (⟨radicand, 0⟩ : Digits).run count
      = ⟨radicand - Nat.sqrt radicand * Nat.sqrt radicand, Nat.sqrt radicand⟩ := by
  obtain ⟨whole, scale, remainder, above, -⟩ := (CutRoot.start small).run
  have root : whole = Nat.sqrt radicand := by
    refine Nat.eq_sqrt.mpr ⟨?_, above⟩
    omega
  rw [Nat.pow_zero, Nat.mul_one] at scale
  rw [← root, ← scale, Digits.ext_iff]
  refine ⟨?_, rfl⟩
  rw [scale]
  exact (Nat.sub_eq_of_eq_add remainder.symm).symm

/-- The trial subtrahend stays below any square that bounds the radicand from above, so a
register as wide as the radicand never wraps. -/
theorem CutRoot.trial_lt {radicand place root count : Nat} {digits : Digits}
    (cut : CutRoot radicand (place + 1) root digits) (small : radicand < 4 ^ count)
    (within : place < count) :
    digits.res + 4 ^ place < 4 ^ count := by
  have square : (4 : Nat) ^ place = 2 ^ place * 2 ^ place := by rw [← Nat.mul_pow]
  have whole : (4 : Nat) ^ count = 2 ^ count * 2 ^ count := by rw [← Nat.mul_pow]
  have double : digits.res = 2 * (root * 2 ^ place) := by
    rw [cut.scale, Nat.pow_succ]
    ring
  have below : root < 2 ^ count := by
    by_contra reached
    have squared : 2 ^ count * 2 ^ count ≤ root * root :=
      Nat.mul_le_mul (Nat.le_of_not_lt reached) (Nat.le_of_not_lt reached)
    have := cut.remainder
    omega
  -- both are multiples of the next place value, so a whole step of it stands between them
  have room : root + 2 ^ (place + 1) ≤ 2 ^ count := by
    have apart : 2 ^ (place + 1) ≤ 2 ^ count - root :=
      Nat.le_of_dvd (Nat.sub_pos_of_lt below)
        (Nat.dvd_sub (Nat.pow_dvd_pow 2 within) cut.aligned)
    omega
  rw [double, square, whole]
  rw [Nat.pow_succ] at room
  have positive : 0 < 2 ^ place := Nat.two_pow_pos place
  nlinarith [Nat.zero_le (root * root)]

/-- The natural number nearest to the square root. -/
def nearestRoot (radicand : Nat) : Nat :=
  if radicand - Nat.sqrt radicand * Nat.sqrt radicand ≤ Nat.sqrt radicand then
    Nat.sqrt radicand
  else Nat.sqrt radicand + 1

/-- No natural number is nearer, and none is as near. -/
theorem abs_sqrt_sub_nearestRoot_lt (radicand : Nat) :
    |√(radicand : ℝ) - nearestRoot radicand| < 1 / 2 := by
  have nonneg : (0 : ℝ) ≤ Nat.sqrt radicand := Nat.cast_nonneg _
  have low : Nat.sqrt radicand * Nat.sqrt radicand ≤ radicand := Nat.sqrt_le radicand
  have high : radicand < (Nat.sqrt radicand + 1) * (Nat.sqrt radicand + 1) :=
    Nat.lt_succ_sqrt radicand
  by_cases down : radicand - Nat.sqrt radicand * Nat.sqrt radicand ≤ Nat.sqrt radicand
  · have above : (radicand : ℝ) ≤ Nat.sqrt radicand * Nat.sqrt radicand + Nat.sqrt radicand := by
      exact_mod_cast Nat.sub_le_iff_le_add'.mp down
    have from_below : (Nat.sqrt radicand : ℝ) ≤ √radicand :=
      Real.le_sqrt_of_sq_le (by rw [sq]; exact_mod_cast low)
    have from_above : √(radicand : ℝ) < Nat.sqrt radicand + 1 / 2 :=
      (Real.sqrt_lt' (by linarith)).mpr (by linear_combination above)
    rw [nearestRoot, if_pos down, abs_of_nonneg (sub_nonneg.mpr from_below)]
    linarith
  · have below :
        (Nat.sqrt radicand : ℝ) * Nat.sqrt radicand + Nat.sqrt radicand + 1 ≤ radicand := by
      exact_mod_cast (by omega : Nat.sqrt radicand * Nat.sqrt radicand + Nat.sqrt radicand + 1
        ≤ radicand)
    have from_below : (Nat.sqrt radicand : ℝ) + 1 / 2 < √radicand :=
      Real.lt_sqrt_of_sq_lt (by linear_combination below)
    have from_above : √(radicand : ℝ) < Nat.sqrt radicand + 1 :=
      (Real.sqrt_lt' (by linarith)).mpr (by rw [sq]; exact_mod_cast high)
    rw [nearestRoot, if_neg down, Nat.cast_add, Nat.cast_one, abs_lt]
    constructor <;> linarith

end WallUnit.Foundations
