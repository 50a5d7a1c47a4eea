import WallUnit.Firmware.Microfrontend.Bits
import WallUnit.Foundations.DigitRoot

/-!
Owns `Sqrt32` and `Sqrt64` of `filterbank.c`: no register wraps in their loops, and what
they return is the nearest number to the square root with two exceptions, the saturation at
the top of the 64-bit range and the 65 535 radicands just below `2 ^ 32` that the 32-bit
shortcut rounds down.

Does not own the channels the roots are taken of.
-/

namespace WallUnit.Firmware.Microfrontend

open WallUnit.Foundations

/-- The loops of `Sqrt32` and `Sqrt64`, in registers of `width` bits. -/
def rootLoop (width : Nat) : Nat → Nat → Digits → Digits
  | 0, _, digits => digits
  | iterations + 1, bit, digits =>
      rootLoop width iterations (bit >>> 2)
        (if (digits.res + bit) % 2 ^ width ≤ digits.num then
          ⟨digits.num - (digits.res + bit) % 2 ^ width,
            ((digits.res >>> 1) + bit) % 2 ^ width⟩
        else ⟨digits.num, digits.res >>> 1⟩)

/-- What `Sqrt32` and `Sqrt64` share; `cap` is the root that is not rounded up any more. -/
def rootOf (width cap num : Nat) : Nat :=
  let maxBitNumber := (width - mostSignificantBit width num) ||| 1
  let bit := 1 <<< (width - 1 - maxBitNumber)
  let digits := rootLoop width ((width - 1 - maxBitNumber) / 2 + 1) bit ⟨num, 0⟩
  if digits.res < digits.num ∧ digits.res ≠ cap then digits.res + 1 else digits.res

/-- `Sqrt32`. -/
def sqrt32 (num : Nat) : Nat := if num = 0 then 0 else rootOf 32 0xFFFF num % 2 ^ 16

/-- `Sqrt64`. -/
def sqrt64 (num : Nat) : Nat :=
  if num >>> 32 = 0 then sqrt32 (num % 2 ^ 32) else rootOf 64 0xFFFFFFFF num % 2 ^ 32

/-- The registers of the loop hold what they would hold if they were unbounded. -/
theorem rootLoop_eq_run {width radicand count place root : Nat} {digits : Digits}
    (cut : CutRoot radicand place root digits) (small : radicand < 4 ^ count)
    (wide : 4 ^ count ≤ 2 ^ width) (within : place ≤ count) :
    rootLoop width place (4 ^ place >>> 2) digits = digits.run place := by
  induction place generalizing root digits with
  | zero => rfl
  | succ place inductionHypothesis =>
      have bit : 4 ^ (place + 1) >>> 2 = 4 ^ place := by
        rw [Nat.shiftRight_eq_div_pow, Nat.pow_succ]
        exact Nat.mul_div_cancel _ (by decide)
      have trial : digits.res + 4 ^ place < 2 ^ width :=
        Nat.lt_of_lt_of_le (cut.trial_lt small within) wide
      obtain ⟨next, one⟩ := cut.step
      have unbounded : (if (digits.res + 4 ^ place) % 2 ^ width ≤ digits.num then
          ⟨digits.num - (digits.res + 4 ^ place) % 2 ^ width,
            ((digits.res >>> 1) + 4 ^ place) % 2 ^ width⟩
        else ⟨digits.num, digits.res >>> 1⟩) = digits.step (4 ^ place) := by
        have half : digits.res >>> 1 = digits.res / 2 := rfl
        rw [Nat.mod_eq_of_lt trial, half, Nat.mod_eq_of_lt (by omega), Digits.step]
      rw [rootLoop, bit, unbounded, Digits.run]
      exact inductionHypothesis one (Nat.le_of_succ_le within)

/-- The first bit is the highest power of four within the radicand's width. -/
theorem rootOf_first {width num : Nat} (even : width % 2 = 0) (narrow : width ≤ 64)
    (fits : num < 2 ^ width) (nonzero : num ≠ 0) :
    ∃ count, (width - 1 - ((width - mostSignificantBit width num) ||| 1)) / 2 + 1 = count ∧
      1 <<< (width - 1 - ((width - mostSignificantBit width num) ||| 1)) = 4 ^ count >>> 2 ∧
      num < 4 ^ count ∧ 4 ^ count ≤ 2 ^ width := by
  have odd : ∀ zeros ≤ 64, zeros ||| 1 = 2 * (zeros / 2) + 1 := by decide
  have positive : 0 < mostSignificantBit width num := by
    rw [mostSignificantBit_eq fits nonzero]
    exact Nat.succ_pos _
  have atMost : mostSignificantBit width num ≤ width := mostSignificantBit_le
  have below := lt_two_pow_mostSignificantBit fits
  have quadrupled (count : Nat) : (4 : Nat) ^ count = 2 ^ (2 * count) := by
    rw [Nat.pow_mul]
  rw [odd _ (by omega)]
  refine ⟨_, rfl, ?_, ?_, ?_⟩
  · rw [quadrupled, Nat.shiftRight_eq_div_pow, Nat.one_shiftLeft,
      Nat.pow_div (by omega) (by decide)]
    congr 1
    omega
  · rw [quadrupled]
    exact Nat.lt_of_lt_of_le below (Nat.pow_le_pow_right (by decide) (by omega))
  · rw [quadrupled]
    exact Nat.pow_le_pow_right (by decide) (by omega)

/-- The nearest number to the root, but for the cap. -/
theorem rootOf_eq {width num : Nat} (even : width % 2 = 0) (narrow : width ≤ 64)
    (fits : num < 2 ^ width) (nonzero : num ≠ 0) (cap : Nat) :
    rootOf width cap num
      = if Nat.sqrt num = cap then Nat.sqrt num else nearestRoot num := by
  obtain ⟨count, iterations, bit, small, wide⟩ := rootOf_first even narrow fits nonzero
  rw [rootOf, iterations, bit, rootLoop_eq_run (CutRoot.start small) small wide (Nat.le_refl _),
    Digits.run_eq_sqrt small, nearestRoot]
  dsimp only
  split_ifs <;> omega

/-- Under a bound that is a square, the root register is at the cap only for the radicands
behind `cap * cap`, and only some of these round up. -/
theorem capped_eq {num cap : Nat} (small : num < (cap + 1) * (cap + 1)) :
    (if Nat.sqrt num = cap then Nat.sqrt num else nearestRoot num)
      = nearestRoot num - if cap * (cap + 1) < num then 1 else 0 := by
  have low := Nat.sqrt_le num
  have atMost : Nat.sqrt num ≤ cap := Nat.lt_succ_iff.mp (Nat.sqrt_lt.mpr small)
  by_cases full : Nat.sqrt num = cap
  · rw [if_pos full, nearestRoot, full]
    rw [full] at low
    have product : cap * (cap + 1) = cap * cap + cap := Nat.mul_succ cap cap
    split_ifs <;> omega
  · have short : ¬ cap * (cap + 1) < num := by
      intro beyond
      refine full (Nat.le_antisymm atMost (Nat.le_sqrt.mpr ?_))
      exact Nat.le_trans (Nat.mul_le_mul_left cap (Nat.le_succ cap)) beyond.le
    rw [if_neg full, if_neg short, Nat.sub_zero]

/-- The capped root fits its register. -/
theorem capped_lt {num cap bound : Nat} (last : cap + 1 = bound) (narrow : Nat.sqrt num < bound) :
    (if Nat.sqrt num = cap then Nat.sqrt num else nearestRoot num) < bound := by
  rw [nearestRoot]
  split_ifs <;> omega

/-- The radicands whose root is rounded down although it is nearer to the next number. -/
def RoundedShort (num : Nat) : Prop :=
  (0xFFFF * 2 ^ 16 < num ∧ num < 2 ^ 32) ∨ 0xFFFFFFFF * 2 ^ 32 < num

instance (num : Nat) : Decidable (RoundedShort num) := inferInstanceAs (Decidable (_ ∨ _))

theorem sqrt32_eq {num : Nat} (fits : num < 2 ^ 32) :
    sqrt32 num = nearestRoot num - if 0xFFFF * 2 ^ 16 < num then 1 else 0 := by
  by_cases zero : num = 0
  · subst zero
    decide
  · have narrow : Nat.sqrt num < 2 ^ 16 := Nat.sqrt_lt.mpr (by norm_num; exact fits)
    have capped := @capped_eq num 0xFFFF (by norm_num; exact fits)
    rw [sqrt32, if_neg zero, rootOf_eq (by decide) (by decide) fits zero,
      Nat.mod_eq_of_lt (@capped_lt num 0xFFFF (2 ^ 16) rfl narrow)]
    exact capped

theorem sqrt64_eq {num : Nat} (fits : num < 2 ^ 64) :
    sqrt64 num = nearestRoot num - if RoundedShort num then 1 else 0 := by
  by_cases low : num < 2 ^ 32
  · have shortcut : num >>> 32 = 0 := by
      rw [Nat.shiftRight_eq_div_pow]
      exact Nat.div_eq_of_lt low
    have short : RoundedShort num ↔ 0xFFFF * 2 ^ 16 < num := by
      unfold RoundedShort
      omega
    rw [sqrt64, if_pos shortcut, Nat.mod_eq_of_lt low, sqrt32_eq low]
    simp only [short]
  · have long : num >>> 32 ≠ 0 := by
      rw [Nat.shiftRight_eq_div_pow]
      exact Nat.div_ne_zero_iff.mpr ⟨by decide, Nat.le_of_not_lt low⟩
    have short : RoundedShort num ↔ 0xFFFFFFFF * (0xFFFFFFFF + 1) < num := by
      unfold RoundedShort
      omega
    have narrow : Nat.sqrt num < 2 ^ 32 := Nat.sqrt_lt.mpr (by norm_num; exact fits)
    rw [sqrt64, if_neg long, rootOf_eq (by decide) (by decide) fits (by omega),
      Nat.mod_eq_of_lt (@capped_lt num 0xFFFFFFFF (2 ^ 32) rfl narrow)]
    simp only [short]
    exact @capped_eq num 0xFFFFFFFF (by norm_num; exact fits)

/-- What `Sqrt64` returns is nearer to the root than half a unit, except where it is the number
below the one that is. -/
theorem sqrt64_rounds {num : Nat} (fits : num < 2 ^ 64) :
    (RoundedShort num → |√(num : ℝ) - (sqrt64 num + 1)| < 1 / 2) ∧
      (¬ RoundedShort num → |√(num : ℝ) - sqrt64 num| < 1 / 2) := by
  have nearest := abs_sqrt_sub_nearestRoot_lt num
  rw [sqrt64_eq fits]
  constructor
  · intro short
    have positive : 0 < nearestRoot num := by
      have reached : 0 < Nat.sqrt num := Nat.sqrt_pos.mpr (by unfold RoundedShort at short; omega)
      rw [nearestRoot]
      split_ifs <;> omega
    rw [if_pos short, Nat.cast_sub positive, Nat.cast_one, sub_add_cancel]
    exact nearest
  · intro rounded
    rw [if_neg rounded, Nat.sub_zero]
    exact nearest

theorem sqrt64_rounds_at_shortcut_end :
    RoundedShort (2 ^ 32 - 1) ∧ |√((2 ^ 32 - 1 : Nat) : ℝ) - (sqrt64 (2 ^ 32 - 1) + 1)| < 1 / 2 :=
  have short : RoundedShort (2 ^ 32 - 1) := by decide
  ⟨short, (sqrt64_rounds (by decide)).1 short⟩

end WallUnit.Firmware.Microfrontend
