import Mathlib

/-!
Owns `bits.h`: the count of leading zeros and the position of the most significant bit,
which every fixed-point stage of the feature extraction scales by.

Does not own the stages, nor the table-driven count for compilers without a builtin.
-/

namespace WallUnit.Firmware.Microfrontend

/-- `CountLeadingZeros32` and `CountLeadingZeros64`. -/
def countLeadingZeros (width n : Nat) : Nat := if n = 0 then width else width - 1 - n.log2

/-- `MostSignificantBit32` and `MostSignificantBit64`. -/
def mostSignificantBit (width n : Nat) : Nat := width - countLeadingZeros width n

theorem mostSignificantBit_zero {width : Nat} : mostSignificantBit width 0 = 0 := by
  rw [mostSignificantBit, countLeadingZeros, if_pos rfl, Nat.sub_self]

theorem mostSignificantBit_eq {width n : Nat} (fits : n < 2 ^ width) (nonzero : n ≠ 0) :
    mostSignificantBit width n = n.log2 + 1 := by
  have short : n.log2 < width := (Nat.log2_lt nonzero).mpr fits
  rw [mostSignificantBit, countLeadingZeros, if_neg nonzero]
  omega

theorem lt_two_pow_mostSignificantBit {width n : Nat} (fits : n < 2 ^ width) :
    n < 2 ^ mostSignificantBit width n := by
  by_cases zero : n = 0
  · rw [zero, mostSignificantBit_zero]
    exact Nat.one_pos
  · rw [mostSignificantBit_eq fits zero]
    exact Nat.lt_log2_self

theorem mostSignificantBit_le {width n : Nat} : mostSignificantBit width n ≤ width :=
  Nat.sub_le _ _

end WallUnit.Firmware.Microfrontend
