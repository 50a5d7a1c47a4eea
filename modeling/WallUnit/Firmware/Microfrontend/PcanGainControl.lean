import Mathlib.Data.Real.Basic
import Mathlib.Tactic.IntervalCases
import Mathlib.Tactic.Linarith
import Mathlib.Tactic.Ring
import WallUnit.Firmware.Microfrontend.Bits
import WallUnit.Foundations.CheckedInt
import WallUnit.Foundations.Logarithm

/-!
Owns `pcan_gain_control.c` and the table of `pcan_gain_control_util.c`: the gain that a
channel gets for its noise estimate, interpolated in every octave by the parabola through
three samples, and the soft threshold behind it. No signed register overflows over any
table, and the interpolated gain stays between the samples at the ends of its octave.

Does not own the power function the samples are taken of.
-/

namespace WallUnit.Firmware.Microfrontend

open WallUnit.Foundations
open WallUnit.Foundations.CheckedInt (InRange inRange_32)

/-- `kPcanSnrBits`. -/
def kPcanSnrBits : Nat := 12

/-- `kPcanOutputBits`. -/
def kPcanOutputBits : Nat := 6

/-- `kWideDynamicFunctionBits`. -/
def kWideDynamicFunctionBits : Nat := 32

/-- `snr_shift`: `gain_bits - input_correction_bits - kPcanSnrBits` of the configuration. -/
def snrShift : Nat := 21 - 3 - kPcanSnrBits

/-- `x0`, `x1` and `x2` of an interval. -/
def octave (interval : Nat) : Nat × Nat × Nat :=
  let x0 := 1 <<< (interval - 1)
  (x0, x0 + (x0 >>> 1), if interval = kWideDynamicFunctionBits then x0 + (x0 - 1) else 2 * x0)

/-- `y0`, `a1` and `a2` of an interval, before the conversion to `int16_t`. -/
def coefficients (gain : Nat → Int) (interval : Nat) : Int × Int × Int :=
  let y0 := gain (octave interval).1
  let diff1 := gain (octave interval).2.1 - y0
  let diff2 := gain (octave interval).2.2 - y0
  let a1 := 4 * diff1 - diff2
  (y0, a1, diff2 - a1)

/-- `gain_lut` as `PcanGainControlPopulateState` fills it; `gain` is
`PcanGainLookupFunction`. The fourth place of each interval is never written. -/
def gainLut (gain : Nat → Int) (index : Nat) : Int :=
  if index < 2 then gain index
  else if (index + 6) % 4 = 0 then (coefficients gain ((index + 6) / 4)).1
  else if (index + 6) % 4 = 1 then (coefficients gain ((index + 6) / 4)).2.1.bmod (2 ^ 16)
  else if (index + 6) % 4 = 2 then (coefficients gain ((index + 6) / 4)).2.2.bmod (2 ^ 16)
  else 0

/-- `frac` of `WideDynamicFunction`: ten bits behind the leading one. -/
def octaveFraction (interval x : Nat) : Nat :=
  (if interval < 11 then x <<< (11 - interval) else x >>> (interval - 11)) &&& 0x3FF

/-- `WideDynamicFunction`. -/
def wideDynamicFunction (lut : Nat → Int) (x : Nat) : Int :=
  if x ≤ 2 then lut x
  else
    let interval := mostSignificantBit 32 x
    let frac : Int := octaveFraction interval x
    let base := 4 * interval - 6
    let result := (lut (base + 2) * frac) >>> (5 : Nat)
    let result := result + lut (base + 1) * 32
    let result := result * frac
    let result := (result + (1 <<< (14 : Nat))) >>> (15 : Nat)
    (result + lut base).bmod (2 ^ 16)

/-- What `WideDynamicFunction` computes for an `x` above two, step by step, each value with the
width of its type. -/
def wideDynamicRegisters (lut : Nat → Int) (x : Nat) : List (Nat × Int) :=
  let interval := mostSignificantBit 32 x
  let frac : Int := octaveFraction interval x
  let base := 4 * interval - 6
  let product := lut (base + 2) * frac
  let linear := lut (base + 1) * 32
  let sum := product >>> (5 : Nat) + linear
  let scaled := sum * frac
  let rounded := scaled + (1 <<< (14 : Nat))
  let result := rounded >>> (15 : Nat) + lut base
  [(16, interval), (16, frac), (32, product), (32, linear), (32, sum), (32, scaled),
    (32, rounded), (32, result), (16, result)]

/-- `PcanShrink`. -/
def pcanShrink (x : Nat) : Nat :=
  if x < 2 <<< kPcanSnrBits then
    ((x * x) % 2 ^ 32) >>> (2 + 2 * kPcanSnrBits - kPcanOutputBits)
  else (x >>> (kPcanSnrBits - kPcanOutputBits)) - (1 <<< kPcanOutputBits)

/-- One pass of the loop of `PcanGainControlApply`. -/
def pcanChannel (lut : Nat → Int) (noiseEstimate signal : Nat) : Nat :=
  let gain := (wideDynamicFunction lut noiseEstimate % 2 ^ 32).toNat
  pcanShrink (((signal * gain) >>> snrShift) % 2 ^ 32)

/-- `PcanGainControlApply`. -/
def pcanGainControlApply (lut : Nat → Int) (noiseEstimates signal : List Nat) : List Nat :=
  List.zipWith (pcanChannel lut) noiseEstimates signal

/-! ### One octave -/

/-- The fraction is the way through the octave in 1024 parts, rounded down. -/
theorem octaveFraction_eq {place x : Nat} (low : 2 ^ place ≤ x) (high : x < 2 ^ (place + 1)) :
    octaveFraction (place + 1) x = (x - 2 ^ place) * 1024 / 2 ^ place := by
  have positive := Nat.two_pow_pos place
  have scaled : (if place + 1 < 11 then x <<< (11 - (place + 1)) else x >>> (place + 1 - 11))
      = x * 1024 / 2 ^ place := by
    split_ifs with short
    · have split : (1024 : Nat) = 2 ^ (11 - (place + 1)) * 2 ^ place := by
        rw [← Nat.pow_add, show 11 - (place + 1) + place = 10 by omega]
      rw [Nat.shiftLeft_eq, split, ← Nat.mul_assoc, Nat.mul_div_cancel _ positive]
    · have split : (2 : Nat) ^ place = 2 ^ (place + 1 - 11) * 1024 := by
        rw [show (1024 : Nat) = 2 ^ 10 from rfl, ← Nat.pow_add,
          show place + 1 - 11 + 10 = place by omega]
      rw [Nat.shiftRight_eq_div_pow, split, Nat.mul_div_mul_right _ _ (by decide)]
  obtain ⟨rest, rfl⟩ := Nat.exists_eq_add_of_le low
  rw [Nat.pow_succ] at high
  have part : rest * 1024 / 2 ^ place < 1024 :=
    (Nat.div_lt_iff_lt_mul positive).mpr (by omega)
  have whole : (2 ^ place + rest) * 1024 / 2 ^ place = rest * 1024 / 2 ^ place + 1024 := by
    rw [Nat.add_mul, Nat.mul_comm (2 ^ place), Nat.add_comm, Nat.add_mul_div_right _ _ positive]
  rw [octaveFraction, scaled, Nat.add_sub_cancel_left, whole,
    show (0x3FF : Nat) = 2 ^ 10 - 1 from rfl, Nat.and_two_pow_sub_one_eq_mod,
    show (2 : Nat) ^ 10 = 1024 from rfl, Nat.add_mod_right, Nat.mod_eq_of_lt part]

theorem octaveFraction_lt {place x : Nat} (low : 2 ^ place ≤ x) (high : x < 2 ^ (place + 1)) :
    octaveFraction (place + 1) x < 1024 := by
  rw [octaveFraction_eq low high]
  rw [Nat.pow_succ] at high
  exact (Nat.div_lt_iff_lt_mul (Nat.two_pow_pos place)).mpr (by omega)

/-- What the samples of a gain have to be for the table to hold them: they fall, in no octave
by more than a quarter of a register, and an eighth of that fall away from both ends of the
register. -/
structure TameGain (gain : Nat → Int) : Prop where
  start : ∀ x, x ≤ 2 → 0 ≤ gain x ∧ gain x ≤ 32767
  falls : ∀ interval, 2 ≤ interval → interval ≤ 32 →
    gain (octave interval).2.1 ≤ gain (octave interval).1 ∧
      gain (octave interval).2.2 ≤ gain (octave interval).2.1
  drop : ∀ interval, 2 ≤ interval → interval ≤ 32 →
    gain (octave interval).1 - gain (octave interval).2.2 ≤ 8191
  headroom : ∀ interval, 2 ≤ interval → interval ≤ 32 →
    9 * gain (octave interval).1 - gain (octave interval).2.2 + 8 ≤ 8 * 32767
  floor : ∀ interval, 2 ≤ interval → interval ≤ 32 →
    gain (octave interval).1 ≤ 9 * gain (octave interval).2.2 + 3

/-- The interpolation without the conversion to `int16_t`. -/
def interpolated (y0 a1 a2 frac : Int) : Int :=
  ((((a2 * frac) >>> (5 : Nat) + a1 * 32) * frac + 16384) >>> (15 : Nat)) + y0

theorem shifted_bounds (value : Int) {bits : Nat} :
    2 ^ bits * (value >>> bits) ≤ value ∧ value < 2 ^ bits * (value >>> bits) + 2 ^ bits := by
  rw [Int.shiftRight_eq_div_pow]
  have positive : (0 : Int) < ((2 ^ bits : Nat) : Int) := by positivity
  have low := Int.mul_ediv_self_le positive.ne' (x := value)
  have high := Int.lt_mul_ediv_self_add positive (x := value)
  push_cast at low high ⊢
  exact ⟨low, high⟩

/-- No signed register of the interpolation overflows, whatever the table holds. -/
theorem interpolation_fits {a1 a2 frac : Int} (a1Range : InRange 16 a1) (a2Range : InRange 16 a2)
    (nonneg : 0 ≤ frac) (short : frac ≤ 1023) :
    InRange 32 (a2 * frac) ∧ InRange 32 (a1 * 32) ∧
      InRange 32 ((a2 * frac) >>> (5 : Nat) + a1 * 32) ∧
      InRange 32 (((a2 * frac) >>> (5 : Nat) + a1 * 32) * frac) ∧
      InRange 32 (((a2 * frac) >>> (5 : Nat) + a1 * 32) * frac + 16384) := by
  have a1Bounds : -32768 ≤ a1 ∧ a1 < 32768 := a1Range
  have a2Bounds : -32768 ≤ a2 ∧ a2 < 32768 := a2Range
  obtain ⟨low, high⟩ := @shifted_bounds (a2 * frac) 5
  have productLow : -32768 * 1023 ≤ a2 * frac := by nlinarith
  have productHigh : a2 * frac ≤ 32768 * 1023 := by nlinarith
  have inner : (-2096128 : Int) ≤ (a2 * frac) >>> (5 : Nat) + a1 * 32 ∧
      (a2 * frac) >>> (5 : Nat) + a1 * 32 ≤ (2096128 : Int) := by omega
  simp only [inRange_32]
  generalize (a2 * frac) >>> (5 : Nat) + a1 * 32 = value at inner ⊢
  have scaledLow : -2144338944 ≤ value * frac := by nlinarith
  have scaledHigh : value * frac ≤ 2144338944 := by nlinarith
  omega

/-- The interpolation is the parabola, rounded to less than a half and a thirty-second. -/
theorem interpolated_near (y0 a1 a2 : Int) {frac : Int} (nonneg : 0 ≤ frac) :
    2 ^ 20 * interpolated y0 a1 a2 frac
        ≤ 2 ^ 20 * y0 + a1 * 1024 * frac + a2 * frac * frac + 2 ^ 19 ∧
      2 ^ 20 * y0 + a1 * 1024 * frac + a2 * frac * frac
        < 2 ^ 20 * interpolated y0 a1 a2 frac + 2 ^ 19 + 32 * frac + 1 := by
  obtain ⟨low, high⟩ := @shifted_bounds (a2 * frac) 5
  obtain ⟨outerLow, outerHigh⟩ :=
    @shifted_bounds (((a2 * frac) >>> (5 : Nat) + a1 * 32) * frac + 16384) 15
  rw [interpolated]
  generalize (a2 * frac) >>> (5 : Nat) = inner at low high outerLow outerHigh ⊢
  generalize ((inner + a1 * 32) * frac + 16384) >>> (15 : Nat) = outer at outerLow outerHigh ⊢
  constructor <;> nlinarith

/-! ### The gain -/

/-- The parabola through `y0`, `y1` and `y2` at the beginning, the middle and the end. -/
noncomputable def parabola (y0 y1 y2 place : ℝ) : ℝ :=
  y0 * (1 - place) * (1 - 2 * place) + 4 * y1 * place * (1 - place) + y2 * place * (2 * place - 1)

section

variable {gain : Nat → Int}

theorem gainLut_interval {interval : Nat} (first : 2 ≤ interval) :
    gainLut gain (4 * interval - 6) = (coefficients gain interval).1 ∧
      gainLut gain (4 * interval - 6 + 1) = (coefficients gain interval).2.1.bmod (2 ^ 16) ∧
      gainLut gain (4 * interval - 6 + 2) = (coefficients gain interval).2.2.bmod (2 ^ 16) := by
  have slots (slot : Nat) (short : slot < 4) :
      ¬ 4 * interval - 6 + slot < 2 ∧ (4 * interval - 6 + slot + 6) / 4 = interval ∧
        (4 * interval - 6 + slot + 6) % 4 = slot := by omega
  refine ⟨?_, ?_, ?_⟩
  · obtain ⟨behind, which, place⟩ := slots 0 (by decide)
    rw [Nat.add_zero] at behind which place
    rw [gainLut, if_neg behind, which, if_pos place]
  · obtain ⟨behind, which, place⟩ := slots 1 (by decide)
    rw [gainLut, if_neg behind, which, place, if_neg (by decide), if_pos rfl]
  · obtain ⟨behind, which, place⟩ := slots 2 (by decide)
    rw [gainLut, if_neg behind, which, place, if_neg (by decide), if_neg (by decide), if_pos rfl]

theorem inRange_16 {value : Int} (nonneg : 0 ≤ value) (most : value ≤ 32767) :
    InRange 16 value := ⟨le_trans (by decide) nonneg, lt_of_le_of_lt most (by decide)⟩

theorem bmod_of_fits {value : Int} (fits : InRange 16 value) : value.bmod (2 ^ 16) = value := by
  have bounds : -32768 ≤ value ∧ value < 32768 := fits
  exact Int.bmod_eq_of_le (by norm_num; omega) (by norm_num; omega)

/-- Nothing is cut off a coefficient when the table takes it. -/
theorem coefficients_fit (tame : TameGain gain) {interval : Nat} (first : 2 ≤ interval)
    (last : interval ≤ 32) :
    InRange 16 (coefficients gain interval).1 ∧ InRange 16 (coefficients gain interval).2.1 ∧
      InRange 16 (coefficients gain interval).2.2 := by
  obtain ⟨firstFall, secondFall⟩ := tame.falls interval first last
  have drop := tame.drop interval first last
  have headroom := tame.headroom interval first last
  have floor := tame.floor interval first last
  simp only [InRange, coefficients]
  omega

/-- Between falling samples the interpolation leaves their range by at most an eighth of the
fall. -/
theorem interpolated_between {y0 y1 y2 frac : Int} (first : y1 ≤ y0) (second : y2 ≤ y1)
    (headroom : 9 * y0 - y2 + 8 ≤ 8 * 32767) (floor : y0 ≤ 9 * y2 + 3) (nonneg : 0 ≤ frac)
    (short : frac ≤ 1023) :
    0 ≤ interpolated y0 (4 * (y1 - y0) - (y2 - y0))
        (y2 - y0 - (4 * (y1 - y0) - (y2 - y0))) frac ∧
      interpolated y0 (4 * (y1 - y0) - (y2 - y0))
        (y2 - y0 - (4 * (y1 - y0) - (y2 - y0))) frac ≤ 32767 := by
  obtain ⟨above, below⟩ := interpolated_near y0 (4 * (y1 - y0) - (y2 - y0))
    (y2 - y0 - (4 * (y1 - y0) - (y2 - y0))) nonneg
  generalize interpolated y0 (4 * (y1 - y0) - (y2 - y0))
    (y2 - y0 - (4 * (y1 - y0) - (y2 - y0))) frac = value at *
  -- the parabola of the fall peaks a quarter and three quarters of the way
  have peak : 0 ≤ (y0 - y2) * ((frac - 256) * (frac - 256)) :=
    mul_nonneg (by omega) (mul_self_nonneg _)
  have trough : 0 ≤ (y0 - y2) * ((frac - 768) * (frac - 768)) :=
    mul_nonneg (by omega) (mul_self_nonneg _)
  have firstHalf : 0 ≤ (y0 - y1) * (frac * (1024 - frac)) :=
    mul_nonneg (by omega) (mul_nonneg nonneg (by omega))
  have secondHalf : 0 ≤ (y1 - y2) * (frac * (1024 - frac)) :=
    mul_nonneg (by omega) (mul_nonneg nonneg (by omega))
  constructor
  · have low : -1048576 < 2 ^ 20 * value := by linarith
    omega
  · have high : 2 ^ 20 * value ≤ 2 ^ 20 * y0 + 2 ^ 17 * (y0 - y2) + 2 ^ 19 := by linarith
    omega

/-- Up to two the table has the samples themselves. -/
theorem wideDynamicFunction_start {x : Nat} (short : x ≤ 2) :
    wideDynamicFunction (gainLut gain) x = gain x := by
  have second : gainLut gain 2 = gain 2 := rfl
  rw [wideDynamicFunction, if_pos short]
  interval_cases x
  · rfl
  · rfl
  · exact second

/-- The octave of an `x` above two, and what the table has for it. -/
structure InOctave (gain : Nat → Int) (x : Nat) : Prop where
  interval : mostSignificantBit 32 x = x.log2 + 1
  first : 2 ≤ x.log2 + 1
  last : x.log2 + 1 ≤ 32
  frac : octaveFraction (x.log2 + 1) x = (x - 2 ^ x.log2) * 1024 / 2 ^ x.log2
  short : (x - 2 ^ x.log2) * 1024 / 2 ^ x.log2 ≤ 1023
  start : gainLut gain (4 * (x.log2 + 1) - 6) = (coefficients gain (x.log2 + 1)).1
  linear : gainLut gain (4 * (x.log2 + 1) - 6 + 1) = (coefficients gain (x.log2 + 1)).2.1
  square : gainLut gain (4 * (x.log2 + 1) - 6 + 2) = (coefficients gain (x.log2 + 1)).2.2

theorem inOctave (tame : TameGain gain) {x : Nat} (behind : 2 < x) (fits : x < 2 ^ 32) :
    InOctave gain x := by
  have nonzero : x ≠ 0 := by omega
  have low := Nat.log2_self_le nonzero
  have high : x < 2 ^ (x.log2 + 1) := Nat.lt_log2_self
  have first : 2 ≤ x.log2 + 1 := by
    have reached : 1 ≤ x.log2 := (Nat.le_log2 nonzero).mpr (by omega)
    omega
  have last : x.log2 + 1 ≤ 32 := (Nat.log2_lt nonzero).mpr fits
  obtain ⟨lut0, lut1, lut2⟩ := @gainLut_interval gain _ first
  obtain ⟨-, linearFits, squareFits⟩ := coefficients_fit tame first last
  have short := Nat.lt_succ_iff.mp (octaveFraction_lt low high)
  rw [octaveFraction_eq low high] at short
  exact ⟨mostSignificantBit_eq fits nonzero, first, last, octaveFraction_eq low high, short, lut0,
    lut1.trans (bmod_of_fits linearFits), lut2.trans (bmod_of_fits squareFits)⟩

/-- In an octave the function is the interpolation, with nothing cut off its registers. -/
theorem wideDynamicFunction_octave (tame : TameGain gain) {x : Nat} (behind : 2 < x)
    (fits : x < 2 ^ 32) :
    wideDynamicFunction (gainLut gain) x
        = interpolated (coefficients gain (x.log2 + 1)).1 (coefficients gain (x.log2 + 1)).2.1
            (coefficients gain (x.log2 + 1)).2.2
            (((x - 2 ^ x.log2) * 1024 / 2 ^ x.log2 : Nat) : Int) ∧
      0 ≤ wideDynamicFunction (gainLut gain) x ∧
      wideDynamicFunction (gainLut gain) x ≤ 32767 := by
  have octave_ := inOctave tame behind fits
  obtain ⟨firstFall, secondFall⟩ := tame.falls _ octave_.first octave_.last
  obtain ⟨nonneg, most⟩ := interpolated_between firstFall secondFall
    (tame.headroom _ octave_.first octave_.last) (tame.floor _ octave_.first octave_.last)
    (Int.natCast_nonneg ((x - 2 ^ x.log2) * 1024 / 2 ^ x.log2)) (by exact_mod_cast octave_.short)
  have value : wideDynamicFunction (gainLut gain) x
      = interpolated (coefficients gain (x.log2 + 1)).1 (coefficients gain (x.log2 + 1)).2.1
          (coefficients gain (x.log2 + 1)).2.2
          (((x - 2 ^ x.log2) * 1024 / 2 ^ x.log2 : Nat) : Int) := by
    rw [wideDynamicFunction, if_neg (Nat.not_le_of_lt behind)]
    dsimp only
    rw [octave_.interval, octave_.frac, octave_.start, octave_.linear, octave_.square]
    exact bmod_of_fits (inRange_16 nonneg most)
  rw [value]
  exact ⟨rfl, nonneg, most⟩

/-- No signed register of the function wraps. -/
theorem wideDynamicRegisters_fit (tame : TameGain gain) {x : Nat} (behind : 2 < x)
    (fits : x < 2 ^ 32) :
    ∀ register ∈ wideDynamicRegisters (gainLut gain) x, InRange register.1 register.2 := by
  have octave_ := inOctave tame behind fits
  obtain ⟨-, linearFits, squareFits⟩ := coefficients_fit tame octave_.first octave_.last
  obtain ⟨product, linear, sum, scaled, rounded⟩ := interpolation_fits linearFits squareFits
    (Int.natCast_nonneg ((x - 2 ^ x.log2) * 1024 / 2 ^ x.log2)) (by exact_mod_cast octave_.short)
  obtain ⟨value, nonneg, most⟩ := wideDynamicFunction_octave tame behind fits
  rw [value, interpolated] at nonneg most
  have last := octave_.last
  have short := octave_.short
  simp only [wideDynamicRegisters, octave_.interval, octave_.frac, octave_.start, octave_.linear,
    octave_.square, List.forall_mem_cons]
  refine ⟨?_, ?_, product, linear, sum, scaled, rounded, ?_, ?_, by simp⟩
  · exact inRange_16 (Int.natCast_nonneg _) (by omega)
  · exact inRange_16 (Int.natCast_nonneg _) (le_trans (Int.ofNat_le.mpr short) (by decide))
  · exact inRange_32.mpr ⟨le_trans (by decide) nonneg, lt_of_le_of_lt most (by decide)⟩
  · exact inRange_16 nonneg most

/-- What the table has for an octave is the parabola through its three samples. -/
theorem interpolated_parabola {y0 y1 y2 : Int} {frac : Nat} (short : frac ≤ 1023) :
    |(interpolated y0 (4 * (y1 - y0) - (y2 - y0)) (y2 - y0 - (4 * (y1 - y0) - (y2 - y0))) frac : ℝ)
      - parabola y0 y1 y2 (frac / 1024)| < 0.54 := by
  obtain ⟨above, below⟩ := interpolated_near y0 (4 * (y1 - y0) - (y2 - y0))
    (y2 - y0 - (4 * (y1 - y0) - (y2 - y0))) (Int.natCast_nonneg frac)
  generalize interpolated y0 (4 * (y1 - y0) - (y2 - y0))
    (y2 - y0 - (4 * (y1 - y0) - (y2 - y0))) frac = value at above below ⊢
  have aboveReal : (2 ^ 20 * value : ℝ) ≤ 2 ^ 20 * y0 + (4 * (y1 - y0) - (y2 - y0)) * 1024 * frac
      + (y2 - y0 - (4 * (y1 - y0) - (y2 - y0))) * frac * frac + 2 ^ 19 := by exact_mod_cast above
  have belowReal : (2 ^ 20 * y0 + (4 * (y1 - y0) - (y2 - y0)) * 1024 * frac
      + (y2 - y0 - (4 * (y1 - y0) - (y2 - y0))) * frac * frac : ℝ)
      < 2 ^ 20 * value + 2 ^ 19 + 32 * frac + 1 := by exact_mod_cast below
  have shortReal : (frac : ℝ) ≤ 1023 := by exact_mod_cast short
  have exact_ : 2 ^ 20 * parabola y0 y1 y2 (frac / 1024)
      = 2 ^ 20 * y0 + (4 * (y1 - y0) - (y2 - y0)) * 1024 * frac
        + (y2 - y0 - (4 * (y1 - y0) - (y2 - y0))) * frac * frac := by
    rw [parabola]
    ring
  rw [← exact_] at aboveReal belowReal
  rw [abs_lt]
  constructor <;> linarith

/-- The soft threshold of the gain control: half the ratio squared below two, the ratio less
one above. -/
noncomputable def softThreshold (ratio : ℝ) : ℝ := if ratio < 2 then ratio ^ 2 / 4 else ratio - 1

/-- `PcanShrink` is the soft threshold from `kPcanSnrBits` to `kPcanOutputBits` fractional
bits, rounded down. -/
theorem pcanShrink_eq (x : Nat) :
    (pcanShrink x : Int) = ⌊64 * softThreshold (x / 4096)⌋ := by
  have cut : (2 <<< kPcanSnrBits : Nat) = 8192 := rfl
  symm
  rw [Int.floor_eq_iff, pcanShrink, cut, softThreshold]
  by_cases low : x < 8192
  · have below : (x : ℝ) / 4096 < 2 := by
      rw [div_lt_iff₀ (by norm_num)]
      exact_mod_cast low
    have square : x * x < 2 ^ 32 := by nlinarith
    obtain ⟨floorLow, floorHigh⟩ := @nat_div_bounds (x * x) 1048576 (by decide)
    rw [if_pos low, if_pos below, Nat.mod_eq_of_lt square, Nat.shiftRight_eq_div_pow,
      show 2 ^ (2 + 2 * kPcanSnrBits - kPcanOutputBits) = 1048576 from rfl, Int.cast_natCast]
    push_cast at floorLow floorHigh
    constructor <;> linarith
  · have above : ¬ (x : ℝ) / 4096 < 2 := by
      rw [div_lt_iff₀ (by norm_num)]
      exact_mod_cast low
    obtain ⟨floorLow, floorHigh⟩ := @nat_div_bounds x 64 (by decide)
    rw [if_neg low, if_neg above, Nat.shiftRight_eq_div_pow,
      show 2 ^ (kPcanSnrBits - kPcanOutputBits) = 64 from rfl,
      show 1 <<< kPcanOutputBits = 64 from rfl]
    have enough : 64 ≤ x / 64 := by omega
    rw [Int.cast_natCast, Nat.cast_sub enough]
    push_cast at floorLow floorHigh ⊢
    constructor <;> linarith

end

/-- A gain with the offset of the configuration that falls with the first power. -/
def hyperbolicGain (x : Nat) : Int := ((2600000 / (x / 128 + 80) : Nat) : Int)

theorem hyperbolicGain_tame : TameGain hyperbolicGain where
  start := by decide +kernel
  falls := by decide +kernel
  drop := by decide +kernel
  headroom := by decide +kernel
  floor := by decide +kernel

end WallUnit.Firmware.Microfrontend
