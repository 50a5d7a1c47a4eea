import Mathlib.Analysis.Complex.ExponentialBounds
import WallUnit.Firmware.Microfrontend.Bits
import WallUnit.Foundations.Logarithm

/-!
Owns `log_scale.c` with the table of `log_lut.c`: the fixed-point logarithm that turns a
channel into a feature, and how far it is from 64 times the natural logarithm. The table
holds the logarithm at its nodes to one unit; between them the code shifts the linear
interpolation out nearly whole (`>> kLogScaleLog2` where a segment has `512` units), which
is most of the error that is left.

Does not own the quantisation to eight bits.
-/

namespace WallUnit.Firmware.Microfrontend

open WallUnit.Foundations

/-- `kLogLut`. -/
def kLogLut : List Nat :=
  [0, 224, 442, 654, 861, 1063, 1259, 1450, 1636, 1817, 1992, 2163, 2329, 2490, 2646, 2797,
    2944, 3087, 3224, 3358, 3487, 3611, 3732, 3848, 3960, 4068, 4172, 4272, 4368, 4460, 4549,
    4633, 4714, 4791, 4864, 4934, 5001, 5063, 5123, 5178, 5231, 5280, 5326, 5368, 5408, 5444,
    5477, 5507, 5533, 5557, 5578, 5595, 5610, 5622, 5631, 5637, 5640, 5641, 5638, 5633, 5626,
    5615, 5602, 5586, 5568, 5547, 5524, 5498, 5470, 5439, 5406, 5370, 5332, 5291, 5249, 5203,
    5156, 5106, 5054, 5000, 4944, 4885, 4825, 4762, 4697, 4630, 4561, 4490, 4416, 4341, 4264,
    4184, 4103, 4020, 3935, 3848, 3759, 3668, 3575, 3481, 3384, 3286, 3186, 3084, 2981, 2875,
    2768, 2659, 2549, 2437, 2323, 2207, 2090, 1971, 1851, 1729, 1605, 1480, 1353, 1224, 1094,
    963, 830, 695, 559, 421, 282, 142, 0, 0]

/-- `kLogScaleLog2`. -/
def kLogScaleLog2 : Nat := 16

/-- `kLogSegmentsLog2`. -/
def kLogSegmentsLog2 : Nat := 7

/-- `kLogScale`. -/
def kLogScale : Nat := 65536

/-- `kLogCoeff`. -/
def kLogCoeff : Nat := 45426

/-- `Log2FractionPart`. -/
def log2FractionPart (x log2x : Nat) : Int :=
  let whole := x - (1 <<< log2x)
  let frac :=
    if log2x < kLogScaleLog2 then whole <<< (kLogScaleLog2 - log2x)
    else whole >>> (log2x - kLogScaleLog2)
  let baseSeg := frac >>> (kLogScaleLog2 - kLogSegmentsLog2)
  let segUnit := (1 <<< kLogScaleLog2) >>> kLogSegmentsLog2
  let c0 : Int := kLogLut.getD baseSeg 0
  let c1 : Int := kLogLut.getD (baseSeg + 1) 0
  let segBase := segUnit * baseSeg
  let relPos := ((c1 - c0) * ((frac : Int) - segBase)) >>> kLogScaleLog2
  frac + c0 + relPos

/-- `Log`. -/
def log (x scaleShift : Nat) : Nat :=
  let integer := mostSignificantBit 32 x - 1
  let fraction := log2FractionPart x integer
  let log2 := (((integer <<< kLogScaleLog2 : Nat) : Int) + fraction).toNat % 2 ^ 32
  let round := kLogScale / 2
  let loge := ((kLogCoeff * log2 + round) >>> kLogScaleLog2) % 2 ^ 32
  (((loge <<< scaleShift) % 2 ^ 32 + round) % 2 ^ 32) >>> kLogScaleLog2

/-- `struct LogScaleState`. -/
structure LogScaleState where
  enableLog : Bool
  scaleShift : Nat
deriving DecidableEq, Repr

/-- The state of the firmware: `LOG_ENABLE` and `LOG_SCALE_SHIFT`. -/
def logScale : LogScaleState := ⟨true, 6⟩

/-- The body of the loop of `LogScaleApply`. -/
def logScaleValue (state : LogScaleState) (correctionBits : Int) (value : Nat) : Nat :=
  let value :=
    if state.enableLog then
      let value :=
        if correctionBits < 0 then value >>> (-correctionBits).toNat
        else (value <<< correctionBits.toNat) % 2 ^ 32
      if 1 < value then log value state.scaleShift else 0
    else value
  if value < 0xFFFF then value else 0xFFFF

/-- `LogScaleApply`. -/
def logScaleApply (state : LogScaleState) (signal : List Nat) (correctionBits : Int) : List Nat :=
  signal.map (logScaleValue state correctionBits)

example : [2, 100, 132095, 32255, 4294967295].map (log · 6) = [44, 295, 754, 665, 1420] := by
  decide

/-! ### The table -/

/-- What the table makes of the fraction behind the leading bit, in units of
`1 / kLogScale`. -/
def tableLog2 (frac : Nat) : Int :=
  frac + (kLogLut.getD (frac / 512) 0 : Int)
    + (((kLogLut.getD (frac / 512 + 1) 0 : Int) - kLogLut.getD (frac / 512) 0)
        * ((frac : Int) - 512 * (frac / 512 : Nat))) >>> (16 : Nat)

/-- Both shifts of the first part bring the fraction to sixteen bits. -/
theorem log2FractionPart_eq (integer rest : Nat) :
    log2FractionPart (2 ^ integer + rest) integer = tableLog2 (rest * 2 ^ 16 / 2 ^ integer) := by
  have whole : 2 ^ integer + rest - 1 <<< integer = rest := by
    rw [Nat.one_shiftLeft, Nat.add_sub_cancel_left]
  have frac : (if integer < kLogScaleLog2 then rest <<< (kLogScaleLog2 - integer)
      else rest >>> (integer - kLogScaleLog2)) = rest * 2 ^ 16 / 2 ^ integer := by
    rw [kLogScaleLog2]
    split_ifs with short
    · have split : (2 : Nat) ^ 16 = 2 ^ (16 - integer) * 2 ^ integer := by
        rw [← Nat.pow_add, Nat.sub_add_cancel short.le]
      rw [Nat.shiftLeft_eq, split, ← Nat.mul_assoc, Nat.mul_div_cancel _ (Nat.two_pow_pos _)]
    · have split : (2 : Nat) ^ integer = 2 ^ (integer - 16) * 2 ^ 16 := by
        rw [← Nat.pow_add, Nat.sub_add_cancel (Nat.le_of_not_lt short)]
      rw [Nat.shiftRight_eq_div_pow, split, Nat.mul_div_mul_right _ _ (by decide)]
  rw [log2FractionPart, whole, frac, Nat.shiftRight_eq_div_pow, tableLog2]
  rfl

/-- Each node of the table is the logarithm of its argument to one unit. -/
theorem kLogLut_nodes : ∀ node < 129,
    2 ^ (512 * node + kLogLut.getD node 0 + 7 * 65536) ≤ (128 + node) ^ 65536 * 2 ∧
      (128 + node) ^ 65536 ≤ 2 ^ (512 * node + kLogLut.getD node 0 + 7 * 65536 + 1) := by
  decide +kernel

/-- What the interpolation between two nodes is shifted down to. -/
theorem kLogLut_steps : ∀ node < 128,
    (kLogLut.getD node 0 : Int) - 142 ≤ kLogLut.getD (node + 1) 0 ∧
      (kLogLut.getD (node + 1) 0 : Int) ≤ kLogLut.getD node 0 + 224 ∧
      (kLogLut.getD node 0 ≤ kLogLut.getD (node + 1) 0 ∨ 2 ≤ kLogLut.getD node 0) ∧
      kLogLut.getD node 0 ≤ 5641 := by
  decide +kernel

theorem node_near {node : Nat} (within : node < 129) :
    |((512 * node + kLogLut.getD node 0 : Nat) : ℝ) * Real.log 2
      - 65536 * (Real.log (128 + node) - 7 * Real.log 2)| ≤ Real.log 2 := by
  obtain ⟨low, high⟩ := kLogLut_nodes node within
  generalize 512 * node + kLogLut.getD node 0 = value at low high ⊢
  have positive : 0 < 128 + node := Nat.add_pos_left (by decide) node
  have below := mul_log_le_of_pow_le positive high
  have above := mul_log_two_le_of_le_pow positive Nat.two_pos low
  push_cast at below above
  rw [abs_le]
  constructor <;> linarith

theorem shifted_interpolation {difference offset : Int} (falls : -142 ≤ difference)
    (rises : difference ≤ 224) (nonneg : 0 ≤ offset) (short : offset < 512) :
    -2 ≤ (difference * offset) >>> (16 : Nat) ∧ (difference * offset) >>> (16 : Nat) ≤ 1 := by
  rw [Int.shiftRight_eq_div_pow]
  constructor
  · refine (Int.le_ediv_iff_mul_le (by norm_num)).mpr ?_
    push_cast
    nlinarith
  · refine Int.lt_add_one_iff.mp ((Int.ediv_lt_iff_lt_mul (by norm_num)).mpr ?_)
    push_cast
    nlinarith

/-- The table's value written from the node below. -/
theorem tableLog2_parts {frac : Nat} (small : frac < 65536) :
    ∃ node part : Nat, ∃ shifted : Int, node < 128 ∧ part < 512 ∧ frac = 512 * node + part ∧
      -2 ≤ shifted ∧ shifted ≤ 1 ∧
      tableLog2 frac = (512 * node + kLogLut.getD node 0 : Nat) + part + shifted := by
  have within : frac / 512 < 128 := by omega
  obtain ⟨falls, rises, -, -⟩ := kLogLut_steps (frac / 512) within
  obtain ⟨shiftedGe, shiftedLe⟩ := shifted_interpolation
    (by omega : -142 ≤ (kLogLut.getD (frac / 512 + 1) 0 : Int) - kLogLut.getD (frac / 512) 0)
    (by omega) (by omega : 0 ≤ (frac : Int) - 512 * (frac / 512 : Nat)) (by omega)
  refine ⟨frac / 512, frac % 512, _, within, Nat.mod_lt _ (by decide), by omega, shiftedGe,
    shiftedLe, ?_⟩
  rw [tableLog2]
  omega

/-- Over the whole octave the table is within 160 units of the logarithm, in the scale of the
natural logarithm. -/
theorem tableLog2_near {frac : Nat} {place : ℝ} (small : frac < 65536)
    (low : (frac : ℝ) ≤ place) (high : place < frac + 1) :
    |(tableLog2 frac : ℝ) * Real.log 2
      - 65536 * (Real.log (65536 + place) - 16 * Real.log 2)| ≤ 160 := by
  obtain ⟨node, part, shifted, within, partLt, rfl, shiftedGe, shiftedLe, parts⟩ :=
    tableLog2_parts small
  have near := abs_le.mp (node_near (Nat.lt_succ_of_lt within))
  have log2Gt := Real.log_two_gt_d9
  have log2Lt := Real.log_two_lt_d9
  have nodeLt : (node : ℝ) ≤ 127 := by exact_mod_cast Nat.lt_succ_iff.mp within
  have nodeGe : (0 : ℝ) ≤ node := Nat.cast_nonneg node
  have partGe : (0 : ℝ) ≤ part := Nat.cast_nonneg part
  have partLe : (part : ℝ) ≤ 511 := by exact_mod_cast Nat.lt_succ_iff.mp partLt
  push_cast at low high
  -- the logarithm at the node, and how far it goes from there
  have start : Real.log (65536 + 512 * node) = Real.log (128 + node) + 9 * Real.log 2 := by
    have product : (65536 : ℝ) + 512 * node = (128 + node) * 2 ^ 9 := by ring
    rw [product, Real.log_mul (by positivity) (by norm_num), Real.log_pow]
    norm_num
  set step : ℝ := place - 512 * node with stepEq
  have stepGe : (part : ℝ) ≤ step := by linarith
  have stepLt : step < part + 1 := by linarith
  obtain ⟨atLeast, atMost⟩ := log_step_bounds
    (by positivity : (0 : ℝ) < 65536 + 512 * node) (by linarith : 0 ≤ step)
  rw [show 65536 + 512 * (node : ℝ) + step = 65536 + place by rw [stepEq]; ring] at atLeast atMost
  have slow : step / 131072 ≤ step / (65536 + place) :=
    div_le_div_of_nonneg_left (by linarith) (by linarith) (by linarith)
  have fast : step / (65536 + 512 * node) ≤ step / 65536 :=
    div_le_div_of_nonneg_left (by linarith) (by norm_num) (by linarith)
  have shiftedGe' : (-2 : ℝ) ≤ shifted := by exact_mod_cast shiftedGe
  have shiftedLe' : (shifted : ℝ) ≤ 1 := by exact_mod_cast shiftedLe
  rw [parts]
  push_cast at near ⊢
  rw [abs_le]
  constructor
  · nlinarith
  · nlinarith

theorem tableLog2_range {frac : Nat} (small : frac < 65536) :
    0 ≤ tableLog2 frac ∧ tableLog2 frac ≤ 65536 + 5641 := by
  obtain ⟨node, part, shifted, within, partLt, split, shiftedGe, shiftedLe, parts⟩ :=
    tableLog2_parts small
  obtain ⟨-, -, safe, height⟩ := kLogLut_steps node within
  refine ⟨?_, by omega⟩
  rcases safe with rises | covered
  · -- on a rising segment nothing is taken away
    have offset : frac / 512 = node := by omega
    rw [tableLog2, offset, Int.shiftRight_eq_div_pow]
    have kept : (0 : Int) ≤ (((kLogLut.getD (node + 1) 0 : Int) - kLogLut.getD node 0)
        * ((frac : Int) - 512 * (node : Nat))) / ((2 ^ 16 : Nat) : Int) :=
      Int.ediv_nonneg (mul_nonneg (by omega) (by omega)) (by norm_num)
    omega
  · omega

/-! ### The logarithm -/

/-- The registers of `Log` hold what they would hold if they were unbounded. -/
theorem log_eq {integer : Nat} {fraction : Int} (narrow : integer < 32)
    (nonneg : 0 ≤ fraction) (small : fraction ≤ 65536 + 5641) :
    ∃ log2 loge : Nat, (log2 : Int) = integer * 65536 + fraction ∧
      (((integer <<< kLogScaleLog2 : Nat) : Int) + fraction).toNat % 2 ^ 32 = log2 ∧
      ((kLogCoeff * log2 + kLogScale / 2) >>> kLogScaleLog2) % 2 ^ 32 = loge ∧
      loge = (45426 * log2 + 32768) / 65536 ∧
      (((loge <<< 6) % 2 ^ 32 + kLogScale / 2) % 2 ^ 32) >>> kLogScaleLog2
        = (64 * loge + 32768) / 65536 := by
  have shifted : ((integer <<< kLogScaleLog2 : Nat) : Int) = integer * 65536 := by
    rw [Nat.shiftLeft_eq, kLogScaleLog2]
    push_cast
    ring
  obtain ⟨log2, value⟩ := Int.eq_ofNat_of_zero_le
    (by omega : (0 : Int) ≤ integer * 65536 + fraction)
  have log2Lt : log2 < 2 ^ 22 := by omega
  refine ⟨log2, (45426 * log2 + 32768) / 65536, value.symm, ?_, ?_, rfl, ?_⟩
  · rw [shifted, value, Int.toNat_natCast, Nat.mod_eq_of_lt (by omega)]
  · rw [Nat.shiftRight_eq_div_pow, kLogCoeff, kLogScale, kLogScaleLog2]
    exact Nat.mod_eq_of_lt (by omega)
  · rw [Nat.shiftRight_eq_div_pow, Nat.shiftLeft_eq, kLogScale, kLogScaleLog2]
    omega

/-- `Log` at the scale of the firmware is within 0.66 of 64 times the natural logarithm. -/
theorem log_near {x : Nat} (positive : 0 < x) (fits : x < 2 ^ 32) :
    |(log x 6 : ℝ) - 64 * Real.log x| < 0.66 := by
  have nonzero : x ≠ 0 := Nat.ne_of_gt positive
  have leading : mostSignificantBit 32 x - 1 = x.log2 := by
    rw [mostSignificantBit_eq fits nonzero, Nat.add_sub_cancel]
  have narrow : x.log2 < 32 := (Nat.log2_lt nonzero).mpr fits
  obtain ⟨rest, split⟩ := Nat.exists_eq_add_of_le (Nat.log2_self_le nonzero)
  have restLt : rest < 2 ^ x.log2 := by
    have below : x < 2 ^ (x.log2 + 1) := Nat.lt_log2_self
    rw [Nat.pow_succ] at below
    omega
  generalize x.log2 = integer at leading narrow split restLt
  have octave : (0 : ℝ) < 2 ^ integer := by positivity
  have fracLt : rest * 2 ^ 16 / 2 ^ integer < 65536 :=
    (Nat.div_lt_iff_lt_mul (Nat.two_pow_pos integer)).mpr (by omega)
  -- the place behind the leading bit, which the code cuts off to a whole number
  obtain ⟨cutLow, cutHigh⟩ := @nat_div_bounds (rest * 2 ^ 16) _ (Nat.two_pow_pos integer)
  have near := tableLog2_near fracLt cutLow cutHigh
  have logX : Real.log (65536 + ((rest * 2 ^ 16 : Nat) : ℝ) / (2 ^ integer : Nat))
      = 16 * Real.log 2 + Real.log x - integer * Real.log 2 := by
    have scaled : 65536 + ((rest * 2 ^ 16 : Nat) : ℝ) / (2 ^ integer : Nat)
        = 2 ^ 16 * x / 2 ^ integer := by
      rw [split]
      push_cast
      field_simp
      ring
    rw [scaled, Real.log_div (by positivity) octave.ne',
      Real.log_mul (by positivity) (Nat.cast_ne_zero.mpr nonzero), Real.log_pow, Real.log_pow]
    norm_num
  obtain ⟨nonneg, small⟩ := tableLog2_range fracLt
  obtain ⟨log2, loge, value, log2Eq, logeEq, logeFloor, outEq⟩ := log_eq narrow nonneg small
  have unfolded : log x 6 = (64 * loge + 32768) / 65536 := by
    rw [log, leading, split, log2FractionPart_eq, log2Eq, logeEq, outEq]
  obtain ⟨logeLow, logeHigh⟩ := @nat_div_bounds (45426 * log2 + 32768) 65536 (by decide)
  obtain ⟨outLow, outHigh⟩ := @nat_div_bounds (64 * loge + 32768) 65536 (by decide)
  rw [← logeFloor] at logeLow logeHigh
  rw [← unfolded] at outLow outHigh
  have valueReal : (log2 : ℝ) = integer * 65536 + tableLog2 (rest * 2 ^ 16 / 2 ^ integer) := by
    exact_mod_cast value
  have log2Le : (log2 : ℝ) ≤ 2103000 := by
    have bound : log2 ≤ 2103000 := by omega
    exact_mod_cast bound
  have log2Gt := Real.log_two_gt_d9
  have log2Lt := Real.log_two_lt_d9
  have coefficient : |(45426 : ℝ) * log2 - 65536 * (log2 * Real.log 2)| ≤ 200000 := by
    have nonnegReal : (0 : ℝ) ≤ log2 := Nat.cast_nonneg log2
    rw [abs_le]
    constructor <;> nlinarith
  rw [logX] at near
  rw [abs_le] at near coefficient
  push_cast at logeLow logeHigh outLow outHigh
  rw [le_div_iff₀ (by norm_num)] at logeLow outLow
  rw [div_lt_iff₀ (by norm_num)] at logeHigh outHigh
  rw [valueReal] at coefficient logeLow logeHigh
  rw [abs_lt]
  constructor <;> linarith

/-! ### The features -/

/-- The feature of a channel whose shifted value fits its register: the clamp never acts. -/
theorem logScaleValue_eq {correctionBits value : Nat}
    (fits : value * 2 ^ correctionBits < 2 ^ 32) :
    logScaleValue logScale correctionBits value
        = (if 1 < value * 2 ^ correctionBits then log (value * 2 ^ correctionBits) 6 else 0) ∧
      logScaleValue logScale correctionBits value ≤ 1420 := by
  have shifted : (value <<< correctionBits) % 2 ^ 32 = value * 2 ^ correctionBits := by
    rw [Nat.shiftLeft_eq, Nat.mod_eq_of_lt fits]
  have height : (if 1 < value * 2 ^ correctionBits then log (value * 2 ^ correctionBits) 6 else 0)
      ≤ 1420 := by
    split_ifs with audible
    · have near := abs_lt.mp (log_near (Nat.lt_of_succ_lt audible) fits)
      have top : Real.log (value * 2 ^ correctionBits : Nat) ≤ 32 * Real.log 2 := by
        have logs := Real.log_le_log (Nat.cast_pos.mpr (Nat.lt_of_succ_lt audible))
          (by exact_mod_cast fits.le : ((value * 2 ^ correctionBits : Nat) : ℝ) ≤ 2 ^ 32)
        rwa [Real.log_pow] at logs
      have log2Lt := Real.log_two_lt_d9
      have less : (log (value * 2 ^ correctionBits) 6 : ℝ) < 1421 := by linarith
      exact Nat.lt_succ_iff.mp (by exact_mod_cast less)
    · exact Nat.zero_le _
  have unclamped : logScaleValue logScale correctionBits value
      = if 1 < value * 2 ^ correctionBits then log (value * 2 ^ correctionBits) 6 else 0 := by
    have left : ¬ (correctionBits : Int) < 0 := not_lt.mpr (Int.natCast_nonneg correctionBits)
    simp only [logScaleValue, logScale, ↓reduceIte, if_neg left, Int.toNat_natCast, shifted]
    exact if_pos (Nat.lt_of_le_of_lt height (by decide))
  exact ⟨unclamped, unclamped ▸ height⟩

/-- A louder channel is never more than one below a softer one. -/
theorem logScaleValue_mono {correctionBits value other : Nat}
    (fits : other * 2 ^ correctionBits < 2 ^ 32) (le : value ≤ other) :
    logScaleValue logScale correctionBits value ≤
      logScaleValue logScale correctionBits other + 1 := by
  have scaled : value * 2 ^ correctionBits ≤ other * 2 ^ correctionBits :=
    Nat.mul_le_mul_right _ le
  have softFits := Nat.lt_of_le_of_lt scaled fits
  rw [(logScaleValue_eq fits).1, (logScaleValue_eq softFits).1]
  by_cases audible : 1 < value * 2 ^ correctionBits
  · rw [if_pos audible, if_pos (Nat.lt_of_lt_of_le audible scaled)]
    have soft := abs_lt.mp (log_near (Nat.lt_of_succ_lt audible) softFits)
    have loud := abs_lt.mp
      (log_near (Nat.lt_of_lt_of_le (Nat.lt_of_succ_lt audible) scaled) fits)
    have logs := Real.log_le_log (Nat.cast_pos.mpr (Nat.lt_of_succ_lt audible))
      (by exact_mod_cast scaled :
        ((value * 2 ^ correctionBits : Nat) : ℝ) ≤ (other * 2 ^ correctionBits : Nat))
    have less : (log (value * 2 ^ correctionBits) 6 : ℝ)
        < log (other * 2 ^ correctionBits) 6 + 2 := by linarith
    exact Nat.lt_succ_iff.mp (by exact_mod_cast less)
  · rw [if_neg audible]
    exact Nat.zero_le _

/-- The features of a frame whose shifted signal fits the registers: silence is zero, anything
else is within 0.66 of 64 times its natural logarithm, none exceeds 1420, and the order of two
channels is kept up to one unit. -/
theorem logScaleApply_near {correctionBits : Nat} {signal : List Nat}
    (fits : ∀ value ∈ signal, value * 2 ^ correctionBits < 2 ^ 32) :
    (logScaleApply logScale signal correctionBits).length = signal.length ∧
      ∀ channel value feature : Nat, signal[channel]? = some value →
        (logScaleApply logScale signal correctionBits)[channel]? = some feature →
        feature ≤ 1420 ∧
          (value * 2 ^ correctionBits ≤ 1 → feature = 0) ∧
          (1 < value * 2 ^ correctionBits →
            |(feature : ℝ) - 64 * Real.log (value * 2 ^ correctionBits : Nat)| < 0.66) ∧
          ∀ louder loud loudFeature : Nat, signal[louder]? = some loud → value ≤ loud →
            (logScaleApply logScale signal correctionBits)[louder]? = some loudFeature →
            feature ≤ loudFeature + 1 := by
  have feature_of {channel value feature : Nat} (heard : signal[channel]? = some value)
      (given : (logScaleApply logScale signal correctionBits)[channel]? = some feature) :
      feature = logScaleValue logScale correctionBits value := by
    rw [logScaleApply, List.getElem?_map, heard] at given
    exact (Option.some.inj given).symm
  refine ⟨List.length_map _, fun channel value feature heard given => ?_⟩
  obtain ⟨unclamped, height⟩ := logScaleValue_eq (fits value (List.mem_of_getElem? heard))
  obtain rfl := feature_of heard given
  refine ⟨height, fun silent => ?_, fun audible => ?_, fun louder loud loudFeature => ?_⟩
  · rw [unclamped, if_neg (Nat.not_lt_of_le silent)]
  · rw [unclamped, if_pos audible]
    exact log_near (Nat.lt_of_succ_lt audible) (fits value (List.mem_of_getElem? heard))
  · intro loudHeard le loudGiven
    obtain rfl := feature_of loudHeard loudGiven
    exact logScaleValue_mono (fits loud (List.mem_of_getElem? loudHeard)) le

theorem logScaleApply_near_pair :
    (logScaleApply logScale [2 ^ 29 - 1, 0, 7] 3).length = 3 ∧
      |((logScaleValue logScale 3 7 : Nat) : ℝ) - 64 * Real.log (7 * 2 ^ 3 : Nat)| < 0.66 := by
  have near := @logScaleApply_near 3 [2 ^ 29 - 1, 0, 7] (by decide)
  exact ⟨near.1, ((near.2 2 7 _ rfl rfl).2.2.1) (by decide)⟩

end WallUnit.Firmware.Microfrontend
