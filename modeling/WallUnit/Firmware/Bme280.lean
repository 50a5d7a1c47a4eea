import Mathlib
import WallUnit.Firmware.Esp
import WallUnit.Foundations.CheckedInt

/-!
Owns `bme280.c` from the registers to the integers behind a reading: the calibration as
`bme280_read_calibration` takes it, and the three compensations with every signed operation
checked. A few products and sums decide whether a reading stays within its types; nothing else
can leave them: `bme280Read_safe_iff`.

Does not own the division of those integers into floats, nor the setup of the bus.
-/

namespace WallUnit.Firmware.Bme280

open WallUnit.Foundations.CheckedInt

/-! ### Calibration -/

/-- `bme280_calib_t`. -/
structure Calib where
  digT1 : UInt16
  digT2 : Int16
  digT3 : Int16
  digP1 : UInt16
  digP2 : Int16
  digP3 : Int16
  digP4 : Int16
  digP5 : Int16
  digP6 : Int16
  digP7 : Int16
  digP8 : Int16
  digP9 : Int16
  digH1 : UInt8
  digH2 : Int16
  digH3 : UInt8
  digH4 : Int16
  digH5 : Int16
  digH6 : Int8
deriving DecidableEq, Repr

/-- What a read of registers returns, and what it leaves in the buffer. -/
structure Transfer (count : Nat) where
  ret : EspErr
  data : Fin count → UInt8

/-- `(high << 8) | low`. -/
def word (high low : UInt8) : Nat := (high.toNat <<< 8) ||| low.toNat

/-- `bme280_read_calibration`. The first bank is stored even if the second cannot be read. -/
def bme280ReadCalibration (bank00 : Transfer 26) (bank26 : Transfer 7) (calib : Calib) :
    EspErr × Calib :=
  let buf := bank00.data
  let hbuf := bank26.data
  if bank00.ret ≠ .ok then (bank00.ret, calib)
  else
    let calib := { calib with
      digT1 := UInt16.ofNat (word (buf 1) (buf 0))
      digT2 := Int16.ofNat (word (buf 3) (buf 2))
      digT3 := Int16.ofNat (word (buf 5) (buf 4))
      digP1 := UInt16.ofNat (word (buf 7) (buf 6))
      digP2 := Int16.ofNat (word (buf 9) (buf 8))
      digP3 := Int16.ofNat (word (buf 11) (buf 10))
      digP4 := Int16.ofNat (word (buf 13) (buf 12))
      digP5 := Int16.ofNat (word (buf 15) (buf 14))
      digP6 := Int16.ofNat (word (buf 17) (buf 16))
      digP7 := Int16.ofNat (word (buf 19) (buf 18))
      digP8 := Int16.ofNat (word (buf 21) (buf 20))
      digP9 := Int16.ofNat (word (buf 23) (buf 22))
      digH1 := buf 25 }
    if bank26.ret ≠ .ok then (bank26.ret, calib)
    else
      (.ok, { calib with
        digH2 := Int16.ofNat (word (hbuf 1) (hbuf 0))
        digH3 := hbuf 2
        -- the field has 12 bits, and its sign bit is not extended
        digH4 := Int16.ofNat (((hbuf 3).toNat <<< 4) ||| ((hbuf 4).toNat &&& 0x0F))
        digH5 := Int16.ofNat ((((hbuf 4).toNat >>> 4) &&& 0x0F) ||| ((hbuf 5).toNat <<< 4))
        digH6 := Int8.ofNat (hbuf 6).toNat })

/-! ### Compensation -/

/-- `bme280_compensate_temperature`: the temperature in hundredths, and `s_t_fine`. -/
def compensateTemperature (calib : Calib) (adcT : Int) : Except Fault (Int × Int) := do
  let twice ← shl 32 calib.digT1.toNat 1
  let offset ← sub 32 (shr adcT 3) twice
  let linear ← mul 32 offset calib.digT2.toInt
  let left ← sub 32 (shr adcT 4) calib.digT1.toNat
  let right ← sub 32 (shr adcT 4) calib.digT1.toNat
  let square ← mul 32 left right
  let quadratic ← mul 32 (shr square 12) calib.digT3.toInt
  let tFine ← add 32 (shr linear 11) (shr quadratic 14)
  let fiveTimes ← mul 32 tFine 5
  let rounded ← add 32 fiveTimes 128
  return (shr rounded 8, tFine)

/-- The part of `bme280_compensate_pressure` behind its test for 0. -/
def pressureQuotient (calib : Calib) (adcP var1 var2 : Int) : Except Fault Int := do
  let p ← sub 32 1048576 adcP
  let scaled ← shl 64 p 31
  let difference ← sub 64 scaled var2
  let numerator ← mul 64 difference 3125
  let p ← div 64 numerator var1
  let ninth ← mul 64 calib.digP9.toInt (shr p 13)
  let ninth ← mul 64 ninth (shr p 13)
  let eighth ← mul 64 calib.digP8.toInt p
  let sum ← add 64 p (shr ninth 25)
  let sum ← add 64 sum (shr eighth 19)
  let seventh ← shl 64 calib.digP7.toInt 4
  let p ← add 64 (shr sum 8) seventh
  -- `(uint32_t)p`
  return p % 4294967296

/-- `bme280_compensate_pressure`: the pressure in 256ths of a pascal. -/
def compensatePressure (calib : Calib) (tFine adcP : Int) : Except Fault Int := do
  let var1 ← sub 64 tFine 128000
  let square ← mul 64 var1 var1
  let sixth ← mul 64 square calib.digP6.toInt
  let fifth ← mul 64 var1 calib.digP5.toInt
  let fifth ← shl 64 fifth 17
  let var2 ← add 64 sixth fifth
  let fourth ← shl 64 calib.digP4.toInt 35
  let var2 ← add 64 var2 fourth
  let square ← mul 64 var1 var1
  let third ← mul 64 square calib.digP3.toInt
  let second ← mul 64 var1 calib.digP2.toInt
  let second ← shl 64 second 12
  let var1 ← add 64 (shr third 8) second
  let one ← shl 64 1 47
  let var1 ← add 64 one var1
  let var1 ← mul 64 var1 calib.digP1.toNat
  if shr var1 33 = 0 then return 0
  else pressureQuotient calib adcP (shr var1 33) var2

/-- `bme280_compensate_humidity`: the relative humidity in 1024ths of a percent. -/
def compensateHumidity (calib : Calib) (tFine adcH : Int) : Except Fault Int := do
  let x ← sub 32 tFine 76800
  let left ← shl 32 adcH 14
  let fourth ← shl 32 calib.digH4.toInt 20
  let left ← sub 32 left fourth
  let fifth ← mul 32 calib.digH5.toInt x
  let left ← sub 32 left fifth
  let left ← add 32 left 16384
  let sixth ← mul 32 x calib.digH6.toInt
  let third ← mul 32 x calib.digH3.toNat
  let third ← add 32 (shr third 11) 32768
  let gain ← mul 32 (shr sixth 10) third
  let gain ← add 32 (shr gain 10) 2097152
  let right ← mul 32 gain calib.digH2.toInt
  let right ← add 32 right 8192
  let v ← mul 32 (shr left 15) (shr right 14)
  let square ← mul 32 (shr v 15) (shr v 15)
  let correction ← mul 32 (shr square 7) calib.digH1.toNat
  let v ← sub 32 v (shr correction 4)
  let v := if v < 0 then 0 else v
  let v := if 419430400 < v then 419430400 else v
  return shr v 12

/-- `bme280_reading_t`, as the integers its floats are made of. -/
structure Reading where
  temperature : Int
  pressure : Int
  humidity : Int
deriving DecidableEq, Repr

/-- `(high << 12) | (middle << 4) | (low >> 4)`. -/
def adc20 (high middle low : UInt8) : Int :=
  ((high.toNat <<< 12) ||| (middle.toNat <<< 4) ||| (low.toNat >>> 4) : Nat)

/-- `(high << 8) | low`. -/
def adc16 (high low : UInt8) : Int := word high low

/-- The end of `bme280_read`: the raw values, and the compensations in their order. -/
def compensate (calib : Calib) (raw : Fin 8 → UInt8) : Except Fault Reading := do
  let (temperature, tFine) ← compensateTemperature calib (adc20 (raw 3) (raw 4) (raw 5))
  let pressure ← compensatePressure calib tFine (adc20 (raw 0) (raw 1) (raw 2))
  let humidity ← compensateHumidity calib tFine (adc16 (raw 6) (raw 7))
  return ⟨temperature, pressure, humidity⟩

/-- `bme280_read`. `given` says that the result and the device are there. -/
def bme280Read (given : Bool) (ctrlHum ctrlMeas : EspErr) (data : Transfer 8) (calib : Calib) :
    Except Fault (EspErr × Option Reading) :=
  if !given then .ok (.invalidState, none)
  else if ctrlHum ≠ .ok then .ok (ctrlHum, none)
  else if ctrlMeas ≠ .ok then .ok (ctrlMeas, none)
  else if data.ret ≠ .ok then .ok (data.ret, none)
  else (compensate calib data.data).map fun reading => (.ok, some reading)

/-! ### Temperature -/

section

variable (calib : Calib) (adcT : Int)

def temperatureLinear : Int :=
  (shr adcT 3 - calib.digT1.toNat * 2 ^ 1) * calib.digT2.toInt

def temperatureSquare : Int := (shr adcT 4 - calib.digT1.toNat) * (shr adcT 4 - calib.digT1.toNat)

def temperatureQuadratic : Int := shr (temperatureSquare calib adcT) 12 * calib.digT3.toInt

/-- `s_t_fine`. -/
def tFineOf : Int :=
  shr (temperatureLinear calib adcT) 11 + shr (temperatureQuadratic calib adcT) 14

/-- The products of the temperature that may leave 32 bits. -/
@[mk_iff]
structure TemperatureFits : Prop where
  linear : InRange 32 (temperatureLinear calib adcT)
  square : InRange 32 (temperatureSquare calib adcT)
  quadratic : InRange 32 (temperatureQuadratic calib adcT)

variable {calib adcT}

theorem TemperatureFits.tFine_bounds (fits : TemperatureFits calib adcT) :
    -1179648 ≤ tFineOf calib adcT ∧ tFineOf calib adcT ≤ 1179648 := by
  have linear := @shr_bounds 20 11 _ fits.linear
  have quadratic := @shr_bounds 17 14 _ fits.quadratic
  rw [tFineOf]
  omega

theorem compensateTemperature_computes (range : 0 ≤ adcT ∧ adcT < 1048576) :
    Computes (compensateTemperature calib adcT) (TemperatureFits calib adcT)
      (fun result => result.2 = tFineOf calib adcT ∧
        -1179648 ≤ result.2 ∧ result.2 ≤ 1179648) := by
  have t1 := calib.digT1.toNat_lt
  have eighth : 0 ≤ shr adcT 3 ∧ shr adcT 3 < 131072 := by
    rw [shr]
    omega
  have sixteenth : 0 ≤ shr adcT 4 ∧ shr adcT 4 < 65536 := by
    rw [shr]
    omega
  have computes : Computes (compensateTemperature calib adcT)
      (InRange 32 (temperatureLinear calib adcT) ∧ InRange 32 (temperatureSquare calib adcT) ∧
        InRange 32 (temperatureQuadratic calib adcT) ∧ True)
      (fun result => result.2 = tFineOf calib adcT ∧
        -1179648 ≤ result.2 ∧ result.2 ≤ 1179648) := by
    refine .always (inRange_32.mpr (by omega)) ?_
    refine .always (inRange_32.mpr (by omega)) ?_
    apply Computes.when
    intro linear
    refine .always (inRange_32.mpr (by omega)) ?_
    refine .always (inRange_32.mpr (by omega)) ?_
    apply Computes.when
    intro square
    apply Computes.when
    intro quadratic
    have tFine := TemperatureFits.tFine_bounds ⟨linear, square, quadratic⟩
    have sum : InRange 32 (tFineOf calib adcT) := inRange_32.mpr (by omega)
    have fiveTimes : InRange 32 (tFineOf calib adcT * 5) := inRange_32.mpr (by omega)
    have rounded : InRange 32 (tFineOf calib adcT * 5 + 128) := inRange_32.mpr (by omega)
    exact .always sum (.always fiveTimes (.always rounded (.return ⟨rfl, tFine⟩)))
  apply computes.congr
  rw [temperatureFits_iff, and_true]

end

/-! ### Pressure -/

section

variable (calib : Calib) (tFine adcP : Int)

def pressureOffset : Int := tFine - 128000

def pressureVar2 : Int :=
  pressureOffset tFine * pressureOffset tFine * calib.digP6.toInt +
      pressureOffset tFine * calib.digP5.toInt * 2 ^ 17 +
    calib.digP4.toInt * 2 ^ 35

def pressureSlope : Int :=
  (1 * 2 ^ 47 + (shr (pressureOffset tFine * pressureOffset tFine * calib.digP3.toInt) 8 +
    pressureOffset tFine * calib.digP2.toInt * 2 ^ 12)) * calib.digP1.toNat

/-- What the pressure is divided by. -/
def pressureDivisor : Int := shr (pressureSlope calib tFine) 33

def pressureNumerator : Int :=
  ((1048576 - adcP) * 2 ^ 31 - pressureVar2 calib tFine) * 3125

def pressureRatio : Int :=
  (pressureNumerator calib tFine adcP).tdiv (pressureDivisor calib tFine)

def pressureNinth : Int :=
  calib.digP9.toInt * shr (pressureRatio calib tFine adcP) 13 *
    shr (pressureRatio calib tFine adcP) 13

def pressureEighth : Int := calib.digP8.toInt * pressureRatio calib tFine adcP

def pressureSum : Int :=
  pressureRatio calib tFine adcP + shr (pressureNinth calib tFine adcP) 25 +
    shr (pressureEighth calib tFine adcP) 19

/-- The results behind the test for 0 that may leave 64 bits. -/
structure QuotientFits : Prop where
  numerator : InRange 64 (pressureNumerator calib tFine adcP)
  ninth : InRange 64 (pressureNinth calib tFine adcP)
  eighth : InRange 64 (pressureEighth calib tFine adcP)
  sum : InRange 64 (pressureSum calib tFine adcP)

/-- The results of the pressure that may leave 64 bits. -/
@[mk_iff]
structure PressureFits : Prop where
  slope : InRange 64 (pressureSlope calib tFine)
  quotient : ¬ pressureDivisor calib tFine = 0 → QuotientFits calib tFine adcP

end

theorem bits_int16 (value : Int16) : Bits 15 value.toInt :=
  bits_of_bounds value.le_toInt value.toInt_lt.le

/-- If a product with two equal factors fits, so does the product with one of them. -/
theorem inRange_of_square {factor step : Int} (small : Bits 15 factor)
    (fits : InRange 64 (factor * step * step)) : InRange 64 (factor * step) := by
  rcases lt_or_ge |step| 2 with unit | larger
  · have atMostOne : Bits 0 step := Int.lt_add_one_iff.mp unit
    exact (small.mul atMostOne).inRange (by decide)
  · have square : |factor * step| * |step| ≤ 2 ^ 63 := by
      rw [← abs_mul]
      exact bits_of_inRange fits
    have half : |factor * step| * 2 ≤ |factor * step| * |step| :=
      mul_le_mul_of_nonneg_left larger (abs_nonneg _)
    have quarter : Bits 62 (factor * step) := by
      rw [Bits]
      omega
    exact quarter.inRange (by decide)

/-- If a product with the square of the quotient fits, the quotient is small or the product
is 0. -/
theorem inRange_ratio_add {factor ratio : Int} (within : InRange 64 ratio)
    (fits : InRange 64 (factor * shr ratio 13 * shr ratio 13)) :
    InRange 64 (ratio + shr (factor * shr ratio 13 * shr ratio 13) 25) := by
  by_cases zero : factor = 0
  · rw [zero, zero_mul, zero_mul, shr, Int.zero_ediv, add_zero]
    exact within
  · have scaled := @shr_bounds 38 25 _ fits
    have step : |shr ratio 13| ≤ 2 ^ 32 := by
      have one : 1 ≤ |factor| := Int.one_le_abs zero
      have square : |factor| * (|shr ratio 13| * |shr ratio 13|) ≤ 2 ^ 63 := by
        rw [← mul_assoc, ← abs_mul, ← abs_mul]
        exact bits_of_inRange fits
      by_contra large
      nlinarith [abs_nonneg (shr ratio 13)]
    have bounds := abs_le.mp step
    have floor : 8192 * shr ratio 13 ≤ ratio ∧ ratio < 8192 * shr ratio 13 + 8192 := by
      rw [shr]
      omega
    rw [inRange_64]
    omega

section

variable {calib : Calib} {tFine adcP : Int}

theorem pressureVar2_bits (offset : Bits 21 (pressureOffset tFine)) :
    Bits 59 (pressureVar2 calib tFine) := by
  have sixth : Bits 57 (pressureOffset tFine * pressureOffset tFine * calib.digP6.toInt) :=
    (offset.mul offset).mul (bits_int16 _)
  have fifth : Bits 53 (pressureOffset tFine * calib.digP5.toInt * 2 ^ 17) :=
    (offset.mul (bits_int16 _)).shl 17
  have fourth : Bits 50 (calib.digP4.toInt * 2 ^ 35) := (bits_int16 _).shl 35
  exact (sixth.add (fifth.mono (by decide))).add (fourth.mono (by decide))

theorem pressureQuotient_computes (range : 0 ≤ adcP ∧ adcP < 1048576)
    (var2 : Bits 59 (pressureVar2 calib tFine)) (nonzero : pressureDivisor calib tFine ≠ 0) :
    Computes
      (pressureQuotient calib adcP (pressureDivisor calib tFine) (pressureVar2 calib tFine))
      (QuotientFits calib tFine adcP) (fun _ => True) := by
  have p : Bits 20 (1048576 - adcP) := bits_of_bounds (by omega) (by omega)
  have scaled : Bits 51 ((1048576 - adcP) * 2 ^ 31) := p.shl 31
  have difference : Bits 60 ((1048576 - adcP) * 2 ^ 31 - pressureVar2 calib tFine) :=
    (scaled.mono (by decide)).sub var2
  have computes : Computes
      (pressureQuotient calib adcP (pressureDivisor calib tFine) (pressureVar2 calib tFine))
      (InRange 64 (pressureNumerator calib tFine adcP) ∧
        InRange 64 (calib.digP9.toInt * shr (pressureRatio calib tFine adcP) 13) ∧
        InRange 64 (pressureNinth calib tFine adcP) ∧
        InRange 64 (pressureEighth calib tFine adcP) ∧
        InRange 64 (pressureSum calib tFine adcP) ∧ True)
      (fun _ => True) := by
    refine .always (p.inRange (by decide)) ?_
    refine .always (scaled.inRange (by decide)) ?_
    refine .always (difference.inRange (by decide)) ?_
    apply Computes.when
    intro numerator
    have ratio : InRange 64 (pressureRatio calib tFine adcP) := by
      -- the least value is not divisible by 3125
      apply inRange_tdiv numerator
      omega
    refine .div nonzero ratio ?_
    apply Computes.when
    intro _
    apply Computes.when
    intro ninth
    apply Computes.when
    intro eighth
    refine .always (inRange_ratio_add ratio ninth) ?_
    apply Computes.when
    intro sum
    have seventh : Bits 19 (calib.digP7.toInt * 2 ^ 4) := (bits_int16 _).shl 4
    have total : Bits 55 (shr (pressureSum calib tFine adcP) 8) := (@bits_of_inRange 63 _ sum).shr
    refine .always (seventh.inRange (by decide)) ?_
    exact .always ((total.add (seventh.mono (by decide))).inRange (by decide)) (.return trivial)
  apply computes.congr
  constructor
  · rintro ⟨numerator, -, ninth, eighth, sum, -⟩
    exact ⟨numerator, ninth, eighth, sum⟩
  · intro fits
    have step := inRange_of_square (bits_int16 _) fits.ninth
    exact ⟨fits.numerator, step, fits.ninth, fits.eighth, fits.sum, trivial⟩

theorem compensatePressure_computes (offset : Bits 21 (pressureOffset tFine))
    (range : 0 ≤ adcP ∧ adcP < 1048576) :
    Computes (compensatePressure calib tFine adcP) (PressureFits calib tFine adcP)
      (fun _ => True) := by
  have square := offset.mul offset
  have sixth : Bits 57 (pressureOffset tFine * pressureOffset tFine * calib.digP6.toInt) :=
    square.mul (bits_int16 _)
  have fifth : Bits 36 (pressureOffset tFine * calib.digP5.toInt) := offset.mul (bits_int16 _)
  have fourth : Bits 50 (calib.digP4.toInt * 2 ^ 35) := (bits_int16 _).shl 35
  have var2 : Bits 58 (pressureOffset tFine * pressureOffset tFine * calib.digP6.toInt +
      pressureOffset tFine * calib.digP5.toInt * 2 ^ 17) :=
    sixth.add ((fifth.shl 17).mono (by decide))
  have third : Bits 57 (pressureOffset tFine * pressureOffset tFine * calib.digP3.toInt) :=
    square.mul (bits_int16 _)
  have second : Bits 36 (pressureOffset tFine * calib.digP2.toInt) := offset.mul (bits_int16 _)
  have slope : Bits 50 (shr (pressureOffset tFine * pressureOffset tFine * calib.digP3.toInt) 8 +
      pressureOffset tFine * calib.digP2.toInt * 2 ^ 12) :=
    (@Bits.shr 49 8 _ third).add ((second.shl 12).mono (by decide))
  have one : Bits 50 (1 * 2 ^ 47) := bits_of_bounds (by norm_num) (by norm_num)
  have computes : Computes (compensatePressure calib tFine adcP)
      (InRange 64 (pressureSlope calib tFine) ∧
        (pressureDivisor calib tFine = 0 → True) ∧
        (¬ pressureDivisor calib tFine = 0 → QuotientFits calib tFine adcP))
      (fun _ => True) := by
    refine .always (offset.inRange (by decide)) ?_
    refine .always (square.inRange (by decide)) ?_
    refine .always (sixth.inRange (by decide)) ?_
    refine .always (fifth.inRange (by decide)) ?_
    refine .always ((fifth.shl 17).inRange (by decide)) ?_
    refine .always (var2.inRange (by decide)) ?_
    refine .always (fourth.inRange (by decide)) ?_
    refine .always ((pressureVar2_bits offset).inRange (by decide)) ?_
    refine .always (square.inRange (by decide)) ?_
    refine .always (third.inRange (by decide)) ?_
    refine .always (second.inRange (by decide)) ?_
    refine .always ((second.shl 12).inRange (by decide)) ?_
    refine .always (slope.inRange (by decide)) ?_
    refine .always (one.inRange (by decide)) ?_
    refine .always ((one.add slope).inRange (by decide)) ?_
    apply Computes.when
    intro _
    apply Computes.ite
    · intro _
      exact .return trivial
    · intro nonzero
      exact pressureQuotient_computes range (pressureVar2_bits offset) nonzero
  apply computes.congr
  rw [pressureFits_iff, imp_true_iff, true_and]

end

/-! ### Humidity -/

section

variable (calib : Calib) (tFine adcH : Int)

def humidityOffset : Int := tFine - 76800

def humidityFifth : Int := calib.digH5.toInt * humidityOffset tFine

def humidityLeft : Int :=
  adcH * 2 ^ 14 - calib.digH4.toInt * 2 ^ 20 - humidityFifth calib tFine

def humidityGain : Int :=
  shr (humidityOffset tFine * calib.digH6.toInt) 10 *
    (shr (humidityOffset tFine * calib.digH3.toNat) 11 + 32768)

def humidityRight : Int :=
  (shr (humidityGain calib tFine) 10 + 2097152) * calib.digH2.toInt

def humidityProduct : Int :=
  shr (humidityLeft calib tFine adcH + 16384) 15 * shr (humidityRight calib tFine + 8192) 14

def humiditySquare : Int :=
  shr (humidityProduct calib tFine adcH) 15 * shr (humidityProduct calib tFine adcH) 15

def humidityCorrection : Int := shr (humiditySquare calib tFine adcH) 7 * calib.digH1.toNat

/-- The results of the humidity that may leave 32 bits, `dig_H4 << 20` apart. -/
@[mk_iff]
structure HumidityFits : Prop where
  fifth : InRange 32 (humidityFifth calib tFine)
  left : InRange 32 (humidityLeft calib tFine adcH)
  leftRounded : InRange 32 (humidityLeft calib tFine adcH + 16384)
  gain : InRange 32 (humidityGain calib tFine)
  right : InRange 32 (humidityRight calib tFine)
  rightRounded : InRange 32 (humidityRight calib tFine + 8192)
  product : InRange 32 (humidityProduct calib tFine adcH)
  square : InRange 32 (humiditySquare calib tFine adcH)
  correction : InRange 32 (humidityCorrection calib tFine adcH)

end

theorem bits_int8 (value : Int8) : Bits 7 value.toInt :=
  bits_of_bounds value.le_toInt value.toInt_lt.le

theorem bits_uint8 (value : UInt8) : Bits 8 value.toNat :=
  bits_of_bounds (by omega) (by exact_mod_cast value.toNat_lt.le)

/-- The correction is taken from a value whose square fits, so it never leads out of the
type. -/
theorem inRange_corrected {product : Int} {factor : Nat} (within : InRange 32 product)
    (square : InRange 32 (shr product 15 * shr product 15))
    (correction : InRange 32 (shr (shr product 15 * shr product 15) 7 * factor)) :
    InRange 32 (product - shr (shr (shr product 15 * shr product 15) 7 * factor) 4) := by
  have taken := @shr_bounds 27 4 _ correction
  have positive : 0 ≤ shr (shr (shr product 15 * shr product 15) 7 * factor) 4 := by
    have squared := mul_self_nonneg (shr product 15)
    rw [shr, shr]
    positivity
  have large : -46341 < shr product 15 := by
    by_contra small
    rw [inRange_32] at square
    nlinarith
  have floor : 32768 * shr product 15 ≤ product := by
    rw [shr]
    omega
  rw [inRange_32] at within ⊢
  omega

/-- The two clamps, and the shift behind them. -/
theorem clamped_bounds (value : Int) :
    let atLeast := if value < 0 then 0 else value
    let clamped := if 419430400 < atLeast then 419430400 else atLeast
    0 ≤ shr clamped 12 ∧ shr clamped 12 ≤ 102400 := by
  simp only [shr]
  split_ifs <;> omega

section

variable {calib : Calib} {tFine adcH : Int}

theorem compensateHumidity_computes (offset : Bits 21 (humidityOffset tFine))
    (range : 0 ≤ adcH ∧ adcH < 65536) (unsigned : 0 ≤ calib.digH4.toInt) :
    Computes (compensateHumidity calib tFine adcH)
      (InRange 32 (calib.digH4.toInt * 2 ^ 20) ∧ HumidityFits calib tFine adcH)
      (fun humidity => 0 ≤ humidity ∧ humidity ≤ 102400) := by
  have sixth : Bits 28 (humidityOffset tFine * calib.digH6.toInt) := offset.mul (bits_int8 _)
  have third : Bits 29 (humidityOffset tFine * calib.digH3.toNat) := offset.mul (bits_uint8 _)
  have thirdShifted : Bits 18 (shr (humidityOffset tFine * calib.digH3.toNat) 11) := third.shr
  have base : Bits 18 32768 := bits_of_bounds (by norm_num) (by norm_num)
  have computes : Computes (compensateHumidity calib tFine adcH)
      (InRange 32 (calib.digH4.toInt * 2 ^ 20) ∧ InRange 32 (humidityFifth calib tFine) ∧
        InRange 32 (humidityLeft calib tFine adcH) ∧
        InRange 32 (humidityLeft calib tFine adcH + 16384) ∧
        InRange 32 (humidityGain calib tFine) ∧ InRange 32 (humidityRight calib tFine) ∧
        InRange 32 (humidityRight calib tFine + 8192) ∧
        InRange 32 (humidityProduct calib tFine adcH) ∧
        InRange 32 (humiditySquare calib tFine adcH) ∧
        InRange 32 (humidityCorrection calib tFine adcH) ∧ True)
      (fun humidity => 0 ≤ humidity ∧ humidity ≤ 102400) := by
    refine .always (offset.inRange (by decide)) ?_
    refine .always (inRange_32.mpr (by omega)) ?_
    apply Computes.when
    intro fourth
    rw [inRange_32] at fourth
    refine .always (inRange_32.mpr (by omega)) ?_
    apply Computes.when
    intro _
    apply Computes.when
    intro _
    apply Computes.when
    intro _
    refine .always (sixth.inRange (by decide)) ?_
    refine .always (third.inRange (by decide)) ?_
    refine .always ((thirdShifted.add base).inRange (by decide)) ?_
    apply Computes.when
    intro gain
    have shifted := @shr_bounds 21 10 _ gain
    refine .always (inRange_32.mpr (by omega)) ?_
    apply Computes.when
    intro _
    apply Computes.when
    intro _
    apply Computes.when
    intro product
    apply Computes.when
    intro square
    apply Computes.when
    intro correction
    refine .always (inRange_corrected product square correction) ?_
    exact .return (clamped_bounds _)
  apply computes.congr
  rw [humidityFits_iff, and_true]

end

/-! ### A reading -/

theorem adc20_bounds (high middle low : UInt8) :
    0 ≤ adc20 high middle low ∧ adc20 high middle low < 1048576 := by
  have first := high.toNat_lt
  have second := middle.toNat_lt
  have third := low.toNat_lt
  have below : (high.toNat <<< 12) ||| (middle.toNat <<< 4) ||| (low.toNat >>> 4) < 2 ^ 20 := by
    apply Nat.or_lt_two_pow
    · apply Nat.or_lt_two_pow
      · rw [Nat.shiftLeft_eq]
        omega
      · rw [Nat.shiftLeft_eq]
        omega
    · rw [Nat.shiftRight_eq_div_pow]
      omega
  rw [adc20]
  omega

theorem adc16_bounds (high low : UInt8) : 0 ≤ adc16 high low ∧ adc16 high low < 65536 := by
  have first := high.toNat_lt
  have second := low.toNat_lt
  have below : word high low < 2 ^ 16 := by
    apply Nat.or_lt_two_pow
    · rw [Nat.shiftLeft_eq]
      omega
    · omega
  rw [adc16]
  omega

section

variable (calib : Calib) (raw : Fin 8 → UInt8)

/-- `s_t_fine` of a reading. -/
def readingTFine : Int := tFineOf calib (adc20 (raw 3) (raw 4) (raw 5))

/-- What may leave its type in a reading, `dig_H4 << 20` apart. -/
structure ReadingFits : Prop where
  temperature : TemperatureFits calib (adc20 (raw 3) (raw 4) (raw 5))
  pressure : PressureFits calib (readingTFine calib raw) (adc20 (raw 0) (raw 1) (raw 2))
  humidity : HumidityFits calib (readingTFine calib raw) (adc16 (raw 6) (raw 7))

end

section

variable {calib : Calib} {raw : Fin 8 → UInt8}

theorem compensate_computes (unsigned : 0 ≤ calib.digH4.toInt) :
    Computes (compensate calib raw)
      (InRange 32 (calib.digH4.toInt * 2 ^ 20) ∧ ReadingFits calib raw)
      (fun reading => 0 ≤ reading.humidity ∧ reading.humidity ≤ 102400) := by
  have computes : Computes (compensate calib raw)
      (TemperatureFits calib (adc20 (raw 3) (raw 4) (raw 5)) ∧
        PressureFits calib (readingTFine calib raw) (adc20 (raw 0) (raw 1) (raw 2)) ∧
        (InRange 32 (calib.digH4.toInt * 2 ^ 20) ∧
          HumidityFits calib (readingTFine calib raw) (adc16 (raw 6) (raw 7))) ∧ True)
      (fun reading => 0 ≤ reading.humidity ∧ reading.humidity ≤ 102400) := by
    apply (compensateTemperature_computes (adc20_bounds _ _ _)).bind
    rintro ⟨temperature, tFine⟩ ⟨same, lower, upper⟩
    dsimp only at same lower upper ⊢
    subst same
    have pressureBits : Bits 21 (pressureOffset (readingTFine calib raw)) := by
      apply bits_of_bounds <;> rw [pressureOffset, readingTFine] <;> omega
    have humidityBits : Bits 21 (humidityOffset (readingTFine calib raw)) := by
      apply bits_of_bounds <;> rw [humidityOffset, readingTFine] <;> omega
    apply (compensatePressure_computes pressureBits (adc20_bounds _ _ _)).bind
    intro pressure _
    apply (compensateHumidity_computes humidityBits (adc16_bounds _ _) unsigned).bind
    intro humidity bounds
    exact .return bounds
  apply computes.congr
  constructor
  · rintro ⟨temperature, pressure, ⟨fourth, humidity⟩, -⟩
    exact ⟨fourth, temperature, pressure, humidity⟩
  · rintro ⟨fourth, fits⟩
    exact ⟨fits.temperature, fits.pressure, ⟨fourth, fits.humidity⟩, trivial⟩

end

section

variable {bank00 : Transfer 26} {bank26 : Transfer 7} {old calib : Calib}

theorem digH4_of_accepted (accepted : bme280ReadCalibration bank00 bank26 old = (.ok, calib)) :
    calib.digH4 =
      Int16.ofNat (((bank26.data 3).toNat <<< 4) ||| ((bank26.data 4).toNat &&& 0x0F)) := by
  simp only [bme280ReadCalibration] at accepted
  split_ifs at accepted with first second
  · exact absurd (Prod.mk.inj accepted).1 first
  · exact absurd (Prod.mk.inj accepted).1 second
  · rw [← (Prod.mk.inj accepted).2]

/-- `dig_H4` is never negative: the bits read for it do not reach the sign. -/
theorem digH4_nonneg (accepted : bme280ReadCalibration bank00 bank26 old = (.ok, calib)) :
    0 ≤ calib.digH4.toInt := by
  have high := (bank26.data 3).toNat_lt
  have below : ((bank26.data 3).toNat <<< 4) ||| ((bank26.data 4).toNat &&& 0x0F) < 2 ^ 12 := by
    apply Nat.or_lt_two_pow
    · rw [Nat.shiftLeft_eq]
      omega
    · have nibble : (bank26.data 4).toNat &&& 0x0F < 2 ^ 4 := Nat.and_lt_two_pow _ (by decide)
      omega
  rw [digH4_of_accepted accepted, Int16.toInt_ofNat_of_lt (by omega)]
  exact Int.natCast_nonneg _

/-- `bme280_read` after its three transfers. -/
theorem bme280Read_computes (accepted : bme280ReadCalibration bank00 bank26 old = (.ok, calib))
    (raw : Fin 8 → UInt8) :
    Computes (bme280Read true .ok .ok ⟨.ok, raw⟩ calib)
      (InRange 32 (calib.digH4.toInt * 2 ^ 20) ∧ ReadingFits calib raw)
      (fun result => ∃ reading, result = (.ok, some reading) ∧
        0 ≤ reading.humidity ∧ reading.humidity ≤ 102400) := by
  have computes := @compensate_computes calib raw (digH4_nonneg accepted)
  exact computes.map fun reading => (EspErr.ok, some reading)

/-- **A reading** never divides by 0, and its humidity lies between 0 and 100 percent. Where
`dig_H4 << 20` does, it stays within its types exactly when a few of its products and sums
do. -/
theorem bme280Read_safe_iff (bank00 : Transfer 26) (bank26 : Transfer 7) (old calib : Calib)
    (accepted : bme280ReadCalibration bank00 bank26 old = (.ok, calib)) (raw : Fin 8 → UInt8) :
    bme280Read true .ok .ok ⟨.ok, raw⟩ calib ≠ .error .divisionByZero ∧
      (∀ reading, bme280Read true .ok .ok ⟨.ok, raw⟩ calib = .ok (.ok, some reading) →
        0 ≤ reading.humidity ∧ reading.humidity ≤ 102400) ∧
      (InRange 32 (calib.digH4.toInt * 2 ^ 20) →
        ((∃ reading, bme280Read true .ok .ok ⟨.ok, raw⟩ calib = .ok (.ok, some reading)) ↔
          ReadingFits calib raw)) := by
  have computes := bme280Read_computes accepted raw
  refine ⟨computes.ne_divisionByZero, ?_, ?_⟩
  · intro reading returned
    obtain ⟨found, same, bounds⟩ := computes.holds_of_ok returned
    cases same
    exact bounds
  · intro fourth
    have fits := computes.exists_ok_iff
    rw [and_iff_right fourth] at fits
    rw [← fits]
    constructor
    · rintro ⟨reading, returned⟩
      exact ⟨_, returned⟩
    · rintro ⟨result, returned⟩
      obtain ⟨reading, rfl, -⟩ := computes.holds_of_ok returned
      exact ⟨reading, returned⟩

end

/-- A calibration of zeros. -/
def blankCalib : Calib := ⟨0, 0, 0, 0, 0, 0, 0, 0, 0, 0, 0, 0, 0, 0, 0, 0, 0, 0⟩

/-- The registers of the data sheet's example, and humidity registers beside them. -/
def sampleBank00 : Transfer 26 where
  ret := .ok
  data index := [0x70, 0x6B, 0x43, 0x67, 0x18, 0xFC, 0x7D, 0x8E, 0x43, 0xD6, 0xD0, 0x0B, 0x27,
    0x0B, 0x8C, 0x00, 0xF9, 0xFF, 0x8C, 0x3C, 0xF8, 0xC6, 0x70, 0x17, 0x00, 0x4B].getD index 0

def sampleBank26 : Transfer 7 where
  ret := .ok
  data index := [0x6F, 0x01, 0x00, 0x13, 0x29, 0x03, 0x1E].getD index 0

def sampleCalib : Calib where
  digT1 := 27504
  digT2 := 26435
  digT3 := -1000
  digP1 := 36477
  digP2 := -10685
  digP3 := 3024
  digP4 := 2855
  digP5 := 140
  digP6 := -7
  digP7 := 15500
  digP8 := -14600
  digP9 := 6000
  digH1 := 75
  digH2 := 367
  digH3 := 0
  digH4 := 313
  digH5 := 50
  digH6 := 30

/-- Its raw values: 415148 for the pressure, 519888 for the temperature. -/
def sampleRaw : Fin 8 → UInt8 := ![0x65, 0x5A, 0xC0, 0x7E, 0xED, 0x00, 0x6F, 0x15]

/-- 25.08 degrees, 1006.53 hPa and 46.9 percent. -/
theorem bme280Read_safe_iff_sample :
    bme280ReadCalibration sampleBank00 sampleBank26 blankCalib = (.ok, sampleCalib) ∧
      pressureDivisor sampleCalib (readingTFine sampleCalib sampleRaw) ≠ 0 ∧
      ReadingFits sampleCalib sampleRaw ∧
      bme280Read true .ok .ok ⟨.ok, sampleRaw⟩ sampleCalib =
        .ok (.ok, some ⟨2508, 25767233, 48061⟩) := by
  have accepted : bme280ReadCalibration sampleBank00 sampleBank26 blankCalib =
      (.ok, sampleCalib) := by decide +kernel
  have returned : bme280Read true .ok .ok ⟨.ok, sampleRaw⟩ sampleCalib =
      .ok (.ok, some ⟨2508, 25767233, 48061⟩) := by decide +kernel
  obtain ⟨-, -, fits⟩ := bme280Read_safe_iff _ _ _ _ accepted sampleRaw
  exact ⟨accepted, by decide +kernel, (fits (by decide)).mp ⟨_, returned⟩, returned⟩

/-- The largest `dig_T2` on the largest raw temperature leaves 32 bits. -/
theorem bme280Read_overflows_of_largestT2 :
    ∃ (bank00 : Transfer 26) (bank26 : Transfer 7) (calib : Calib) (raw : Fin 8 → UInt8),
      bme280ReadCalibration bank00 bank26 blankCalib = (.ok, calib) ∧
        bme280Read true .ok .ok ⟨.ok, raw⟩ calib = .error .overflow := by
  refine ⟨⟨.ok, fun index => if index = 2 then 255 else if index = 3 then 127 else 0⟩,
    ⟨.ok, fun _ => 0⟩, { blankCalib with digT2 := 32767 }, fun _ => 255, ?_, ?_⟩
  · decide
  · decide

end WallUnit.Firmware.Bme280
