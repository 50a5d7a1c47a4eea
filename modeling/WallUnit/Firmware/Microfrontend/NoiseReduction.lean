import Mathlib.Data.List.Basic
import Mathlib.Tactic.NormNum
import WallUnit.Foundations.Smoothing

/-!
Owns `NoiseReductionApply` of `noise_reduction.c` with the coefficients that
`frontend_tflm.cc` configures, and its runs over whole recordings: what a channel gives out
stays between a twentieth of its signal and the signal, and a sound that holds its level is
down to that twentieth within 640 frames, whatever went before. That holds of loud signals
too, whose upper bits are lost when they are scaled up.

Does not own the gain control behind it, which reads the estimates.
-/

namespace WallUnit.Firmware.Microfrontend

open WallUnit.Foundations

/-- `kNoiseReductionBits`. -/
def kNoiseReductionBits : Nat := 14

/-- `smoothing_bits` of the configuration. -/
def smoothingBits : Nat := 10

/-- `even_smoothing`: 0.025 of `1 << kNoiseReductionBits`. -/
def evenSmoothing : Nat := 409

/-- `odd_smoothing`: 0.06 of it. -/
def oddSmoothing : Nat := 983

/-- `min_signal_remaining`: 0.05 of it. -/
def minSignalRemaining : Nat := 819

/-- `smoothing` of a channel. -/
def channelSmoothing (channel : Nat) : Nat :=
  if channel &&& 1 = 0 then evenSmoothing else oddSmoothing

/-- One pass of the loop of `NoiseReductionApply`: the new estimate of a channel and what is
left of its signal. -/
def reduceNoise (channel estimate signal : Nat) : Nat × Nat :=
  let smoothing := channelSmoothing channel
  let oneMinusSmoothing := (1 <<< kNoiseReductionBits) - smoothing
  let signalScaledUp := (signal <<< smoothingBits) % 2 ^ 32
  let estimate :=
    ((signalScaledUp * smoothing + estimate * oneMinusSmoothing) >>> kNoiseReductionBits) % 2 ^ 32
  let subtrahend := if signalScaledUp < estimate then signalScaledUp else estimate
  let floor := ((signal * minSignalRemaining) >>> kNoiseReductionBits) % 2 ^ 32
  let subtracted := (signalScaledUp - subtrahend) >>> smoothingBits
  (estimate, if floor < subtracted then subtracted else floor)

/-- `NoiseReductionApply`: `estimates` is `state->estimate`. -/
def noiseReductionApply (estimates signal : List Nat) : List Nat × List Nat :=
  let reduced := (estimates.zip signal).mapIdx
    fun channel values => reduceNoise channel values.1 values.2
  (reduced.map Prod.fst, reduced.map Prod.snd)

/-- The frames of a recording, one after the other. -/
def noiseReductionRun : List Nat → List (List Nat) → List Nat × List (List Nat)
  | estimates, [] => (estimates, [])
  | estimates, signal :: rest =>
      let applied := noiseReductionApply estimates signal
      let after := noiseReductionRun applied.1 rest
      (after.1, applied.2 :: after.2)

/-- The least of a signal that the stage leaves. -/
def signalFloor (signal : Nat) : Nat := signal * minSignalRemaining / 2 ^ 14

/-- The frames a signal that holds its level takes at most to get down to its floor. -/
def settleFrames : Nat := 640

/-! ### One channel, one frame -/

section

variable {channel estimate signal : Nat}

theorem channelSmoothing_mem (channel : Nat) :
    channelSmoothing channel = 409 ∨ channelSmoothing channel = 983 := by
  rw [channelSmoothing]
  split_ifs
  · exact Or.inl rfl
  · exact Or.inr rfl

theorem channelSmoothing_le (channel : Nat) : channelSmoothing channel ≤ 2 ^ 14 := by
  rcases channelSmoothing_mem channel with even | odd <;> omega

/-- Scaled up, a signal loses what does not fit its register. -/
theorem signalScaledUp_eq (signal : Nat) :
    (signal <<< smoothingBits) % 2 ^ 32 = signal % 2 ^ 22 * 2 ^ 10 := by
  rw [Nat.shiftLeft_eq, smoothingBits]
  exact Nat.mul_mod_mul_right (2 ^ 10) signal (2 ^ 22)

/-- The estimate is smoothed towards what was scaled up. -/
theorem reduceNoise_estimate (bounded : estimate < 2 ^ 32) :
    (reduceNoise channel estimate signal).1
      = smooth (2 ^ 14) (channelSmoothing channel) (signal % 2 ^ 22 * 2 ^ 10) estimate := by
  have small : signal % 2 ^ 22 < 2 ^ 22 := Nat.mod_lt _ (by decide)
  have within : smooth (2 ^ 14) (channelSmoothing channel) (signal % 2 ^ 22 * 2 ^ 10) estimate
      ≤ 2 ^ 32 - 1 :=
    smooth_le (channelSmoothing_le channel) (by omega) (by omega)
  rw [reduceNoise]
  dsimp only
  rw [signalScaledUp_eq, Nat.shiftRight_eq_div_pow, kNoiseReductionBits, Nat.one_shiftLeft]
  rw [smooth] at within ⊢
  exact Nat.mod_eq_of_lt (by omega)

theorem reduceNoise_estimate_lt (channel estimate signal : Nat) :
    (reduceNoise channel estimate signal).1 < 2 ^ 32 :=
  Nat.mod_lt _ (by decide)

/-- What is left: the scaled difference to the new estimate, but never less than the floor. -/
theorem reduceNoise_output (word : signal < 2 ^ 32) :
    (reduceNoise channel estimate signal).2
      = max (signalFloor signal)
          ((signal % 2 ^ 22 * 2 ^ 10 - (reduceNoise channel estimate signal).1) / 2 ^ 10) := by
  have floor : ((signal * minSignalRemaining) >>> kNoiseReductionBits) % 2 ^ 32
      = signalFloor signal := by
    rw [Nat.shiftRight_eq_div_pow, kNoiseReductionBits, signalFloor, minSignalRemaining]
    exact Nat.mod_eq_of_lt (by omega)
  rw [reduceNoise]
  dsimp only
  rw [floor, signalScaledUp_eq, Nat.shiftRight_eq_div_pow, smoothingBits, Nat.max_def]
  split_ifs <;> omega

theorem reduceNoise_output_between (word : signal < 2 ^ 32) :
    signalFloor signal ≤ (reduceNoise channel estimate signal).2 ∧
      (reduceNoise channel estimate signal).2 ≤ signal := by
  rw [reduceNoise_output word]
  refine ⟨Nat.le_max_left _ _, Nat.max_le.mpr ⟨?_, ?_⟩⟩
  · rw [signalFloor, minSignalRemaining]
    omega
  · omega

end

/-! ### One channel, many frames -/

section

variable {channel estimate value : Nat} {estimates signal : List Nat}

theorem noiseReductionApply_channel (held : estimates[channel]? = some estimate)
    (heard : signal[channel]? = some value) :
    (noiseReductionApply estimates signal).1[channel]?
        = some (reduceNoise channel estimate value).1 ∧
      (noiseReductionApply estimates signal).2[channel]?
        = some (reduceNoise channel estimate value).2 := by
  have both : (estimates.zip signal)[channel]? = some (estimate, value) :=
    List.getElem?_zip_eq_some.mpr ⟨held, heard⟩
  rw [noiseReductionApply]
  dsimp only
  rw [List.getElem?_map, List.getElem?_map, List.getElem?_mapIdx, both]
  exact ⟨rfl, rfl⟩

theorem noiseReductionRun_append (estimates : List Nat) (first second : List (List Nat)) :
    noiseReductionRun estimates (first ++ second)
      = ((noiseReductionRun (noiseReductionRun estimates first).1 second).1,
        (noiseReductionRun estimates first).2
          ++ (noiseReductionRun (noiseReductionRun estimates first).1 second).2) := by
  induction first generalizing estimates with
  | nil => rfl
  | cons signal rest inductionHypothesis =>
      rw [List.cons_append, noiseReductionRun, noiseReductionRun, inductionHypothesis]
      rfl

theorem length_noiseReductionRun (estimates : List Nat) (frames : List (List Nat)) :
    (noiseReductionRun estimates frames).2.length = frames.length := by
  induction frames generalizing estimates with
  | nil => rfl
  | cons signal rest inductionHypothesis =>
      rw [noiseReductionRun, List.length_cons, List.length_cons, inductionHypothesis]

/-- Estimates stay in their registers whatever the signals are. -/
theorem noiseReductionRun_estimate {frames : List (List Nat)}
    (held : estimates[channel]? = some estimate) (bounded : estimate < 2 ^ 32)
    (wide : ∀ signal ∈ frames, channel < signal.length) :
    ∃ after, (noiseReductionRun estimates frames).1[channel]? = some after ∧
      after < 2 ^ 32 := by
  induction frames generalizing estimates estimate with
  | nil => exact ⟨estimate, held, bounded⟩
  | cons signal rest inductionHypothesis =>
      have heard := List.getElem?_eq_getElem (wide signal List.mem_cons_self)
      rw [noiseReductionRun]
      exact inductionHypothesis (noiseReductionApply_channel held heard).1
        (reduceNoise_estimate_lt _ _ _)
        fun later member => wide later (List.mem_cons_of_mem signal member)

/-- Every output lies between the floor and the signal it is left of. -/
theorem noiseReductionRun_between {frames : List (List Nat)} {index : Nat}
    (held : estimates[channel]? = some estimate)
    (wide : ∀ signal ∈ frames, channel < signal.length)
    (frame : frames[index]? = some signal) (heard : signal[channel]? = some value)
    (word : value < 2 ^ 32) :
    ∃ output left, (noiseReductionRun estimates frames).2[index]? = some output ∧
      output[channel]? = some left ∧ signalFloor value ≤ left ∧ left ≤ value := by
  induction frames generalizing estimates estimate index with
  | nil => exact absurd frame (by simp)
  | cons first rest inductionHypothesis =>
      rw [noiseReductionRun]
      cases index with
      | zero =>
          obtain rfl : first = signal := Option.some.inj frame
          exact ⟨_, _, rfl, (noiseReductionApply_channel held heard).2,
            reduceNoise_output_between word⟩
      | succ index =>
          have before := List.getElem?_eq_getElem (wide first List.mem_cons_self)
          exact inductionHypothesis (noiseReductionApply_channel held before).1
            (fun later member => wide later (List.mem_cons_of_mem first member)) frame

/-- On a channel that holds its level the estimate settles on that level. -/
theorem noiseReductionRun_held {frames : List (List Nat)} {level index : Nat}
    (held : estimates[channel]? = some estimate) (bounded : estimate < 2 ^ 32)
    (steady : ∀ signal ∈ frames, signal[channel]? = some level) (word : level < 2 ^ 32)
    (within : index < frames.length) :
    ∃ output, (noiseReductionRun estimates frames).2[index]? = some output ∧
      output[channel]? = some (max (signalFloor level)
        ((level % 2 ^ 22 * 2 ^ 10 - settle (2 ^ 14) (channelSmoothing channel)
          (level % 2 ^ 22 * 2 ^ 10) (index + 1) estimate) / 2 ^ 10)) := by
  induction frames generalizing estimates estimate index with
  | nil => exact absurd within (Nat.not_lt_zero index)
  | cons signal rest inductionHypothesis =>
      have heard := steady signal List.mem_cons_self
      obtain ⟨estimated, left⟩ := noiseReductionApply_channel held heard
      rw [noiseReductionRun]
      cases index with
      | zero =>
          refine ⟨_, rfl, ?_⟩
          rw [left, reduceNoise_output word, reduceNoise_estimate bounded]
          rfl
      | succ index =>
          rw [reduceNoise_estimate bounded] at estimated
          refine inductionHypothesis estimated ?_
            (fun later member => steady later (List.mem_cons_of_mem signal member))
            (Nat.lt_of_succ_lt_succ within)
          rw [← reduceNoise_estimate bounded]
          exact reduceNoise_estimate_lt _ _ _

/-- What halves in 29 frames has halved 22 times after 638, and two frames are left. -/
theorem halvings_settle {rate scale : Nat} (halved : 2 * rate ^ 29 ≤ scale ^ 29)
    (slower : rate < scale) :
    2 ^ 32 * rate ^ settleFrames < 2 ^ 10 * scale ^ settleFrames := by
  have halvings : (2 * rate ^ 29) ^ 22 ≤ (scale ^ 29) ^ 22 := Nat.pow_le_pow_left halved 22
  have twoMore : rate ^ 2 < scale ^ 2 := Nat.pow_lt_pow_left slower (by decide)
  have positive : 0 < (scale ^ 29) ^ 22 :=
    Nat.pow_pos (Nat.pow_pos (Nat.lt_of_le_of_lt (Nat.zero_le rate) slower))
  calc 2 ^ 32 * rate ^ settleFrames = 2 ^ 10 * ((2 * rate ^ 29) ^ 22 * rate ^ 2) := by
        rw [settleFrames]
        ring
    _ < 2 ^ 10 * ((scale ^ 29) ^ 22 * scale ^ 2) := by
        refine Nat.mul_lt_mul_of_pos_left ?_ (by decide)
        exact Nat.mul_lt_mul_of_le_of_lt halvings twoMore positive
    _ = 2 ^ 10 * scale ^ settleFrames := by
        rw [settleFrames]
        ring

/-- 640 frames shrink the distance to the level below one unit of the signal. -/
theorem settled_within_unit {level steps : Nat} (small : level < 2 ^ 22)
    (late : settleFrames ≤ steps) :
    level * 2 ^ 10 - settle (2 ^ 14) (channelSmoothing channel) (level * 2 ^ 10) steps estimate
      < 2 ^ 10 := by
  have within := channelSmoothing_le channel
  by_cases below : estimate ≤ level * 2 ^ 10
  · -- 16 parts of the scale pay for the rounding while the distance is a unit or more
    refine settle_near (by decide) within (by decide : 2 ^ 14 ≤ 2 ^ 10 * 16) below ?_ late
    have slower : 2 ^ 14 - channelSmoothing channel + 16 ≤ 15991 := by
      rcases channelSmoothing_mem channel with smoothing | smoothing <;> omega
    calc level * 2 ^ 10 * (2 ^ 14 - channelSmoothing channel + 16) ^ settleFrames
        ≤ 2 ^ 32 * 15991 ^ settleFrames :=
          Nat.mul_le_mul (by omega) (Nat.pow_le_pow_left slower settleFrames)
      _ < 2 ^ 10 * (2 ^ 14) ^ settleFrames := halvings_settle (by norm_num) (by decide)
  · have above :=
      le_settle (by decide : 0 < 2 ^ 14) within (Nat.le_of_not_le below) steps
    omega

end

/-! ### Stationary noise -/

/-- Over any recording of 32-bit signals: a channel keeps at least the floor of its signal and at
most the signal, and from the 640th frame of a stretch at one level on it is at the floor
exactly. -/
theorem stationary_noise_removed {estimates : List Nat} {history steady : List (List Nat)}
    {channel level : Nat} (bounded : ∀ estimate ∈ estimates, estimate < 2 ^ 32)
    (words : ∀ signal ∈ history ++ steady, ∀ value ∈ signal, value < 2 ^ 32)
    (inside : channel < estimates.length)
    (wide : ∀ signal ∈ history, channel < signal.length)
    (held : ∀ signal ∈ steady, signal[channel]? = some level) :
    (∀ (index : Nat) (signal : List Nat) (value : Nat),
        (history ++ steady)[index]? = some signal → signal[channel]? = some value →
        ∃ output left, (noiseReductionRun estimates (history ++ steady)).2[index]? = some output ∧
          output[channel]? = some left ∧ signalFloor value ≤ left ∧ left ≤ value) ∧
      ∀ index, settleFrames ≤ index + 1 → index < steady.length →
        ∃ output, (noiseReductionRun estimates (history ++ steady)).2[history.length + index]?
            = some output ∧
          output[channel]? = some (signalFloor level) := by
  have first := List.getElem?_eq_getElem inside
  constructor
  · intro index signal value frame heard
    have word : value < 2 ^ 32 :=
      words signal (List.mem_of_getElem? frame) value (List.mem_of_getElem? heard)
    refine noiseReductionRun_between first (fun signal member => ?_) frame heard word
    rcases List.mem_append.mp member with before | after
    · exact wide signal before
    · exact (List.getElem?_eq_some_iff.mp (held signal after)).1
  · intro index late within
    have last := List.getElem_mem within
    have word : level < 2 ^ 32 :=
      words _ (List.mem_append_right _ last) level (List.mem_of_getElem? (held _ last))
    obtain ⟨estimate, reached, estimateBounded⟩ :=
      noiseReductionRun_estimate first (bounded _ (List.getElem_mem inside)) wide
    obtain ⟨output, given, settled⟩ :=
      noiseReductionRun_held reached estimateBounded held word within
    refine ⟨output, ?_, ?_⟩
    · rw [noiseReductionRun_append, List.getElem?_append_right (by
          rw [length_noiseReductionRun]
          exact Nat.le_add_right _ _),
        length_noiseReductionRun, Nat.add_sub_cancel_left]
      exact given
    · have unit := @settled_within_unit channel estimate (level % 2 ^ 22) (index + 1)
        (Nat.mod_lt _ (by decide)) late
      rw [settled, Nat.div_eq_of_lt unit, Nat.max_zero]

/-- A channel that has hummed for 640 frames, at a level that does not fit its register scaled
up, after a second of another sound. -/
theorem stationary_noise_removed_hum :
    ∃ output, (noiseReductionRun [0, 0] (List.replicate 100 [70, 90]
        ++ List.replicate 640 [30, 5000000])).2[739]? = some output ∧
      output[1]? = some (signalFloor 5000000) := by
  have removed := (@stationary_noise_removed [0, 0] (List.replicate 100 [70, 90])
    (List.replicate 640 [30, 5000000]) 1 5000000 (by decide)
    (fun signal member => by
      rcases List.mem_append.mp member with before | after
      · rw [List.eq_of_mem_replicate before]
        decide
      · rw [List.eq_of_mem_replicate after]
        decide)
    (by decide)
    (fun signal member => by rw [List.eq_of_mem_replicate member]; decide)
    (fun signal member => by rw [List.eq_of_mem_replicate member]; rfl)).2
  have reached := removed 639 (by decide) (by rw [List.length_replicate]; decide)
  rwa [List.length_replicate] at reached

end WallUnit.Firmware.Microfrontend
