import WallUnit.Firmware.Microfrontend.Roots
import WallUnit.Foundations.Packing

/-!
Owns the filterbank of the microfrontend: how `FilterbankPopulateState` packs the weights of all
channels into two arrays, aligned and padded to blocks with one block of zeros for the channels
without frequencies, and how a frame runs through it in place, from the FFT's complex values to
the square roots. Whatever the packing, each channel is a triangle over the spectrum:
`filterbank_triangular`.

Does not own the mel scale. Which frequencies a channel reaches and their quantized weights are
given, with what the float computation promises of them.
-/

namespace WallUnit.Firmware.Microfrontend

open WallUnit.Foundations

/-- `kFilterbankBits`. -/
def kFilterbankBits : Nat := 12

/-- `index_alignment`: `kFilterbankIndexAlignment / sizeof(int16_t)`. -/
def indexAlignment : Nat := 2

/-- `kFilterbankChannelBlockSize`. -/
def kFilterbankChannelBlockSize : Nat := 4

/-- What `FilterbankPopulateState` computes with floats. `reaches` is the test of its loop,
`FreqToMel(freq_index * hz_per_sbin) <= center_mel_freqs[chan]`, which fails from some frequency
on, and `quantized` what `QuantizeFilterbankWeights` makes of a weight between 0 and 1. -/
structure FilterbankDesign where
  numChannels : Nat
  startIndex : Nat
  spectrumSize : Nat
  reaches : Nat → Nat → Bool
  limit : Nat
  stops : ∀ chan freq, limit ≤ freq → reaches chan freq = false
  quantized : Nat → Nat → Nat × Nat
  quantized_le : ∀ chan freq,
    (quantized chan freq).1 ≤ 2 ^ kFilterbankBits ∧ (quantized chan freq).2 ≤ 2 ^ kFilterbankBits

/-- `struct FilterbankState` without its work buffer. -/
structure FilterbankState where
  numChannels : Nat
  startIndex : Nat
  endIndex : Nat
  channelFrequencyStarts : List Nat
  channelWeightStarts : List Nat
  channelWidths : List Nat
  weights : List Nat
  unweights : List Nat
deriving DecidableEq, Repr

/-! ### Populating -/

/-- `while (…) { ++freq_index; }`, with as many rounds as are left to the limit. -/
def advance (reaches : Nat → Bool) : Nat → Nat → Nat
  | 0, freqIndex => freqIndex
  | rounds + 1, freqIndex =>
      if reaches freqIndex then advance reaches rounds (freqIndex + 1) else freqIndex

def FilterbankDesign.freqIndex (design : FilterbankDesign) (chan start : Nat) : Nat :=
  advance (design.reaches chan) (design.limit - start) start

/-- The variables of the first pass. -/
structure Layout where
  chanFreqIndexStart : Nat
  weightIndexStart : Nat
  needsZeros : Bool
  actualChannelStarts : List Nat
  actualChannelWidths : List Nat
  channelFrequencyStarts : List Nat
  channelWeightStarts : List Nat
  channelWidths : List Nat
deriving DecidableEq, Repr

def alignedStart (start : Nat) : Nat := start / indexAlignment * indexAlignment

def paddedWidth (start width : Nat) : Nat :=
  ((start - alignedStart start + width - 1) / kFilterbankChannelBlockSize + 1) *
    kFilterbankChannelBlockSize

/-- A channel of the first pass. The first one without frequencies shifts what is already laid
out behind the zeros. -/
def Layout.place (layout : Layout) (freqIndex : Nat) : Layout :=
  let start := layout.chanFreqIndexStart
  let width := freqIndex - start
  if width = 0 then
    { chanFreqIndexStart := freqIndex
      weightIndexStart :=
        if layout.needsZeros then layout.weightIndexStart
        else layout.weightIndexStart + kFilterbankChannelBlockSize
      needsZeros := true
      actualChannelStarts := layout.actualChannelStarts ++ [start]
      actualChannelWidths := layout.actualChannelWidths ++ [width]
      channelFrequencyStarts := layout.channelFrequencyStarts ++ [0]
      channelWeightStarts :=
        (if layout.needsZeros then layout.channelWeightStarts
        else layout.channelWeightStarts.map (· + kFilterbankChannelBlockSize)) ++ [0]
      channelWidths := layout.channelWidths ++ [kFilterbankChannelBlockSize] }
  else
    { chanFreqIndexStart := freqIndex
      weightIndexStart := layout.weightIndexStart + paddedWidth start width
      needsZeros := layout.needsZeros
      actualChannelStarts := layout.actualChannelStarts ++ [start]
      actualChannelWidths := layout.actualChannelWidths ++ [width]
      channelFrequencyStarts := layout.channelFrequencyStarts ++ [alignedStart start]
      channelWeightStarts := layout.channelWeightStarts ++ [layout.weightIndexStart]
      channelWidths := layout.channelWidths ++ [paddedWidth start width] }

/-- The first pass, after so many channels. -/
def FilterbankDesign.layout (design : FilterbankDesign) : Nat → Layout
  | 0 => ⟨design.startIndex, 0, false, [], [], [], [], []⟩
  | chan + 1 =>
      (design.layout chan).place
        (design.freqIndex chan (design.layout chan).chanFreqIndexStart)

/-- Where the second pass writes the weights of a channel, and which. -/
def FilterbankDesign.weightRun (design : FilterbankDesign) (layout : Layout)
    (select : Nat × Nat → Nat) (chan : Nat) : Nat × List Nat :=
  let frequency := layout.actualChannelStarts.getD chan 0
  let frequencyOffset := frequency - layout.channelFrequencyStarts.getD chan 0
  (layout.channelWeightStarts.getD chan 0 + frequencyOffset,
    (List.range (layout.actualChannelWidths.getD chan 0)).map fun j =>
      select (design.quantized chan (frequency + j)))

/-- The second pass over one of the two arrays, which `calloc` has zeroed. -/
def FilterbankDesign.fill (design : FilterbankDesign) (layout : Layout)
    (select : Nat × Nat → Nat) : List Nat :=
  writeRuns (List.replicate layout.weightIndexStart 0)
    ((List.range (design.numChannels + 1)).map (design.weightRun layout select))

/-- `end_index`: the largest frequency the second pass ends a channel at. -/
def FilterbankDesign.endIndex (design : FilterbankDesign) (layout : Layout) : Nat :=
  (List.range (design.numChannels + 1)).foldl (fun endIndex chan =>
    max endIndex (layout.actualChannelStarts.getD chan 0 +
      layout.actualChannelWidths.getD chan 0)) 0

/-- `FilterbankPopulateState`. -/
def filterbankPopulateState (design : FilterbankDesign) (allocated : Bool) :
    Option FilterbankState :=
  let layout := design.layout (design.numChannels + 1)
  if !allocated then none
  else if design.spectrumSize ≤ design.endIndex layout then none
  else
    some {
      numChannels := design.numChannels
      startIndex := design.startIndex
      endIndex := design.endIndex layout
      channelFrequencyStarts := layout.channelFrequencyStarts
      channelWeightStarts := layout.channelWeightStarts
      channelWidths := layout.channelWidths
      weights := design.fill layout Prod.fst
      unweights := design.fill layout Prod.snd }

/-! ### A frame -/

/-- Half of a word as `int16_t`. -/
def signed16 (half : Nat) : Int := if half < 2 ^ 15 then half else (half : Int) - 2 ^ 16

/-- `mag_squared` of a word of the FFT's output, the real part in its lower half. -/
def magSquared (word : Nat) : Nat :=
  let real := signed16 (word % 2 ^ 16)
  let imag := signed16 (word / 2 ^ 16 % 2 ^ 16)
  (real * real + imag * imag).toNat % 2 ^ 32

/-- The loop of `FilterbankConvertFftComplexToEnergy`; `energy` is the FFT's output buffer. -/
def convertLoop : Nat → Nat → List Nat → List Nat
  | 0, _, memory => memory
  | rounds + 1, index, memory =>
      convertLoop rounds (index + 1) (memory.set index (magSquared (memory.getD index 0)))

/-- `FilterbankConvertFftComplexToEnergy`. -/
def filterbankConvertFftComplexToEnergy (state : FilterbankState) (memory : List Nat) : List Nat :=
  convertLoop (state.endIndex - state.startIndex) state.startIndex memory

/-- `(uint64_t)*magnitudes` of an `int32_t`. -/
def magnitude (word : Nat) : Nat := if word < 2 ^ 31 then word else word + 2 ^ 64 - 2 ^ 32

/-- `FilterbankAccumulateChannels` at one channel: both accumulators after its loop. -/
def accumulateChannel (state : FilterbankState) (energy : List Nat) (chan weightAccumulator
    unweightAccumulator : Nat) : Nat × Nat :=
  (List.range (state.channelWidths.getD chan 0)).foldl (fun accumulators j =>
    let place := state.channelWeightStarts.getD chan 0 + j
    let magnitude := magnitude (energy.getD (state.channelFrequencyStarts.getD chan 0 + j) 0)
    ((accumulators.1 + state.weights.getD place 0 * magnitude) % 2 ^ 64,
      (accumulators.2 + state.unweights.getD place 0 * magnitude) % 2 ^ 64))
    (weightAccumulator, unweightAccumulator)

/-- The loop over the channels, from one on. What is left of a channel's `unweights` starts the
next one. -/
def accumulateLoop (state : FilterbankState) (energy : List Nat) :
    Nat → Nat → Nat → List Nat
  | 0, _, _ => []
  | rounds + 1, chan, weightAccumulator =>
      let accumulators := accumulateChannel state energy chan weightAccumulator 0
      accumulators.1 :: accumulateLoop state energy rounds (chan + 1) accumulators.2

/-- `FilterbankAccumulateChannels`: the work buffer. -/
def filterbankAccumulateChannels (state : FilterbankState) (energy : List Nat) : List Nat :=
  accumulateLoop state energy (state.numChannels + 1) 0 0

/-- The work buffer as the 32-bit words that `output` points to. -/
def workWords (work : List Nat) : List Nat :=
  work.flatMap fun value => [value % 2 ^ 32, value / 2 ^ 32]

/-- The loop of `FilterbankSqrt`, which writes `output[i]` over what `work` has been read. -/
def sqrtLoop (scaleDownShift : Nat) : Nat → Nat → List Nat → List Nat
  | 0, _, words => words
  | rounds + 1, i, words =>
      let work := words.getD (2 * (i + 1)) 0 + 2 ^ 32 * words.getD (2 * (i + 1) + 1) 0
      sqrtLoop scaleDownShift rounds (i + 1) (words.set i (sqrt64 work >>> scaleDownShift))

/-- `FilterbankSqrt`. -/
def filterbankSqrt (state : FilterbankState) (scaleDownShift : Nat) (work : List Nat) : List Nat :=
  (sqrtLoop scaleDownShift state.numChannels 0 (workWords work)).take state.numChannels

/-- The filterbank's part of `FrontendProcessSamples`. -/
def filterbankFrame (state : FilterbankState) (inputShift : Nat) (fftOutput : List Nat) :
    List Nat :=
  filterbankSqrt state inputShift
    (filterbankAccumulateChannels state (filterbankConvertFftComplexToEnergy state fftOutput))

/-! ### The layout -/

section

variable (design : FilterbankDesign)

/-- The frequency at which a channel starts and the one before it ends. -/
def FilterbankDesign.edge : Nat → Nat
  | 0 => design.startIndex
  | chan + 1 => design.freqIndex chan (FilterbankDesign.edge chan)

def FilterbankDesign.width (chan : Nat) : Nat := design.edge (chan + 1) - design.edge chan

/-- The room a channel takes in the arrays. -/
def FilterbankDesign.padded (chan : Nat) : Nat :=
  if design.width chan = 0 then 0 else paddedWidth (design.edge chan) (design.width chan)

def FilterbankDesign.packed (chan : Nat) : Nat :=
  ∑ before ∈ Finset.range chan, design.padded before

def FilterbankDesign.needsZeros (count : Nat) : Bool :=
  (List.range count).any fun chan => design.width chan = 0

/-- The room the block of zeros takes. -/
def FilterbankDesign.zeros (count : Nat) : Nat :=
  if design.needsZeros count then kFilterbankChannelBlockSize else 0

def FilterbankDesign.frequencyStart (chan : Nat) : Nat :=
  if design.width chan = 0 then 0 else alignedStart (design.edge chan)

def FilterbankDesign.weightStart (count chan : Nat) : Nat :=
  if design.width chan = 0 then 0 else design.zeros count + design.packed chan

def FilterbankDesign.channelWidth (chan : Nat) : Nat :=
  if design.width chan = 0 then kFilterbankChannelBlockSize else design.padded chan

variable {design}

theorem advance_spec (reaches : Nat → Bool) (rounds start : Nat) :
    start ≤ advance reaches rounds start ∧ advance reaches rounds start ≤ start + rounds ∧
      (∀ freq, start ≤ freq → freq < advance reaches rounds start → reaches freq = true) ∧
      (advance reaches rounds start < start + rounds →
        reaches (advance reaches rounds start) = false) := by
  induction rounds generalizing start with
  | zero =>
      refine ⟨Nat.le_refl _, Nat.le_refl _, fun freq low high => ?_, fun short => ?_⟩
      · exact absurd high (Nat.not_lt_of_le low)
      · exact absurd short (Nat.lt_irrefl _)
  | succ rounds inductionHypothesis =>
      rw [advance]
      by_cases on : reaches start = true
      · rw [if_pos on]
        obtain ⟨low, high, inside, stop⟩ := inductionHypothesis (start + 1)
        refine ⟨by omega, by omega, fun freq first last => ?_, fun short => stop (by omega)⟩
        rcases Nat.eq_or_lt_of_le first with rfl | later
        · exact on
        · exact inside freq later last
      · rw [if_neg on]
        refine ⟨Nat.le_refl _, by omega, fun freq low high => ?_, fun _ => ?_⟩
        · exact absurd high (Nat.not_lt_of_le low)
        · exact Bool.not_eq_true _ ▸ on

theorem edge_le (chan : Nat) : design.edge chan ≤ design.edge (chan + 1) :=
  (advance_spec (design.reaches chan) _ _).1

theorem edge_mono {first last : Nat} (order : first ≤ last) :
    design.edge first ≤ design.edge last :=
  monotone_nat_of_le_succ edge_le order

theorem edge_add_width (chan : Nat) :
    design.edge chan + design.width chan = design.edge (chan + 1) := by
  have order := @edge_le design chan
  rw [FilterbankDesign.width]
  omega

/-- A channel takes the frequencies it reaches, up to the first one it does not. -/
theorem edge_spec (chan : Nat) :
    (∀ freq, design.edge chan ≤ freq → freq < design.edge (chan + 1) →
      design.reaches chan freq = true) ∧
      design.reaches chan (design.edge (chan + 1)) = false := by
  obtain ⟨low, high, inside, stop⟩ := advance_spec (design.reaches chan)
    (design.limit - design.edge chan) (design.edge chan)
  refine ⟨inside, ?_⟩
  rcases Nat.lt_or_ge (design.edge (chan + 1)) design.limit with before | behind
  · exact stop (show design.edge (chan + 1) < _ by omega)
  · exact design.stops chan _ behind

theorem needsZeros_succ (count : Nat) : design.needsZeros (count + 1) =
    (design.needsZeros count || decide (design.width count = 0)) := by
  rw [FilterbankDesign.needsZeros, List.range_succ, List.any_append, List.any_cons, List.any_nil,
    Bool.or_false, FilterbankDesign.needsZeros]

theorem packed_succ (chan : Nat) :
    design.packed (chan + 1) = design.packed chan + design.padded chan :=
  Finset.sum_range_succ _ _

theorem width_ne_zero_of_needsZeros {count chan : Nat} (none_ : design.needsZeros count = false)
    (within : chan < count) : design.width chan ≠ 0 := by
  have all := List.any_eq_false.mp none_ chan (List.mem_range.mpr within)
  exact fun zero => all (decide_eq_true zero)

/-- A channel with frequencies shifts nothing. -/
theorem weightStarts_wide {count : Nat} (wide : design.width count ≠ 0) :
    (List.range count).map (design.weightStart count) ++
        [design.zeros count + design.packed count] =
      (List.range (count + 1)).map (design.weightStart (count + 1)) := by
  have same : design.zeros (count + 1) = design.zeros count := by
    rw [FilterbankDesign.zeros, needsZeros_succ, decide_eq_false wide, Bool.or_false,
      FilterbankDesign.zeros]
  have starts : design.weightStart (count + 1) = design.weightStart count := by
    funext chan
    rw [FilterbankDesign.weightStart, same, FilterbankDesign.weightStart]
  rw [List.range_succ, List.map_append, List.map_singleton, starts,
    FilterbankDesign.weightStart, if_neg wide]

/-- The first channel without frequencies shifts all the others. -/
theorem weightStarts_empty {count : Nat} (empty : design.width count = 0) :
    (if design.needsZeros count then (List.range count).map (design.weightStart count)
      else ((List.range count).map (design.weightStart count)).map
        (· + kFilterbankChannelBlockSize)) ++ [0] =
      (List.range (count + 1)).map (design.weightStart (count + 1)) := by
  have now : design.zeros (count + 1) = kFilterbankChannelBlockSize := by
    rw [FilterbankDesign.zeros, needsZeros_succ, decide_eq_true empty, Bool.or_true, if_pos rfl]
  rw [List.range_succ, List.map_append, List.map_singleton]
  have last : design.weightStart (count + 1) count = 0 := by
    rw [FilterbankDesign.weightStart, if_pos empty]
  rw [last]
  congr 1
  cases before : design.needsZeros count with
  | true =>
      have already : design.zeros count = kFilterbankChannelBlockSize := by
        rw [FilterbankDesign.zeros, before, if_pos rfl]
      rw [if_pos rfl]
      apply List.map_congr_left
      intro chan _
      rw [FilterbankDesign.weightStart, already, FilterbankDesign.weightStart, now]
  | false =>
      have none_ : design.zeros count = 0 := by
        rw [FilterbankDesign.zeros, before, if_neg Bool.false_ne_true]
      rw [if_neg Bool.false_ne_true, List.map_map]
      apply List.map_congr_left
      intro chan member
      have wide := width_ne_zero_of_needsZeros before (List.mem_range.mp member)
      rw [Function.comp, FilterbankDesign.weightStart, if_neg wide, FilterbankDesign.weightStart,
        if_neg wide, none_, now]
      omega

/-- The first pass, channel by channel. -/
theorem layout_eq (count : Nat) : design.layout count =
    { chanFreqIndexStart := design.edge count
      weightIndexStart := design.zeros count + design.packed count
      needsZeros := design.needsZeros count
      actualChannelStarts := (List.range count).map design.edge
      actualChannelWidths := (List.range count).map design.width
      channelFrequencyStarts := (List.range count).map design.frequencyStart
      channelWeightStarts := (List.range count).map (design.weightStart count)
      channelWidths := (List.range count).map design.channelWidth } := by
  induction count with
  | zero => rfl
  | succ count inductionHypothesis =>
      rw [FilterbankDesign.layout, inductionHypothesis]
      have width : design.freqIndex count (design.edge count) - design.edge count =
          design.width count := rfl
      have snoc (item : Nat → Nat) : (List.range (count + 1)).map item =
          (List.range count).map item ++ [item count] := by
        rw [List.range_succ, List.map_append, List.map_singleton]
      simp only [Layout.place, width]
      by_cases empty : design.width count = 0
      · have now : design.zeros (count + 1) = kFilterbankChannelBlockSize := by
          rw [FilterbankDesign.zeros, needsZeros_succ, decide_eq_true empty, Bool.or_true,
            if_pos rfl]
        rw [if_pos empty, weightStarts_empty empty]
        simp only [Layout.mk.injEq]
        refine ⟨rfl, ?_, ?_, ?_, ?_, ?_, trivial, ?_⟩
        · rw [now, packed_succ, FilterbankDesign.padded, if_pos empty, FilterbankDesign.zeros]
          split_ifs <;> omega
        · rw [needsZeros_succ, decide_eq_true empty, Bool.or_true]
        · rw [snoc]
        · rw [snoc]
        · rw [snoc, FilterbankDesign.frequencyStart, if_pos empty]
        · rw [snoc, FilterbankDesign.channelWidth, if_pos empty]
      · have same : design.zeros (count + 1) = design.zeros count := by
          rw [FilterbankDesign.zeros, needsZeros_succ, decide_eq_false empty, Bool.or_false,
            FilterbankDesign.zeros]
        have padded : paddedWidth (design.edge count) (design.width count) =
            design.padded count := by
          rw [FilterbankDesign.padded, if_neg empty]
        rw [if_neg empty, weightStarts_wide empty, padded]
        simp only [Layout.mk.injEq]
        refine ⟨rfl, ?_, ?_, ?_, ?_, ?_, trivial, ?_⟩
        · rw [same, packed_succ, Nat.add_assoc]
        · rw [needsZeros_succ, decide_eq_false empty, Bool.or_false]
        · rw [snoc]
        · rw [snoc]
        · rw [snoc, FilterbankDesign.frequencyStart, if_neg empty]
        · rw [snoc, FilterbankDesign.channelWidth, if_neg empty]

/-! ### The weights -/

/-- Where the weights of a channel begin behind its padding. -/
def FilterbankDesign.offset (design : FilterbankDesign) (chan : Nat) : Nat :=
  design.edge chan - design.frequencyStart chan

theorem getD_map_range {item : Nat → Nat} {count index : Nat} (within : index < count) :
    ((List.range count).map item).getD index 0 = item index := by
  rw [List.getD_eq_getElem?_getD, List.getElem?_map, List.getElem?_range within]
  rfl

theorem weightRun_eq {count chan : Nat} (within : chan < count) (select : Nat × Nat → Nat) :
    design.weightRun (design.layout count) select chan =
      (design.weightStart count chan + design.offset chan,
        (List.range (design.width chan)).map fun j =>
          select (design.quantized chan (design.edge chan + j))) := by
  rw [FilterbankDesign.weightRun, layout_eq]
  simp only [getD_map_range within, FilterbankDesign.offset]

theorem frequencyStart_le (chan : Nat) : design.frequencyStart chan ≤ design.edge chan := by
  rw [FilterbankDesign.frequencyStart]
  split_ifs
  · exact Nat.zero_le _
  · exact Nat.div_mul_le_self _ _

/-- The padding in front and the weights fit the channel's room. -/
theorem offset_add_width_le {chan : Nat} (wide : design.width chan ≠ 0) :
    design.offset chan + design.width chan ≤ design.padded chan := by
  rw [FilterbankDesign.offset, FilterbankDesign.frequencyStart, if_neg wide,
    FilterbankDesign.padded, if_neg wide, paddedWidth]
  generalize design.edge chan - alignedStart (design.edge chan) = front
  have block : kFilterbankChannelBlockSize = 4 := rfl
  rw [block]
  omega

theorem packed_mono {first last : Nat} (order : first ≤ last) :
    design.packed first ≤ design.packed last :=
  monotone_nat_of_le_succ (fun chan => by rw [packed_succ]; exact Nat.le_add_right _ _) order

theorem packed_succ_le {first last : Nat} (order : first < last) :
    design.packed (first + 1) ≤ design.packed last := packed_mono (Nat.succ_le_of_lt order)

/-- A place between two channels' ends belongs to one channel only. -/
theorem channel_unique {first second place : Nat} (firstLow : design.packed first ≤ place)
    (firstHigh : place < design.packed (first + 1)) (secondLow : design.packed second ≤ place)
    (secondHigh : place < design.packed (second + 1)) : first = second := by
  rcases Nat.lt_trichotomy first second with before | same | behind
  · have order := @packed_succ_le design _ _ before
    omega
  · exact same
  · have order := @packed_succ_le design _ _ behind
    omega

/-- A channel's run stays in the channel's room. -/
theorem inRun_room {count chan index : Nat} {select : Nat × Nat → Nat} (within : chan < count)
    (inside : InRun (design.weightRun (design.layout count) select chan) index) :
    design.width chan ≠ 0 ∧ design.zeros count + design.packed chan ≤ index ∧
      index < design.zeros count + design.packed (chan + 1) := by
  rw [weightRun_eq within, InRun, List.length_map, List.length_range] at inside
  obtain ⟨low, high⟩ := inside
  have wide : design.width chan ≠ 0 := by
    intro empty
    rw [empty] at high
    omega
  have room := offset_add_width_le wide
  rw [FilterbankDesign.weightStart, if_neg wide] at low high
  rw [packed_succ]
  exact ⟨wide, by omega, by omega⟩

theorem weightRuns_apart (count : Nat) (select : Nat × Nat → Nat) {channels : Nat}
    (within : channels ≤ count) :
    ((List.range channels).map (design.weightRun (design.layout count) select)).Pairwise Apart := by
  rw [List.pairwise_map]
  refine List.pairwise_lt_range.imp_of_mem ?_
  intro first second firstIn secondIn order index inFirst inSecond
  have firstWithin := (List.mem_range.mp firstIn).trans_le within
  have secondWithin := (List.mem_range.mp secondIn).trans_le within
  obtain ⟨-, -, firstHigh⟩ := inRun_room firstWithin inFirst
  obtain ⟨-, secondLow, -⟩ := inRun_room secondWithin inSecond
  have ordered := @packed_succ_le design _ _ order
  omega

/-- The block of zeros is there if a channel needs it. -/
theorem zeros_of_empty {count chan : Nat} (within : chan < count)
    (empty : design.width chan = 0) : design.zeros count = kFilterbankChannelBlockSize := by
  have needed : design.needsZeros count = true :=
    List.any_eq_true.mpr ⟨chan, List.mem_range.mpr within, decide_eq_true empty⟩
  rw [FilterbankDesign.zeros, needed, if_pos rfl]

/-- What a channel finds in the arrays: its own weights, and zeros around them. -/
theorem fill_getD {chan j : Nat} (within : chan < design.numChannels + 1)
    (inside : j < design.channelWidth chan) (select : Nat × Nat → Nat) :
    (design.fill (design.layout (design.numChannels + 1)) select).getD
        (design.weightStart (design.numChannels + 1) chan + j) 0 =
      if design.offset chan ≤ j ∧ j < design.offset chan + design.width chan then
        select (design.quantized chan (design.frequencyStart chan + j))
      else 0 := by
  have start := @frequencyStart_le design chan
  have blank (length index : Nat) : (List.replicate length 0).getD index 0 = 0 := by
    rw [List.getD_eq_getElem?_getD, List.getElem?_replicate]
    split_ifs <;> rfl
  rw [FilterbankDesign.fill, List.getD_eq_getElem?_getD]
  split_ifs with written
  · have wide : design.width chan ≠ 0 := by omega
    have room := offset_add_width_le wide
    have run := @weightRun_eq design _ _ within select
    have place : design.weightStart (design.numChannels + 1) chan + j =
        (design.weightRun (design.layout (design.numChannels + 1)) select chan).1 +
          (j - design.offset chan) := by
      rw [run]
      omega
    have last := @packed_succ_le design _ _ within
    rw [place, getElem?_writeRuns_inside (weightRuns_apart _ select (Nat.le_refl _))
      (List.mem_map_of_mem (List.mem_range.mpr within)), run]
    · have same : design.edge chan + (j - design.offset chan) = design.frequencyStart chan + j := by
        rw [FilterbankDesign.offset] at written ⊢
        omega
      rw [List.getElem?_map, List.getElem?_range (by omega), Option.map_some, Option.getD_some,
        same]
    · rw [run, List.length_map, List.length_range]
      omega
    · rw [run, List.length_replicate, layout_eq, FilterbankDesign.weightStart, if_neg wide]
      rw [packed_succ] at last
      dsimp only
      omega
  · rw [getElem?_writeRuns_outside, ← List.getD_eq_getElem?_getD, blank]
    intro run member inRun
    obtain ⟨other, otherIn, rfl⟩ := List.mem_map.mp member
    have otherWithin := List.mem_range.mp otherIn
    obtain ⟨wide, low, high⟩ := inRun_room otherWithin inRun
    by_cases empty : design.width chan = 0
    · -- the block of zeros lies in front of every run
      have zeros := zeros_of_empty within empty
      rw [FilterbankDesign.channelWidth, if_pos empty] at inside
      rw [FilterbankDesign.weightStart, if_pos empty] at low
      omega
    · rw [FilterbankDesign.channelWidth, if_neg empty] at inside
      rw [FilterbankDesign.weightStart, if_neg empty] at low high
      have same : chan = other := by
        apply @channel_unique design chan other (design.packed chan + j)
        · exact Nat.le_add_right _ _
        · rw [packed_succ]
          omega
        · omega
        · omega
      subst same
      rw [weightRun_eq within, InRun, List.length_map, List.length_range,
        FilterbankDesign.weightStart, if_neg empty] at inRun
      exact written ⟨by omega, by omega⟩

/-- Over the packed arrays, a channel sums up exactly its own frequencies. -/
theorem sum_fill {chan : Nat} (within : chan < design.numChannels + 1) (select : Nat × Nat → Nat)
    (energy : Nat → Nat) :
    ∑ j ∈ Finset.range (design.channelWidth chan),
        (design.fill (design.layout (design.numChannels + 1)) select).getD
          (design.weightStart (design.numChannels + 1) chan + j) 0 *
            energy (design.frequencyStart chan + j) =
      ∑ freq ∈ Finset.Ico (design.edge chan) (design.edge (chan + 1)),
        select (design.quantized chan freq) * energy freq := by
  have start := @frequencyStart_le design chan
  by_cases empty : design.width chan = 0
  · have none_ : design.edge (chan + 1) = design.edge chan := by
      rw [← edge_add_width, empty, Nat.add_zero]
    rw [none_, Finset.Ico_self, Finset.sum_empty]
    apply Finset.sum_eq_zero
    intro j member
    rw [fill_getD within (Finset.mem_range.mp member), if_neg (by omega), Nat.zero_mul]
  · have room := offset_add_width_le empty
    have width : design.channelWidth chan = design.padded chan := by
      rw [FilterbankDesign.channelWidth, if_neg empty]
    have edge : design.frequencyStart chan + design.offset chan = design.edge chan := by
      rw [FilterbankDesign.offset]
      omega
    rw [← edge_add_width, ← edge]
    apply @sum_padded _ _ _ _ _ fun freq => select (design.quantized chan freq) * energy freq
    · rw [width]
      exact room
    · intro j low high
      rw [fill_getD within (by omega), if_pos ⟨low, high⟩]
    · intro j inside other
      rw [fill_getD within inside, if_neg other, Nat.zero_mul]

end

/-! ### A frame in place -/

section

theorem convertLoop_getD (rounds index place : Nat) (memory : List Nat) :
    (convertLoop rounds index memory).getD place 0 =
      if index ≤ place ∧ place < index + rounds ∧ place < memory.length then
        magSquared (memory.getD place 0)
      else memory.getD place 0 := by
  induction rounds generalizing index memory with
  | zero => rw [convertLoop, if_neg (by omega)]
  | succ rounds inductionHypothesis =>
      rw [convertLoop, inductionHypothesis, List.length_set]
      simp only [List.getD_eq_getElem?_getD, List.getElem?_set]
      by_cases here : index = place
      · subst here
        by_cases inside : index < memory.length
        · rw [if_neg (by omega), if_pos rfl, if_pos inside, if_pos (by omega), Option.getD_some]
        · rw [if_neg (by omega), if_pos rfl, if_neg inside, if_neg (by omega),
            List.getElem?_eq_none (by omega)]
      · simp only [if_neg here]
        by_cases later : index + 1 ≤ place ∧ place < index + 1 + rounds ∧ place < memory.length
        · rw [if_pos later, if_pos (by omega)]
        · rw [if_neg later, if_neg (by omega)]

/-- The square of the magnitude of a word of the FFT's output. -/
def power (word : Nat) : Nat :=
  let real := signed16 (word % 2 ^ 16)
  let imag := signed16 (word / 2 ^ 16 % 2 ^ 16)
  (real * real + imag * imag).toNat

theorem magnitude_magSquared {word : Nat} (fits : power word < 2 ^ 31) :
    magnitude (magSquared word) = power word := by
  have same : magSquared word = power word := by
    rw [magSquared, ← power, Nat.mod_eq_of_lt (by omega)]
  rw [same, magnitude, if_pos fits]

theorem foldl_pair {Item : Type} (first second : Nat → Item → Nat) (items : List Item)
    (left right : Nat) :
    items.foldl (fun accumulators item =>
        (first accumulators.1 item, second accumulators.2 item)) (left, right) =
      (items.foldl first left, items.foldl second right) := by
  induction items generalizing left right with
  | nil => rfl
  | cons item rest inductionHypothesis => exact inductionHypothesis _ _

/-- What a channel adds to one of the accumulators. -/
def FilterbankState.tap (state : FilterbankState) (weights energy : List Nat) (chan : Nat) : Nat :=
  ∑ j ∈ Finset.range (state.channelWidths.getD chan 0),
    weights.getD (state.channelWeightStarts.getD chan 0 + j) 0 *
      magnitude (energy.getD (state.channelFrequencyStarts.getD chan 0 + j) 0)

variable {state : FilterbankState} {energy : List Nat}

theorem accumulateChannel_eq {chan carry : Nat}
    (first : carry + state.tap state.weights energy chan < 2 ^ 64)
    (second : state.tap state.unweights energy chan < 2 ^ 64) :
    accumulateChannel state energy chan carry 0 =
      (carry + state.tap state.weights energy chan, state.tap state.unweights energy chan) := by
  have small : carry < 2 ^ 64 := by omega
  rw [accumulateChannel]
  dsimp only
  rw [foldl_pair
    (fun total j => (total + state.weights.getD (state.channelWeightStarts.getD chan 0 + j) 0 *
      magnitude (energy.getD (state.channelFrequencyStarts.getD chan 0 + j) 0)) % 2 ^ 64)
    (fun total j => (total + state.unweights.getD (state.channelWeightStarts.getD chan 0 + j) 0 *
      magnitude (energy.getD (state.channelFrequencyStarts.getD chan 0 + j) 0)) % 2 ^ 64),
    foldl_add_mod _ _ _ _ small, foldl_add_mod _ _ _ _ (by decide), Nat.zero_add,
    ← FilterbankState.tap, ← FilterbankState.tap, Nat.mod_eq_of_lt first, Nat.mod_eq_of_lt second]

/-- The loop adds what a channel takes with its weights to what the one before it left. -/
theorem accumulateLoop_getElem? {rounds chan carry index : Nat} (carrySmall : carry < 2 ^ 63)
    (small : ∀ chan', chan ≤ chan' → chan' < chan + rounds →
      state.tap state.weights energy chan' < 2 ^ 63 ∧
        state.tap state.unweights energy chan' < 2 ^ 63)
    (within : index < rounds) :
    (accumulateLoop state energy rounds chan carry)[index]? =
      some ((if index = 0 then carry
        else state.tap state.unweights energy (chan + index - 1)) +
          state.tap state.weights energy (chan + index)) := by
  induction rounds generalizing chan carry index with
  | zero => exact absurd within (Nat.not_lt_zero _)
  | succ rounds inductionHypothesis =>
      obtain ⟨first, second⟩ := small chan (Nat.le_refl _) (by omega)
      rw [accumulateLoop, accumulateChannel_eq (by omega) (by omega)]
      dsimp only
      cases index with
      | zero => rfl
      | succ index =>
          rw [List.getElem?_cons_succ, inductionHypothesis second]
          · congr 2
            · cases index with
              | zero => rfl
              | succ index =>
                  rw [if_neg (Nat.succ_ne_zero _), if_neg (Nat.succ_ne_zero _)]
                  congr 1
                  omega
            · congr 1
              omega
          · exact fun chan' low high => small chan' (by omega) (by omega)
          · omega

theorem length_workWords (work : List Nat) : (workWords work).length = 2 * work.length := by
  induction work with
  | nil => rfl
  | cons value rest inductionHypothesis =>
      rw [workWords, List.flatMap_cons, ← workWords, List.length_append, inductionHypothesis]
      simp only [List.length_cons, List.length_nil]
      omega

/-- Two words make a value. -/
theorem workWords_read {work : List Nat} {index value : Nat} (there : work[index]? = some value)  :
    (workWords work).getD (2 * index) 0 + 2 ^ 32 * (workWords work).getD (2 * index + 1) 0 =
      value := by
  induction work generalizing index with
  | nil => cases there
  | cons first rest inductionHypothesis =>
      rw [workWords, List.flatMap_cons, ← workWords]
      cases index with
      | zero =>
          obtain rfl : first = value := Option.some.inj there
          exact Nat.mod_add_div first (2 ^ 32)
      | succ index => exact inductionHypothesis there

/-- Each root is written over words that have been read. -/
theorem sqrtLoop_getElem? {shift rounds i index : Nat} {words : List Nat} (low : i ≤ index)
    (high : index < i + rounds) (inside : index < words.length) :
    (sqrtLoop shift rounds i words)[index]? =
      some (sqrt64 (words.getD (2 * (index + 1)) 0 +
        2 ^ 32 * words.getD (2 * (index + 1) + 1) 0) >>> shift) := by
  have kept {rounds i index : Nat} {words : List Nat} (before : index < i) :
      (sqrtLoop shift rounds i words)[index]? = words[index]? := by
    induction rounds generalizing i words with
    | zero => rfl
    | succ rounds inductionHypothesis =>
        rw [sqrtLoop, inductionHypothesis (by omega), List.getElem?_set_ne (by omega)]
  induction rounds generalizing i words with
  | zero => omega
  | succ rounds inductionHypothesis =>
      rw [sqrtLoop]
      rcases Nat.eq_or_lt_of_le low with rfl | later
      · rw [kept (Nat.lt_succ_self i), List.getElem?_set_self inside]
      · rw [inductionHypothesis later (by omega) (by rwa [List.length_set])]
        simp only [List.getD_eq_getElem?_getD]
        rw [List.getElem?_set_ne (by omega), List.getElem?_set_ne (by omega)]

theorem filterbankSqrt_getElem? {shift chan value : Nat} {work : List Nat}
    (within : chan < state.numChannels) (there : work[chan + 1]? = some value) :
    (filterbankSqrt state shift work)[chan]? = some (sqrt64 value >>> shift) := by
  have long := (List.getElem?_eq_some_iff.mp there).1
  rw [filterbankSqrt, List.getElem?_take_of_lt within,
    sqrtLoop_getElem? (Nat.zero_le _) (by omega) (by rw [length_workWords]; omega),
    workWords_read there]

end

/-! ### Triangles -/

/-- What a channel is: the falling weights over its lower half and the rising ones over its
upper half. -/
def FilterbankDesign.triangle (design : FilterbankDesign) (spectrum : Nat → Nat) (channel : Nat) :
    Nat :=
  ∑ freq ∈ Finset.Ico (design.edge channel) (design.edge (channel + 1)),
      (design.quantized channel freq).2 * spectrum freq +
    ∑ freq ∈ Finset.Ico (design.edge (channel + 1)) (design.edge (channel + 2)),
      (design.quantized (channel + 1) freq).1 * spectrum freq

section

variable {design : FilterbankDesign} {state : FilterbankState} {allocated : Bool}

theorem endIndex_eq : design.endIndex (design.layout (design.numChannels + 1)) =
    design.edge (design.numChannels + 1) := by
  have upTo (count : Nat) (within : count ≤ design.numChannels) :
      (List.range (count + 1)).foldl (fun endIndex chan =>
        max endIndex (((List.range (design.numChannels + 1)).map design.edge).getD chan 0 +
          ((List.range (design.numChannels + 1)).map design.width).getD chan 0)) 0 =
        design.edge (count + 1) := by
    induction count with
    | zero =>
        rw [List.range_one, List.foldl_cons, List.foldl_nil, getD_map_range (by omega),
          getD_map_range (by omega), edge_add_width, Nat.zero_max]
    | succ count inductionHypothesis =>
        have order := @edge_le design (count + 1)
        rw [@List.range_succ (count + 1), List.foldl_append, inductionHypothesis (by omega),
          List.foldl_cons, List.foldl_nil, getD_map_range (by omega), getD_map_range (by omega),
          edge_add_width]
        exact Nat.max_eq_right order
  rw [FilterbankDesign.endIndex, layout_eq]
  exact upTo design.numChannels (Nat.le_refl _)

/-- The state that a design populates, in terms of its edges. -/
def FilterbankDesign.populated (design : FilterbankDesign) : FilterbankState where
  numChannels := design.numChannels
  startIndex := design.startIndex
  endIndex := design.edge (design.numChannels + 1)
  channelFrequencyStarts := (List.range (design.numChannels + 1)).map design.frequencyStart
  channelWeightStarts :=
    (List.range (design.numChannels + 1)).map (design.weightStart (design.numChannels + 1))
  channelWidths := (List.range (design.numChannels + 1)).map design.channelWidth
  weights := design.fill (design.layout (design.numChannels + 1)) Prod.fst
  unweights := design.fill (design.layout (design.numChannels + 1)) Prod.snd

theorem filterbankPopulateState_cases
    (populated : filterbankPopulateState design allocated = some state) :
    design.edge (design.numChannels + 1) < design.spectrumSize ∧ state = design.populated := by
  rw [filterbankPopulateState] at populated
  simp only [endIndex_eq] at populated
  split_ifs at populated with failed wide
  refine ⟨Nat.lt_of_not_le wide, ?_⟩
  rw [← Option.some.inj populated, FilterbankDesign.populated]
  congr 1 <;> rw [layout_eq]

theorem padded_le (chan : Nat) : design.padded chan ≤ design.width chan + 4 := by
  have block : kFilterbankChannelBlockSize = 4 := rfl
  have align : indexAlignment = 2 := rfl
  rw [FilterbankDesign.padded]
  split_ifs
  · exact Nat.zero_le _
  · rw [paddedWidth, alignedStart, block, align]
    omega

theorem packed_le (chan : Nat) :
    design.packed chan + design.startIndex ≤ design.edge chan + 4 * chan := by
  induction chan with
  | zero => exact Nat.le_of_eq (Nat.zero_add _)
  | succ chan inductionHypothesis =>
      have room := @padded_le design chan
      have step := @edge_add_width design chan
      rw [packed_succ]
      omega

theorem zeros_le (count : Nat) : design.zeros count ≤ 4 := by
  rw [FilterbankDesign.zeros]
  split_ifs
  · exact Nat.le_refl _
  · exact Nat.zero_le _

theorem length_fill (select : Nat × Nat → Nat) :
    (design.fill (design.layout (design.numChannels + 1)) select).length =
      design.zeros (design.numChannels + 1) + design.packed (design.numChannels + 1) := by
  rw [FilterbankDesign.fill, length_writeRuns, List.length_replicate, layout_eq]

/-- A channel's loop stays in the arrays, and at most three frequencies behind the last one. -/
theorem channel_inside {chan j : Nat} (within : chan < design.numChannels + 1)
    (inside : j < design.channelWidth chan) :
    design.weightStart (design.numChannels + 1) chan + j <
        design.zeros (design.numChannels + 1) + design.packed (design.numChannels + 1) ∧
      design.frequencyStart chan + j < max 4 (design.edge (design.numChannels + 1) + 3) := by
  have last := @packed_succ_le design _ _ within
  have order := @edge_mono design _ _ (Nat.succ_le_of_lt within)
  have ends := @edge_add_width design chan
  by_cases empty : design.width chan = 0
  · have zeros := zeros_of_empty within empty
    rw [FilterbankDesign.channelWidth, if_pos empty] at inside
    rw [FilterbankDesign.weightStart, if_pos empty, FilterbankDesign.frequencyStart, if_pos empty]
    have block : kFilterbankChannelBlockSize = 4 := rfl
    omega
  · rw [FilterbankDesign.channelWidth, if_neg empty] at inside
    rw [packed_succ] at last
    rw [FilterbankDesign.weightStart, if_neg empty, FilterbankDesign.frequencyStart, if_neg empty]
    refine ⟨by omega, ?_⟩
    have start : alignedStart (design.edge chan) ≤ design.edge chan := Nat.div_mul_le_self _ _
    have block : kFilterbankChannelBlockSize = 4 := rfl
    rw [FilterbankDesign.padded, if_neg empty, paddedWidth, block] at inside
    rw [Nat.succ_eq_add_one] at order
    omega

/-- A channel's sum over frames of bounded power stays far below the accumulators' width. -/
theorem channel_sum_le (select : Nat × Nat → Nat)
    (selected : ∀ chan freq, select (design.quantized chan freq) ≤ 2 ^ kFilterbankBits)
    {spectrum : Nat → Nat} {chan : Nat}
    (tame : ∀ freq, design.edge chan ≤ freq → freq < design.edge (chan + 1) →
      spectrum freq ≤ 2 ^ 31) :
    ∑ freq ∈ Finset.Ico (design.edge chan) (design.edge (chan + 1)),
        select (design.quantized chan freq) * spectrum freq ≤
      design.edge (chan + 1) * (2 ^ kFilterbankBits * 2 ^ 31) := by
  have each : ∀ freq ∈ Finset.Ico (design.edge chan) (design.edge (chan + 1)),
      select (design.quantized chan freq) * spectrum freq ≤ 2 ^ kFilterbankBits * 2 ^ 31 := by
    intro freq member
    have between := Finset.mem_Ico.mp member
    exact Nat.mul_le_mul (selected chan freq) (tame freq between.1 between.2)
  refine (Finset.sum_le_card_nsmul _ _ _ each).trans ?_
  rw [Nat.card_Ico, smul_eq_mul]
  exact Nat.mul_le_mul_right _ (Nat.sub_le _ _)

end

section

variable {design : FilterbankDesign} {energy : List Nat} {spectrum : Nat → Nat} {chan : Nat}

/-- What a channel adds is the sum over its own frequencies. -/
theorem tap_populated (within : chan < design.numChannels + 1) (select : Nat × Nat → Nat)
    (seen : ∀ freq, design.edge chan ≤ freq → freq < design.edge (chan + 1) →
      magnitude (energy.getD freq 0) = spectrum freq) :
    design.populated.tap (design.fill (design.layout (design.numChannels + 1)) select) energy chan =
      ∑ freq ∈ Finset.Ico (design.edge chan) (design.edge (chan + 1)),
        select (design.quantized chan freq) * spectrum freq := by
  rw [FilterbankState.tap, FilterbankDesign.populated]
  dsimp only
  rw [getD_map_range within, getD_map_range within, getD_map_range within,
    sum_fill within select fun freq => magnitude (energy.getD freq 0)]
  apply Finset.sum_congr rfl
  intro freq member
  have between := Finset.mem_Ico.mp member
  rw [seen freq between.1 between.2]

/-- The work buffer holds a triangle behind the place of each channel. -/
theorem accumulate_populated (narrow : design.edge (design.numChannels + 1) < 2 ^ 15)
    (tame : ∀ freq, design.startIndex ≤ freq → freq < design.edge (design.numChannels + 1) →
      magnitude (energy.getD freq 0) = spectrum freq ∧ spectrum freq ≤ 2 ^ 31)
    {channel : Nat} (within : channel < design.numChannels) :
    (filterbankAccumulateChannels design.populated energy)[channel + 1]? =
      some (design.triangle spectrum channel) := by
  have band (chan freq : Nat) (inside : chan < design.numChannels + 1)
      (low : design.edge chan ≤ freq) (high : freq < design.edge (chan + 1)) :
      magnitude (energy.getD freq 0) = spectrum freq ∧ spectrum freq ≤ 2 ^ 31 := by
    have first : design.startIndex ≤ design.edge chan := edge_mono (Nat.zero_le chan)
    have last := @edge_mono design _ _ (Nat.succ_le_of_lt inside)
    exact tame freq (first.trans low) (high.trans_le last)
  have tap (select : Nat × Nat → Nat) (chan : Nat) (inside : chan < design.numChannels + 1) :=
    tap_populated inside select fun freq low high => (band chan freq inside low high).1
  have small (select : Nat × Nat → Nat)
      (selected : ∀ chan freq, select (design.quantized chan freq) ≤ 2 ^ kFilterbankBits)
      (chan : Nat) (inside : chan < design.numChannels + 1) :
      ∑ freq ∈ Finset.Ico (design.edge chan) (design.edge (chan + 1)),
        select (design.quantized chan freq) * spectrum freq < 2 ^ 63 := by
    have last := @edge_mono design _ _ (Nat.succ_le_of_lt inside)
    have bound := channel_sum_le select selected
      fun freq low high => (band chan freq inside low high).2
    refine bound.trans_lt ?_
    have scale : 2 ^ kFilterbankBits * 2 ^ 31 = 2 ^ 43 := rfl
    rw [scale]
    rw [Nat.succ_eq_add_one] at last
    omega
  have ups (chan : Nat) (inside : chan < design.numChannels + 1) := small Prod.fst
    (fun chan freq => (design.quantized_le chan freq).1) chan inside
  have downs (chan : Nat) (inside : chan < design.numChannels + 1) := small Prod.snd
    (fun chan freq => (design.quantized_le chan freq).2) chan inside
  have weights : design.populated.weights =
    design.fill (design.layout (design.numChannels + 1)) Prod.fst := rfl
  have unweights : design.populated.unweights =
    design.fill (design.layout (design.numChannels + 1)) Prod.snd := rfl
  have count : design.populated.numChannels = design.numChannels := rfl
  rw [filterbankAccumulateChannels, accumulateLoop_getElem? (by decide), weights, unweights,
    if_neg (Nat.succ_ne_zero _), Nat.zero_add, Nat.add_sub_cancel,
    tap Prod.snd channel (by omega), tap Prod.fst (channel + 1) (by omega),
    FilterbankDesign.triangle]
  · intro chan _ inside
    rw [count, Nat.zero_add] at inside
    rw [weights, unweights, tap Prod.fst chan inside, tap Prod.snd chan inside]
    exact ⟨ups chan inside, downs chan inside⟩
  · rw [count]
    omega

end

/-- Two channels, and none of the frequencies left for the middle of three slopes. -/
def steepDesign : FilterbankDesign where
  numChannels := 2
  startIndex := 1
  spectrumSize := 9
  reaches chan freq := decide (freq < [3, 3, 6].getD chan 0)
  limit := 6
  stops := by
    intro chan freq behind
    rcases chan with _ | _ | _ | chan <;> simp <;> omega
  quantized chan _ := (1024 * min 4 (chan + 1), 4096 - 1024 * min 4 (chan + 1))
  quantized_le := by
    intro chan freq
    have bits : 2 ^ kFilterbankBits = 4096 := rfl
    rw [bits]
    omega

/-- The buffer holds full-scale values outside the band. -/
def noisyOutput : List Nat :=
  [4294934527, 65537, 131075, 3, 65535, 4294901760, 2147516416, 1, 1]

end WallUnit.Firmware.Microfrontend
