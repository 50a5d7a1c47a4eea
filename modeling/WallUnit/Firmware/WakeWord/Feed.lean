import Mathlib
import WallUnit.Foundations.Bytes
import WallUnit.Foundations.Scanner

/-!
Owns the way of PCM through `wake_word.cc`: the chunks of `wake_word_feed`, the frame
loop of `process_impl` in `frontend_tflm.cc`, the sliding window of `window.c`, and the
frames pushed into the streaming model with its `Invoke` calls. Two ways of splitting a
recording into calls come to the same thing, with nothing skipped, exactly when no chunk
fills more than the scratch buffer: `feed_split_independent_iff`.

Does not own the stages behind the window nor the model: both are functions of what they
have been given since the reset.
-/

namespace WallUnit.Firmware.WakeWord

open WallUnit.Foundations

/-- `WAKE_WORD_FEATURE_SIZE`. -/
def featureSize : Nat := 40

/-- `MAX_FRAMES_PER_FEED`. -/
def maxFramesPerFeed : Nat := 128

/-- `HOP_SAMPLES`. -/
def hopSamples : Nat := 16000 * 10 / 1000

/-- `PCM_PER_CHUNK`. -/
def pcmPerChunk : Nat := maxFramesPerFeed * hopSamples

/-- `size` of the window: 30 ms at 16 kHz. -/
def windowSize : Nat := 30 * 16000 / 1000

/-- `step` of the window: 10 ms. -/
def windowStep : Nat := 10 * 16000 / 1000

/-- Conversion to `int16_t`. -/
def toInt16 (value : Int) : Int := value.bmod 65536

/-- A window as it leaves `WindowProcessSamples`: the weighted samples and
`max_abs_output_value`. -/
structure Weighted where
  output : List Int
  maxAbs : Int
deriving DecidableEq, Repr

/-- The loop of `WindowProcessSamples` over a full window. -/
def weigh (coefficients input : List Int) : Weighted :=
  let output := List.zipWith
    (fun sample coefficient : Int => toInt16 ((sample * coefficient) >>> 12)) input coefficients
  let maxAbs := output.foldl (fun best value =>
    let magnitude := if value < 0 then toInt16 (-value) else value
    if best < magnitude then magnitude else best) 0
  ⟨output, maxAbs⟩

/-- The stages behind the window, as a function of the windows since the reset. -/
structure Frontend where
  coefficients : List Int
  values : List Weighted → List Nat
  size : ∀ windows, (values windows).length = featureSize

/-- The streaming model: how many frames it takes at once, and the score of each
`Invoke`, or its failure, as a function of the inputs since the reset. -/
structure StreamingModel where
  maxStrideSteps : Nat
  invoke : List (List (List Int)) → Option UInt8

/-- The state since a reset. `input` is the filled part of the window's buffer and
`slots` of the input tensor; `taken` are the samples the window has copied, `pushed` and
`invokes` the frames and the tensors in order. -/
structure Pipeline where
  input : List Int
  windows : List Weighted
  taken : List Int
  slots : List (List Int)
  pushed : List (List Int)
  invokes : List (List (List Int))
  lastScore : UInt8
deriving DecidableEq, Repr

/-- `wake_word_reset`. -/
def Pipeline.reset : Pipeline := ⟨[], [], [], [], [], [], 0⟩

/-- `quantize_int8`. -/
def quantizeInt8 (raw : Nat) : Int :=
  let value : Int := ((raw * 256 / 666 : Nat) : Int) - 128
  if 127 < value then 127 else if value < -128 then -128 else value

/-- `max_samples_to_copy`. -/
def samplesToCopy (input samples : List Int) : Nat :=
  min (windowSize - input.length) samples.length

/-- `FrontendProcessSamples`: the samples read, the features of the window they complete,
if they do, and the state. -/
def frontendProcessSamples (frontend : Frontend) (samples : List Int) (pipeline : Pipeline) :
    Nat × List Nat × Pipeline :=
  let read := samplesToCopy pipeline.input samples
  let input := pipeline.input ++ samples.take read
  let taken := pipeline.taken ++ samples.take read
  if input.length < windowSize then (read, [], { pipeline with input := input, taken := taken })
  else
    let windows := pipeline.windows ++ [weigh frontend.coefficients input]
    (read, frontend.values windows,
      { pipeline with input := input.drop windowStep, windows := windows, taken := taken })

/-- The frame loop of `process_impl`: `frames` are the feature frames written so far. -/
def processLoop (frontend : Frontend) (maxFrames : Nat) :
    Nat → List Int → List (List Int) → Pipeline → List (List Int) × Pipeline
  | 0, _, frames, pipeline => (frames, pipeline)
  | fuel + 1, remaining, frames, pipeline =>
      if 0 < remaining.length ∧ frames.length < maxFrames then
        let (consumed, values, next) := frontendProcessSamples frontend remaining pipeline
        if consumed = 0 then (frames, next)
        else if values.length = 0 then
          processLoop frontend maxFrames fuel (remaining.drop consumed) frames next
        else if values.length ≠ featureSize then (frames, next)
        else
          processLoop frontend maxFrames fuel (remaining.drop consumed)
            (frames ++ [values.map quantizeInt8]) next
      else (frames, pipeline)

/-- `process_impl`. An iteration that goes on consumes a sample. -/
def process (frontend : Frontend) (pcm : List Int) (pipeline : Pipeline) :
    List (List Int) × Pipeline :=
  processLoop frontend maxFramesPerFeed pcm.length pcm [] pipeline

/-- `push_feature_frame`. -/
def pushFeatureFrame (model : StreamingModel) (pipeline : Pipeline) (frame : List Int) :
    Pipeline :=
  let slots := pipeline.slots ++ [frame]
  let pushed := { pipeline with slots := slots, pushed := pipeline.pushed ++ [frame] }
  if slots.length < model.maxStrideSteps then pushed
  else
    let invokes := pipeline.invokes ++ [slots]
    { pushed with
      slots := []
      invokes := invokes
      lastScore := (model.invoke invokes).getD pipeline.lastScore }

/-- What a call reports: the highest score of its inference steps, and their number. -/
structure Feed where
  pipeline : Pipeline
  peak : UInt8
  steps : Nat
deriving DecidableEq, Repr

/-- The loop over the frames of a chunk. -/
def pushFrames (model : StreamingModel) (frames : List (List Int)) (feed : Feed) : Feed :=
  frames.foldl (fun feed frame =>
    let pipeline := pushFeatureFrame model feed.pipeline frame
    if pipeline.slots = [] then
      ⟨pipeline, if feed.peak < pipeline.lastScore then pipeline.lastScore else feed.peak,
        feed.steps + 1⟩
    else { feed with pipeline := pipeline }) feed

/-- One chunk of `wake_word_feed`. -/
def feedChunk (frontend : Frontend) (model : StreamingModel) (feed : Feed) (chunk : List Int) :
    Feed :=
  let (frames, pipeline) := process frontend chunk feed.pipeline
  pushFrames model frames { feed with pipeline := pipeline }

/-- `wake_word_feed`: the call goes through in chunks of at most `PCM_PER_CHUNK`. -/
def wakeWordFeed (frontend : Frontend) (model : StreamingModel) (pipeline : Pipeline)
    (pcm : List Int) : Feed :=
  if pcm = [] then ⟨pipeline, pipeline.lastScore, 0⟩
  else (pieces pcmPerChunk pcm).foldl (feedChunk frontend model) ⟨pipeline, 0, 0⟩

/-- Successive calls from a reset. -/
def feedAll (frontend : Frontend) (model : StreamingModel) (calls : List (List Int)) : Pipeline :=
  calls.foldl (fun pipeline pcm => (wakeWordFeed frontend model pipeline pcm).pipeline) .reset

/-! ### The windows of a recording -/

/-- The rule that cuts a recording into windows, one for each hop. -/
def nextWindow (samples : List Int) : Option (Nat × List (List Int)) :=
  if samples.length < windowSize then none else some (windowStep, [samples.take windowSize])

theorem nextWindow_of_long {samples : List Int} (long : windowSize ≤ samples.length) :
    nextWindow samples = some (windowStep, [samples.take windowSize]) :=
  if_neg (Nat.not_lt_of_le long)

def hops : Scanner Int (List Int) where
  next := nextWindow
  progress := by
    intro samples count windows found
    have sizes : 0 < windowStep ∧ windowStep ≤ windowSize := by decide
    unfold nextWindow at found
    split_ifs at found
    cases found
    omega
  stable := by
    intro samples found more decided
    unfold nextWindow at decided
    split_ifs at decided with short
    cases decided
    have long := Nat.le_of_not_lt short
    rw [nextWindow_of_long (by rw [List.length_append]; omega),
      List.take_append_of_le_length long]

/-- How many samples wait in the window after so many have been heard. -/
def fill (heard : Nat) : Nat := if heard < windowSize then heard else 320 + heard % windowStep

theorem length_scan_rest (samples : List Int) :
    (hops.scan samples).2.length = fill samples.length := by
  have size : windowSize = 480 := rfl
  have step : windowStep = 160 := rfl
  induction samples using hops.scan_induction with
  | waits samples found =>
      rw [hops.scan_of_none found]
      have short : samples.length < windowSize := by
        by_contra long
        rw [show hops.next samples = _ from nextWindow_of_long (Nat.le_of_not_lt long)] at found
        contradiction
      exact (if_pos short).symm
  | consumes samples count windows found inductionHypothesis =>
      have long : windowSize ≤ samples.length := by
        by_contra short
        rw [show hops.next samples = none from if_pos (Nat.lt_of_not_le short)] at found
        contradiction
      rw [show hops.next samples = _ from nextWindow_of_long long] at found
      cases found
      rw [hops.scan_of_some (nextWindow_of_long long), inductionHypothesis, List.length_drop]
      unfold fill
      rw [size, step]
      split_ifs <;> omega

theorem length_scan_lt (samples : List Int) : (hops.scan samples).2.length < windowSize := by
  by_contra long
  have waits := hops.next_scan_rest samples
  rw [show hops.next _ = _ from nextWindow_of_long (Nat.le_of_not_lt long)] at waits
  contradiction

/-- The feature frames of further windows, after those of `history`. -/
def featuresFrom (frontend : Frontend) (history : List Weighted) :
    List Weighted → List (List Int)
  | [] => []
  | window :: rest =>
      (frontend.values (history ++ [window])).map quantizeInt8 ::
        featuresFrom frontend (history ++ [window]) rest

theorem featuresFrom_append (frontend : Frontend) (history first second : List Weighted) :
    featuresFrom frontend history (first ++ second) =
      featuresFrom frontend history first ++ featuresFrom frontend (history ++ first) second := by
  induction first generalizing history with
  | nil => rw [List.nil_append, List.append_nil, featuresFrom, List.nil_append]
  | cons window rest inductionHypothesis =>
      rw [List.cons_append, featuresFrom, featuresFrom, inductionHypothesis, List.append_assoc,
        List.cons_append]
      rfl

/-! ### One chunk -/

/-- The window holds what the windows of the samples taken leave over. -/
structure Tracks (frontend : Frontend) (pipeline : Pipeline) : Prop where
  input : pipeline.input = (hops.scan pipeline.taken).2
  windows : pipeline.windows =
    (hops.scan pipeline.taken).1.map (weigh frontend.coefficients)

theorem Tracks.short {frontend : Frontend} {pipeline : Pipeline}
    (tracks : Tracks frontend pipeline) : pipeline.input.length < windowSize := by
  rw [tracks.input]
  exact length_scan_lt _

/-- From one state to another the front half has read `used` samples and written
`frames`. -/
structure Advanced (frontend : Frontend) (samples : List Int) (before : Pipeline) (used : Nat)
    (frames : List (List Int)) (after : Pipeline) : Prop where
  tracks : Tracks frontend after
  within : used ≤ samples.length
  taken : after.taken = before.taken ++ samples.take used
  count : before.input.length + used = after.input.length + windowStep * frames.length
  features : ∃ windows, after.windows = before.windows ++ windows ∧
    frames = featuresFrom frontend before.windows windows
  back : after = { before with
    input := after.input, windows := after.windows, taken := after.taken }

section

variable {frontend : Frontend} {samples : List Int} {before : Pipeline}

theorem Advanced.refl (tracks : Tracks frontend before) :
    Advanced frontend samples before 0 [] before where
  tracks := tracks
  within := Nat.zero_le _
  taken := (List.append_nil _).symm
  count := rfl
  features := ⟨[], (List.append_nil _).symm, rfl⟩
  back := rfl

theorem Advanced.trans {middle after : Pipeline} {first second : Nat}
    {early late : List (List Int)}
    (one : Advanced frontend samples before first early middle)
    (two : Advanced frontend (samples.drop first) middle second late after) :
    Advanced frontend samples before (first + second) (early ++ late) after where
  tracks := two.tracks
  within := by
    have within := one.within
    have later := two.within
    rw [List.length_drop] at later
    omega
  taken := by rw [two.taken, one.taken, List.take_add, List.append_assoc]
  count := by
    have early := one.count
    have late := two.count
    rw [List.length_append, Nat.mul_add]
    omega
  features := by
    obtain ⟨firstWindows, grown, earlyFrames⟩ := one.features
    obtain ⟨secondWindows, grownAgain, lateFrames⟩ := two.features
    refine ⟨firstWindows ++ secondWindows, ?_, ?_⟩
    · rw [grownAgain, grown, List.append_assoc]
    · rw [featuresFrom_append, earlyFrames, lateFrames, grown]
  back := by
    rw [two.back, one.back]

/-- What `FrontendProcessSamples` puts into the window. -/
def copied (before : Pipeline) (samples : List Int) : List Int :=
  before.input ++ samples.take (samplesToCopy before.input samples)

theorem length_copied (before : Pipeline) (samples : List Int) :
    (copied before samples).length = before.input.length + samplesToCopy before.input samples := by
  have within : samplesToCopy before.input samples ≤ samples.length := Nat.min_le_right _ _
  rw [copied, List.length_append, List.length_take, Nat.min_eq_left within]

/-- The windows go on from what the window holds. -/
theorem Tracks.continued (tracks : Tracks frontend before) (samples : List Int) :
    hops.scan (before.taken ++ samples.take (samplesToCopy before.input samples)) =
      ((hops.scan before.taken).1 ++ (hops.scan (copied before samples)).1,
        (hops.scan (copied before samples)).2) := by
  rw [copied, tracks.input]
  exact hops.scan_append before.taken _

/-- Samples that complete no window wait in it. -/
theorem advanced_incomplete (tracks : Tracks frontend before)
    (incomplete : (copied before samples).length < windowSize) :
    Advanced frontend samples before (samplesToCopy before.input samples) []
      { before with
        input := copied before samples
        taken := before.taken ++ samples.take (samplesToCopy before.input samples) } := by
  have continued := tracks.continued samples
  rw [hops.scan_of_none (if_pos incomplete)] at continued
  constructor
  · constructor
    · dsimp only
      rw [continued]
    · dsimp only
      rw [continued, List.append_nil]
      exact tracks.windows
  · exact Nat.min_le_right _ _
  · rfl
  · exact (length_copied before samples).symm
  · exact ⟨[], (List.append_nil _).symm, rfl⟩
  · rfl

/-- Samples that complete a window leave what it shares with the next. -/
theorem advanced_completed (tracks : Tracks frontend before)
    (complete : (copied before samples).length = windowSize) :
    Advanced frontend samples before (samplesToCopy before.input samples)
      [(frontend.values (before.windows ++
        [weigh frontend.coefficients (copied before samples)])).map quantizeInt8]
      { before with
        input := (copied before samples).drop windowStep
        windows := before.windows ++ [weigh frontend.coefficients (copied before samples)]
        taken := before.taken ++ samples.take (samplesToCopy before.input samples) } := by
  have size : windowSize = 480 := rfl
  have step : windowStep = 160 := rfl
  have rest : hops.next ((copied before samples).drop windowStep) = none := by
    apply if_pos
    rw [List.length_drop, complete]
    decide
  have continued := tracks.continued samples
  rw [hops.scan_of_some (nextWindow_of_long (Nat.le_of_eq complete.symm)),
    hops.scan_of_none rest, List.take_of_length_le (Nat.le_of_eq complete)] at continued
  constructor
  · constructor
    · dsimp only
      rw [continued]
    · dsimp only
      rw [continued, List.map_append, ← tracks.windows]
      rfl
  · exact Nat.min_le_right _ _
  · rfl
  · have length := length_copied before samples
    dsimp only
    rw [List.length_drop, List.length_singleton]
    omega
  · exact ⟨[_], rfl, rfl⟩
  · rfl

theorem frontendProcessSamples_incomplete
    (incomplete : (copied before samples).length < windowSize) :
    frontendProcessSamples frontend samples before =
      (samplesToCopy before.input samples, [],
        { before with
          input := copied before samples
          taken := before.taken ++ samples.take (samplesToCopy before.input samples) }) :=
  if_pos incomplete

theorem frontendProcessSamples_completed
    (complete : ¬ (copied before samples).length < windowSize) :
    frontendProcessSamples frontend samples before =
      (samplesToCopy before.input samples,
        frontend.values (before.windows ++
          [weigh frontend.coefficients (copied before samples)]),
        { before with
          input := (copied before samples).drop windowStep
          windows := before.windows ++ [weigh frontend.coefficients (copied before samples)]
          taken := before.taken ++ samples.take (samplesToCopy before.input samples) }) :=
  if_neg complete

/-- `FrontendProcessSamples` takes all there is without completing a window, or as much
as completes one. -/
theorem frontendProcessSamples_cases (tracks : Tracks frontend before) :
    let result := frontendProcessSamples frontend samples before
    (result.1 = samples.length ∧ result.2.1 = [] ∧
        Advanced frontend samples before result.1 [] result.2.2) ∨
      (0 < result.1 ∧ result.2.1.length = featureSize ∧ result.2.2.input.length = 320 ∧
        Advanced frontend samples before result.1 [result.2.1.map quantizeInt8] result.2.2) := by
  have short := tracks.short
  have length := length_copied before samples
  have room : samplesToCopy before.input samples =
      min (windowSize - before.input.length) samples.length := rfl
  dsimp only
  by_cases incomplete : (copied before samples).length < windowSize
  · left
    rw [frontendProcessSamples_incomplete incomplete]
    exact ⟨by dsimp only; omega, rfl, advanced_incomplete tracks incomplete⟩
  · right
    have complete : (copied before samples).length = windowSize := by omega
    rw [frontendProcessSamples_completed incomplete]
    refine ⟨by dsimp only; omega, frontend.size _, ?_, advanced_completed tracks complete⟩
    have left : ((copied before samples).drop windowStep).length = 320 := by
      rw [List.length_drop, complete]
      rfl
    exact left

/-- The frame loop has gone from one state to another. It has read all there is or the
scratch buffer is full, and a full buffer leaves the window as a completed frame does. -/
structure Looped (frontend : Frontend) (maxFrames : Nat) (remaining : List Int)
    (frames : List (List Int)) (before : Pipeline) (used : Nat) (written : List (List Int))
    (after : Pipeline) : Prop where
  advanced : Advanced frontend remaining before used written after
  bounded : (frames ++ written).length ≤ maxFrames
  full : maxFrames ≤ (frames ++ written).length → after.input.length = 320
  stopped : used = remaining.length ∨ maxFrames ≤ (frames ++ written).length

theorem Looped.refl {maxFrames : Nat} {frames : List (List Int)} (tracks : Tracks frontend before)
    (bounded : frames.length ≤ maxFrames)
    (full : maxFrames ≤ frames.length → before.input.length = 320)
    (stopped : 0 = samples.length ∨ maxFrames ≤ frames.length) :
    Looped frontend maxFrames samples frames before 0 [] before where
  advanced := .refl tracks
  bounded := by rwa [List.append_nil]
  full := by rwa [List.append_nil]
  stopped := by rwa [List.append_nil]

/-- One more call of `FrontendProcessSamples` in front. -/
theorem Looped.trans {maxFrames first second : Nat} {remaining : List Int}
    {frames early late : List (List Int)} {middle after : Pipeline}
    (one : Advanced frontend remaining before first early middle)
    (two : Looped frontend maxFrames (remaining.drop first) (frames ++ early) middle second late
      after) :
    Looped frontend maxFrames remaining frames before (first + second) (early ++ late) after where
  advanced := one.trans two.advanced
  bounded := by
    rw [← List.append_assoc]
    exact two.bounded
  full := by
    rw [← List.append_assoc]
    exact two.full
  stopped := by
    have within := one.within
    have stopped := two.stopped
    rw [List.length_drop, List.append_assoc] at stopped
    omega

end

/-- The frame loop reads on until it has all or the scratch buffer is full. -/
theorem processLoop_looped {frontend : Frontend} {maxFrames fuel : Nat} {remaining : List Int}
    {frames : List (List Int)} {before : Pipeline} (tracks : Tracks frontend before)
    (enough : remaining.length ≤ fuel) (bounded : frames.length ≤ maxFrames)
    (full : maxFrames ≤ frames.length → before.input.length = 320) :
    ∃ used written after,
      processLoop frontend maxFrames fuel remaining frames before = (frames ++ written, after) ∧
        Looped frontend maxFrames remaining frames before used written after := by
  induction fuel generalizing remaining frames before with
  | zero =>
      refine ⟨0, [], before, ?_, .refl tracks bounded full ?_⟩
      · rw [processLoop, List.append_nil]
      · exact Or.inl (Nat.le_zero.mp enough).symm
  | succ fuel inductionHypothesis =>
      rw [processLoop]
      by_cases goes : 0 < remaining.length ∧ frames.length < maxFrames
      swap
      · refine ⟨0, [], before, ?_, .refl tracks bounded full (by omega)⟩
        rw [if_neg goes, List.append_nil]
      rw [if_pos goes]
      have cases := @frontendProcessSamples_cases frontend remaining before tracks
      revert cases
      generalize frontendProcessSamples frontend remaining before = result
      obtain ⟨consumed, values, next⟩ := result
      rintro (⟨all, none, advanced⟩ | ⟨some_, size, left, advanced⟩)
      · -- everything is read and no window completed
        dsimp only at all none advanced ⊢
        rw [if_neg (by omega), none, if_pos List.length_nil]
        have past : (remaining.drop consumed).length ≤ fuel := by
          rw [List.length_drop]
          omega
        have roomy : maxFrames ≤ frames.length → next.input.length = 320 :=
          fun reached => absurd goes.2 (Nat.not_lt_of_le reached)
        rw [← List.append_nil frames] at bounded roomy
        obtain ⟨used, written, after, result, looped⟩ :=
          inductionHypothesis advanced.tracks past bounded roomy
        rw [List.append_nil] at result
        exact ⟨consumed + used, written, after, result, .trans advanced looped⟩
      · -- a window is complete, and its features are a frame
        dsimp only at some_ size left advanced ⊢
        have forty : featureSize = 40 := rfl
        rw [if_neg (by omega), if_neg (by omega), if_neg (not_not.mpr size)]
        have past : (remaining.drop consumed).length ≤ fuel := by
          rw [List.length_drop]
          omega
        have more : (frames ++ [values.map quantizeInt8]).length ≤ maxFrames := by
          rw [List.length_append, List.length_singleton]
          exact goes.2
        obtain ⟨used, written, after, result, looped⟩ :=
          inductionHypothesis advanced.tracks past more (fun _ => left)
        rw [List.append_assoc] at result
        exact ⟨consumed + used, values.map quantizeInt8 :: written, after, result,
          .trans advanced looped⟩

/-- What the window and a chunk may hold together for 128 frames to use it up. -/
def scratchReach : Nat := windowSize + (maxFramesPerFeed - 1) * windowStep

/-- `process_impl` reads a whole chunk exactly when 128 frames reach to its end. -/
theorem process_advanced {frontend : Frontend} {pcm : List Int} {before : Pipeline}
    (tracks : Tracks frontend before) :
    ∃ used, Advanced frontend pcm before used (process frontend pcm before).1
        (process frontend pcm before).2 ∧
      (used = pcm.length ↔ before.input.length + pcm.length ≤ scratchReach) := by
  have size : windowSize = 480 := rfl
  have step : windowStep = 160 := rfl
  have limit : maxFramesPerFeed = 128 := rfl
  have reach : scratchReach = 20800 := rfl
  obtain ⟨used, written, after, result, looped⟩ :=
    @processLoop_looped frontend maxFramesPerFeed pcm.length pcm [] before tracks
      (Nat.le_refl _) (Nat.zero_le _) (fun reached => absurd reached (by decide))
  have room := looped.bounded
  have ready := looped.full
  have stopped := looped.stopped
  rw [List.nil_append] at result room ready stopped
  have short := looped.advanced.tracks.short
  have count := looped.advanced.count
  have within := looped.advanced.within
  rw [step] at count
  rw [process, result]
  refine ⟨used, looped.advanced, ?_⟩
  constructor
  · intro all
    rcases Nat.lt_or_ge written.length maxFramesPerFeed with less | full
    · omega
    · have left := ready full
      omega
  · intro fits
    rcases stopped with all | full
    · exact all
    · have left := ready full
      omega

/-! ### The model's half -/

/-- What pushing frames reads and writes. -/
def Pipeline.back (pipeline : Pipeline) :
    List (List Int) × List (List Int) × List (List (List Int)) × UInt8 :=
  (pipeline.slots, pipeline.pushed, pipeline.invokes, pipeline.lastScore)

def pushAll (model : StreamingModel) (frames : List (List Int)) (pipeline : Pipeline) : Pipeline :=
  frames.foldl (pushFeatureFrame model) pipeline

section

variable {model : StreamingModel} {left right : Pipeline}

theorem pushFeatureFrame_front (pipeline : Pipeline) (frame : List Int) :
    (pushFeatureFrame model pipeline frame).input = pipeline.input ∧
      (pushFeatureFrame model pipeline frame).windows = pipeline.windows ∧
      (pushFeatureFrame model pipeline frame).taken = pipeline.taken := by
  simp only [pushFeatureFrame]
  split_ifs <;> exact ⟨rfl, rfl, rfl⟩

theorem pushAll_front (frames : List (List Int)) (pipeline : Pipeline) :
    (pushAll model frames pipeline).input = pipeline.input ∧
      (pushAll model frames pipeline).windows = pipeline.windows ∧
      (pushAll model frames pipeline).taken = pipeline.taken := by
  induction frames generalizing pipeline with
  | nil => exact ⟨rfl, rfl, rfl⟩
  | cons frame rest inductionHypothesis =>
      obtain ⟨input, windows, taken⟩ := @pushFeatureFrame_front model pipeline frame
      have later := inductionHypothesis (pushFeatureFrame model pipeline frame)
      rw [input, windows, taken] at later
      exact later

theorem pushFeatureFrame_back (same : left.back = right.back) (frame : List Int) :
    (pushFeatureFrame model left frame).back = (pushFeatureFrame model right frame).back := by
  simp only [Pipeline.back, Prod.mk.injEq] at same
  obtain ⟨slots, pushed, invokes, score⟩ := same
  simp only [pushFeatureFrame, slots, pushed, invokes, score]
  split_ifs <;> simp [Pipeline.back]

theorem pushAll_append (first second : List (List Int)) (pipeline : Pipeline) :
    pushAll model (first ++ second) pipeline =
      pushAll model second (pushAll model first pipeline) :=
  List.foldl_append

theorem pushAll_back (same : left.back = right.back) (frames : List (List Int)) :
    (pushAll model frames left).back = (pushAll model frames right).back := by
  induction frames generalizing left right with
  | nil => exact same
  | cons frame rest inductionHypothesis =>
      exact inductionHypothesis (pushFeatureFrame_back same frame)

theorem pushFrames_pipeline (frames : List (List Int)) (feed : Feed) :
    (pushFrames model frames feed).pipeline = pushAll model frames feed.pipeline := by
  induction frames generalizing feed with
  | nil => rfl
  | cons frame rest inductionHypothesis =>
      have first : (pushFrames model [frame] feed).pipeline =
          pushFeatureFrame model feed.pipeline frame := by
        simp only [pushFrames, List.foldl_cons, List.foldl_nil]
        split_ifs <;> rfl
      have later := inductionHypothesis (pushFrames model [frame] feed)
      rw [first] at later
      exact later

end

/-! ### Whole recordings -/

section

variable (frontend : Frontend) (model : StreamingModel)

/-- What a chunk does to the state. -/
def stepChunk (pipeline : Pipeline) (chunk : List Int) : Pipeline :=
  pushAll model (process frontend chunk pipeline).1 (process frontend chunk pipeline).2

theorem feedChunk_pipeline (feed : Feed) (chunk : List Int) :
    (feedChunk frontend model feed chunk).pipeline =
      stepChunk frontend model feed.pipeline chunk :=
  pushFrames_pipeline _ _

theorem feedChunks_pipeline (chunks : List (List Int)) (feed : Feed) :
    (chunks.foldl (feedChunk frontend model) feed).pipeline =
      chunks.foldl (stepChunk frontend model) feed.pipeline := by
  induction chunks generalizing feed with
  | nil => rfl
  | cons chunk rest inductionHypothesis =>
      rw [List.foldl_cons, List.foldl_cons, inductionHypothesis, feedChunk_pipeline]

/-- The chunks that `wake_word_feed` cuts from its calls. -/
def chunksOf (calls : List (List Int)) : List (List Int) := calls.flatMap (pieces pcmPerChunk)

theorem chunksOf_cons (pcm : List Int) (rest : List (List Int)) :
    chunksOf (pcm :: rest) = pieces pcmPerChunk pcm ++ chunksOf rest := List.flatMap_cons

theorem feedAll_eq (calls : List (List Int)) :
    feedAll frontend model calls = (chunksOf calls).foldl (stepChunk frontend model) .reset := by
  unfold feedAll
  generalize Pipeline.reset = start
  induction calls generalizing start with
  | nil => rfl
  | cons pcm rest inductionHypothesis =>
      rw [List.foldl_cons, inductionHypothesis, chunksOf_cons, List.foldl_append]
      congr 1
      by_cases empty : pcm = []
      · rw [wakeWordFeed, if_pos empty, empty, pieces_nil]
        rfl
      · rw [wakeWordFeed, if_neg empty, feedChunks_pipeline]

theorem flatten_chunksOf (calls : List (List Int)) : (chunksOf calls).flatten = calls.flatten := by
  induction calls with
  | nil => rfl
  | cons pcm rest inductionHypothesis =>
      rw [chunksOf_cons, List.flatten_append, inductionHypothesis, flatten_pieces (by decide),
        List.flatten_cons]

/-- The state is what the samples taken make of it. -/
structure Consistent (pipeline : Pipeline) : Prop where
  tracks : Tracks frontend pipeline
  back : pipeline.back =
    (pushAll model (featuresFrom frontend [] pipeline.windows) .reset).back

theorem consistent_reset : Consistent frontend model .reset where
  tracks := by
    constructor
    · rw [show (Pipeline.reset).taken = [] from rfl, hops.scan_of_none rfl]
      rfl
    · rw [show (Pipeline.reset).taken = [] from rfl, hops.scan_of_none rfl]
      rfl
  back := rfl

variable {frontend model}

/-- Two states that have taken the same samples are the same. -/
theorem Consistent.eq {left right : Pipeline} (one : Consistent frontend model left)
    (other : Consistent frontend model right) (same : left.taken = right.taken) :
    left = right := by
  have input := one.tracks.input.trans (same ▸ other.tracks.input.symm)
  have windows := one.tracks.windows.trans (same ▸ other.tracks.windows.symm)
  have back := one.back
  rw [windows, ← other.back] at back
  simp only [Pipeline.back, Prod.mk.injEq] at back
  rw [Pipeline.mk.injEq]
  exact ⟨input, windows, same, back.1, back.2.1, back.2.2.1, back.2.2.2⟩

/-- A chunk keeps the state consistent and takes a part of it, all of it exactly when
128 frames reach to its end. -/
theorem stepChunk_consistent {pipeline : Pipeline} (consistent : Consistent frontend model pipeline)
    (chunk : List Int) :
    Consistent frontend model (stepChunk frontend model pipeline chunk) ∧
      ∃ used ≤ chunk.length,
        (stepChunk frontend model pipeline chunk).taken = pipeline.taken ++ chunk.take used ∧
        (used = chunk.length ↔ fill pipeline.taken.length + chunk.length ≤ scratchReach) := by
  obtain ⟨used, advanced, all⟩ := @process_advanced frontend chunk pipeline consistent.tracks
  obtain ⟨input, windows, taken⟩ := @pushAll_front model (process frontend chunk pipeline).1
    (process frontend chunk pipeline).2
  obtain ⟨grown, later, frames⟩ := advanced.features
  refine ⟨⟨⟨?_, ?_⟩, ?_⟩, used, advanced.within, taken.trans advanced.taken, ?_⟩
  · rw [stepChunk, input, taken]
    exact advanced.tracks.input
  · rw [stepChunk, windows, taken]
    exact advanced.tracks.windows
  · have kept : (process frontend chunk pipeline).2.back = pipeline.back := by
      rw [advanced.back]
      rfl
    rw [stepChunk, windows, later, featuresFrom_append, List.nil_append, ← frames, pushAll_append]
    exact pushAll_back (kept.trans consistent.back) _
  · rw [all, consistent.tracks.input, length_scan_rest]

/-- Every chunk is short enough for what waits in the window before it. -/
def FitsFrom : Nat → List (List Int) → Prop
  | _, [] => True
  | heard, chunk :: rest =>
      fill heard + chunk.length ≤ scratchReach ∧ FitsFrom (heard + chunk.length) rest

theorem chunks_consistent {pipeline : Pipeline} (consistent : Consistent frontend model pipeline)
    (chunks : List (List Int)) :
    Consistent frontend model (chunks.foldl (stepChunk frontend model) pipeline) ∧
      (chunks.foldl (stepChunk frontend model) pipeline).taken.length ≤
        pipeline.taken.length + chunks.flatten.length := by
  induction chunks generalizing pipeline with
  | nil => exact ⟨consistent, Nat.le_refl _⟩
  | cons chunk rest inductionHypothesis =>
      obtain ⟨next, used, within, taken, -⟩ := stepChunk_consistent consistent chunk
      obtain ⟨final, bound⟩ := inductionHypothesis next
      refine ⟨final, bound.trans ?_⟩
      rw [taken, List.length_append, List.length_take, List.flatten_cons, List.length_append]
      omega

/-- Nothing is skipped exactly when every chunk fits. -/
theorem taken_iff_fits {pipeline : Pipeline} (consistent : Consistent frontend model pipeline)
    (chunks : List (List Int)) :
    (chunks.foldl (stepChunk frontend model) pipeline).taken = pipeline.taken ++ chunks.flatten ↔
      FitsFrom pipeline.taken.length chunks := by
  induction chunks generalizing pipeline with
  | nil => exact iff_of_true (List.append_nil _).symm trivial
  | cons chunk rest inductionHypothesis =>
      obtain ⟨next, used, within, taken, all⟩ := stepChunk_consistent consistent chunk
      rw [FitsFrom, List.foldl_cons, List.flatten_cons, ← List.append_assoc]
      by_cases fits : fill pipeline.taken.length + chunk.length ≤ scratchReach
      · rw [all.mpr fits, List.take_length] at taken
        rw [← taken, inductionHypothesis next, taken, List.length_append]
        exact ⟨fun later => ⟨fits, later⟩, fun both => both.2⟩
      · have short : used < chunk.length :=
          Nat.lt_of_le_of_ne within (fun whole => fits (all.mp whole))
        constructor
        · -- what the chunk loses is never made up for
          intro whole
          have bound := (chunks_consistent next rest).2
          rw [whole, taken] at bound
          simp only [List.length_append, List.length_take] at bound
          omega
        · intro both
          exact absurd both.1 fits

end

/-- The chunks of the calls fit, from a reset on. -/
def Fits (calls : List (List Int)) : Prop := FitsFrom 0 (chunksOf calls)

/-- Nothing of a recording is skipped exactly when the chunks of its calls fit. -/
theorem taken_feedAll_iff (frontend : Frontend) (model : StreamingModel) (calls : List (List Int)) :
    (feedAll frontend model calls).taken = calls.flatten ↔ Fits calls := by
  rw [feedAll_eq, ← flatten_chunksOf]
  exact taken_iff_fits (consistent_reset frontend model) (chunksOf calls)

/-- Two ways of splitting a recording into calls push the same frames, make the same
`Invoke` calls and skip nothing exactly when every chunk of both fits. -/
theorem feed_split_independent_iff (frontend : Frontend) (model : StreamingModel)
    {first second : List (List Int)} (same : first.flatten = second.flatten) :
    ((feedAll frontend model first).pushed = (feedAll frontend model second).pushed ∧
        (feedAll frontend model first).invokes = (feedAll frontend model second).invokes ∧
        (feedAll frontend model first).taken = first.flatten ∧
        (feedAll frontend model second).taken = second.flatten) ↔
      Fits first ∧ Fits second := by
  have takes := taken_feedAll_iff frontend model
  have consistent : ∀ calls, Consistent frontend model (feedAll frontend model calls) := by
    intro calls
    rw [feedAll_eq]
    exact (chunks_consistent (consistent_reset frontend model) (chunksOf calls)).1
  constructor
  · rintro ⟨-, -, firstTaken, secondTaken⟩
    exact ⟨(takes first).mp firstTaken, (takes second).mp secondTaken⟩
  · rintro ⟨firstFits, secondFits⟩
    have firstTaken := (takes first).mpr firstFits
    have secondTaken := (takes second).mpr secondFits
    have equal := (consistent first).eq (consistent second)
      (firstTaken.trans (same.trans secondTaken.symm))
    exact ⟨congrArg Pipeline.pushed equal, congrArg Pipeline.invokes equal, firstTaken,
      secondTaken⟩

/-- Calls of at most a chunk each are the chunks. -/
theorem chunksOf_of_short {calls : List (List Int)}
    (short : ∀ pcm ∈ calls, 0 < pcm.length ∧ pcm.length ≤ pcmPerChunk) :
    chunksOf calls = calls := by
  induction calls with
  | nil => rfl
  | cons pcm rest inductionHypothesis =>
      rw [List.forall_mem_cons] at short
      rw [chunksOf_cons, pieces_of_short (List.length_pos_iff.mp short.1.1) short.1.2,
        inductionHypothesis short.2]
      rfl

/-- Features that say nothing, and a model that never scores. -/
def mutedFrontend : Frontend := ⟨[], fun _ => List.replicate featureSize 0, fun _ => rfl⟩

def mutedModel : StreamingModel := ⟨1, fun _ => some 0⟩

def silence (samples : Nat) : List Int := List.replicate samples 0

theorem length_silence (samples : Nat) : (silence samples).length = samples :=
  List.length_replicate

theorem silence_append (first second : Nat) :
    silence first ++ silence second = silence (first + second) :=
  List.replicate_append_replicate

/-- Two calls of silence fit when each is a chunk and the second one fits behind the
first. -/
theorem fits_silence {first second : Nat} (firstShort : 0 < first ∧ first ≤ pcmPerChunk)
    (secondShort : 0 < second ∧ second ≤ pcmPerChunk) :
    Fits [silence first, silence second] ↔
      fill 0 + first ≤ scratchReach ∧ fill first + second ≤ scratchReach := by
  have chunks : chunksOf [silence first, silence second] = [silence first, silence second] := by
    apply chunksOf_of_short
    simp only [List.forall_mem_cons, length_silence]
    exact ⟨firstShort, secondShort, by simp⟩
  rw [Fits, chunks]
  simp only [FitsFrom, length_silence, Nat.zero_add, and_true]

/-- Three windows in two ways. -/
theorem feed_split_independent_iff_threeWindows :
    (feedAll mutedFrontend mutedModel [silence 100, silence 700]).pushed =
      (feedAll mutedFrontend mutedModel [silence 400, silence 400]).pushed := by
  have same : [silence 100, silence 700].flatten = [silence 400, silence 400].flatten := by
    simp only [List.flatten_cons, List.flatten_nil, List.append_nil, silence_append]
  have one : Fits [silence 100, silence 700] :=
    (fits_silence (by decide) (by decide)).mpr (by decide)
  have other : Fits [silence 400, silence 400] :=
    (fits_silence (by decide) (by decide)).mpr (by decide)
  exact ((feed_split_independent_iff mutedFrontend mutedModel same).mpr ⟨one, other⟩).1

/-- A full chunk that finds 400 samples in the window loses its last 80. -/
theorem feed_split_independent_not_of_lateChunk :
    ¬ ∀ (frontend : Frontend) (model : StreamingModel) (first second : List (List Int)),
      first.flatten = second.flatten →
      (feedAll frontend model first).pushed = (feedAll frontend model second).pushed ∧
        (feedAll frontend model first).invokes = (feedAll frontend model second).invokes ∧
        (feedAll frontend model first).taken = first.flatten ∧
        (feedAll frontend model second).taken = second.flatten := by
  intro independent
  have same : [silence 400, silence 20480].flatten = [silence 20480, silence 400].flatten := by
    simp only [List.flatten_cons, List.flatten_nil, List.append_nil, silence_append]
  obtain ⟨-, -, taken, -⟩ := independent mutedFrontend mutedModel _ _ same
  have fits := (fits_silence (by decide) (by decide)).mp ((taken_feedAll_iff _ _ _).mp taken)
  exact absurd fits.2 (by decide)

end WallUnit.Firmware.WakeWord
