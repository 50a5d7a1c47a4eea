import Mathlib.Tactic.IntervalCases
import WallUnit.Firmware.VoiceTurn.Capture
import WallUnit.Firmware.WavUtil

/-!
Owns the first half of `voice_turn_execute`, from the PCM allocation to the body
it uploads, and the question whether that body carries the whole utterance. It
does exactly when the encoder never fails on a frame after a packet has been
stored: `represents_iff_unbroken`.

Does not own the upload itself.
-/

namespace WallUnit.Firmware.VoiceTurn

open WallUnit.Firmware.Opus
open WallUnit.Firmware.Wav

/-- `content_type` of the upload. -/
inductive ContentType where
  | wav
  | dwuOpus
deriving DecidableEq, Repr

structure Upload where
  contentType : ContentType
  body : List UInt8
deriving DecidableEq, Repr

/-- How the recording half of a turn ends. -/
inductive Recording where
  | failed (err : EspErr)
  | quiet
  | upload (upload : Upload)
deriving DecidableEq, Repr

/-- Which allocations work, and what `audio_in_capture_arm` returns. -/
structure TurnAlloc where
  pcm : Bool
  encoder : Bool
  armErr : EspErr
  wav : Bool
deriving DecidableEq, Repr

/-- The choice of body: the Opus buffer if it is not empty, else a WAV. -/
def selectBody (captured : Captured) (wavAllocated : Bool) : Recording :=
  let opus := match captured.capture.stream with
    | none => []
    | some stream => (opusStreamFinalize stream).2
  if opus ≠ [] then .upload ⟨.dwuOpus, opus⟩
  else if wavAllocated then
    .upload ⟨.wav, wavWrap (captured.capture.pcm.take captured.actual) recordRate⟩
  else .failed .noMem

/-- The capture of a turn. The encoder is built before it, if Opus is enabled and
its allocations work. -/
def turnCapture (config : VadConfig) (encodeOpus : Bool) (alloc : TurnAlloc)
    (encoder : Nat → EncodeOutcome) (mic : Microphone) (maxSamples : Nat) : Captured :=
  let stream := if encodeOpus && alloc.encoder then some (opusStreamCreate recordRate) else none
  captureUtterance config encoder alloc.armErr mic maxSamples stream

/-- `voice_turn_execute` up to the call of `http_post_voice_turn`. -/
def recordTurn (config : VadConfig) (encodeOpus : Bool) (alloc : TurnAlloc)
    (encoder : Nat → EncodeOutcome) (mic : Microphone) (maxSamples : Nat) : Recording :=
  if !alloc.pcm then .failed .noMem
  else
    let captured := turnCapture config encodeOpus alloc encoder mic maxSamples
    match captured.err with
    | .timeout => .quiet
    | .ok => selectBody captured alloc.wav
    | err => .failed err

/-! ### What the encoder would have produced -/

/-- The packets of the first `frames` frames, the failed calls left out. -/
def packetsBefore (encoder : Nat → EncodeOutcome) (frames : Nat) : List (List UInt8) :=
  (List.range frames).filterMap fun frame => (encoder frame).packet

/-- The encoder after `frames` successful calls, if they all succeed. -/
def streamAfter (encoder : Nat → EncodeOutcome) : Nat → Option OpusStream
  | 0 => some (opusStreamCreate recordRate)
  | frames + 1 =>
      (streamAfter encoder frames).bind fun stream =>
        let (err, next) := opusStreamEncodeFrame frameSamples (encoder frames) stream
        if err = .ok then some next else none

/-- The call for `frame` fails, and none before it does. -/
def FailsFirst (encoder : Nat → EncodeOutcome) (frame : Nat) : Prop :=
  (streamAfter encoder frame).isSome ∧ streamAfter encoder (frame + 1) = none

/-- The body carries everything captured: one record for every full frame whose
packet is longer than two bytes, or the WAV of all samples. -/
def Represents (encoder : Nat → EncodeOutcome) (captured : Captured) (upload : Upload) : Prop :=
  (upload.contentType = .dwuOpus ∧
    (∀ frame < captured.capture.frames, (encoder frame).packet.isSome) ∧
    upload.body = framing ((packetsBefore encoder captured.capture.frames).filter fun packet =>
      2 < packet.length)) ∨
  (upload.contentType = .wav ∧
    upload.body = wavWrap (captured.capture.pcm.take captured.actual) recordRate)

/-- The encoder does not fail on a frame of the capture once a packet is stored. -/
def Unbroken (encoder : Nat → EncodeOutcome) (captured : Captured) : Prop :=
  captured.capture.stream = none ∨
    ∀ frame < captured.capture.frames, FailsFirst encoder frame →
      ∀ earlier < frame, ∀ packet, (encoder earlier).packet = some packet → packet.length ≤ 2

theorem framing_filter (packets : List (List UInt8)) :
    framing (packets.filter fun packet => 2 < packet.length) = packets.flatMap contribution := by
  induction packets with
  | nil => rfl
  | cons packet rest inductionHypothesis =>
      by_cases long : 2 < packet.length
      · have short : ¬ packet.length ≤ 2 := by omega
        rw [List.filter_cons_of_pos (by simpa using long), framing, List.flatMap_cons,
          List.flatMap_cons, contribution, if_neg short, ← framing, inductionHypothesis]
      · have short : packet.length ≤ 2 := by omega
        rw [List.filter_cons_of_neg (by simpa using long), List.flatMap_cons, contribution,
          if_pos short, List.nil_append, inductionHypothesis]

theorem packetsBefore_succ (encoder : Nat → EncodeOutcome) (frames : Nat) :
    packetsBefore encoder (frames + 1) =
      packetsBefore encoder frames ++ (encoder frames).packet.toList := by
  unfold packetsBefore
  rw [List.range_succ, List.filterMap_append]
  cases result : (encoder frames).packet with
  | none => simp [result]
  | some packet => simp [result]

/-- As long as every call succeeds, the buffer is the framing of the packets. -/
theorem streamAfter_spec {encoder : Nat → EncodeOutcome} {frames : Nat} {stream : OpusStream}
    (fed : streamAfter encoder frames = some stream) :
    stream.frameSamples = frameSamples ∧
      stream.buf = (packetsBefore encoder frames).flatMap contribution ∧
      ∀ frame < frames, (encoder frame).packet.isSome := by
  induction frames generalizing stream with
  | zero =>
      cases fed
      exact ⟨rfl, rfl, by simp⟩
  | succ frames inductionHypothesis =>
      obtain ⟨before, fedBefore, encoded⟩ := Option.bind_eq_some_iff.mp fed
      obtain ⟨samples, buffer, packets⟩ := inductionHypothesis fedBefore
      cases outcome : opusStreamEncodeFrame frameSamples (encoder frames) before with
      | mk err next =>
          simp only [outcome] at encoded
          by_cases succeeded : err = .ok
          · rw [if_pos succeeded] at encoded
            cases encoded
            subst succeeded
            obtain ⟨same, packet, result, appended⟩ := encodeFrame_of_ok outcome
            refine ⟨same.trans samples, ?_, ?_⟩
            · rw [appended, buffer, packetsBefore_succ, List.flatMap_append, result]
              simp
            · intro frame below
              rcases Nat.lt_succ_iff_lt_or_eq.mp below with before | rfl
              · exact packets frame before
              · rw [result]
                rfl
          · rw [if_neg succeeded] at encoded
            cases encoded

theorem streamAfter_isSome_of_le {encoder : Nat → EncodeOutcome} {fewer frames : Nat}
    (le : fewer ≤ frames) (fed : (streamAfter encoder frames).isSome) :
    (streamAfter encoder fewer).isSome := by
  induction le with
  | refl => exact fed
  | step _ inductionHypothesis =>
      apply inductionHypothesis
      rw [streamAfter] at fed
      cases before : streamAfter encoder _ with
      | none =>
          rw [before] at fed
          contradiction
      | some stream => rfl

theorem not_failsFirst_of_fed {encoder : Nat → EncodeOutcome} {frame frames : Nat}
    (below : frame < frames) (fed : (streamAfter encoder frames).isSome) :
    ¬ FailsFirst encoder frame := by
  intro first
  have later := streamAfter_isSome_of_le (show frame + 1 ≤ frames from below) fed
  rw [first.2] at later
  contradiction

/-- There is at most one first failure. -/
theorem FailsFirst.unique {encoder : Nat → EncodeOutcome} {first second : Nat}
    (one : FailsFirst encoder first) (other : FailsFirst encoder second) : first = second := by
  rcases Nat.lt_trichotomy first second with before | same | after
  · exact absurd one (not_failsFirst_of_fed before other.1)
  · exact same
  · exact absurd other (not_failsFirst_of_fed after one.1)

/-! ### What the capture leaves in the encoder -/

/-- Either every frame so far went into the stream, or the stream stopped at the
first failing frame. -/
def Fed (encoder : Nat → EncodeOutcome) (capture : Capture) : Prop :=
  ∀ stream, capture.stream = some stream →
    (capture.feeding = true ∧ streamAfter encoder capture.frames = some stream) ∨
    (capture.feeding = false ∧ ∃ frame < capture.frames,
      FailsFirst encoder frame ∧ streamAfter encoder frame = some stream)

theorem Fed.of_same {encoder : Nat → EncodeOutcome} {before after : Capture}
    (fed : Fed encoder before) (stream : after.stream = before.stream)
    (feeding : after.feeding = before.feeding) (frames : after.frames = before.frames) :
    Fed encoder after := by
  unfold Fed
  rw [stream, feeding, frames]
  exact fed

theorem Fed.takeFrame {encoder : Nat → EncodeOutcome} {capture : Capture}
    (fed : Fed encoder capture) (frame : List Int) (mic : Microphone) :
    Fed encoder (takeFrame encoder frame mic capture) := by
  intro stream current
  cases feeding : capture.feeding with
  | false =>
      have same : feedFrame encoder capture = capture := by simp [feedFrame, feeding]
      simp only [VoiceTurn.takeFrame, same] at current ⊢
      rcases fed stream current with ⟨contra, -⟩ | ⟨off, failing, below, stopped⟩
      · rw [feeding] at contra
        contradiction
      · exact Or.inr ⟨off, failing, Nat.lt_succ_of_lt below, stopped⟩
  | true =>
      cases held : capture.stream with
      | none =>
          simp [VoiceTurn.takeFrame, feedFrame, feeding, held] at current
      | some before =>
          have reached : streamAfter encoder capture.frames = some before := by
            rcases fed before held with ⟨-, reached⟩ | ⟨off, -⟩
            · exact reached
            · rw [feeding] at off
              contradiction
          cases outcome : opusStreamEncodeFrame frameSamples (encoder capture.frames) before with
          | mk err next =>
              have fedFrame : feedFrame encoder capture =
                  { capture with stream := some next, feeding := decide (err = .ok) } := by
                simp [feedFrame, feeding, held, outcome]
              simp only [VoiceTurn.takeFrame, fedFrame] at current ⊢
              cases current
              have advance : streamAfter encoder (capture.frames + 1) =
                  if err = .ok then some stream else none := by
                simp [streamAfter, reached, outcome]
              by_cases succeeded : err = .ok
              · rw [if_pos succeeded] at advance
                exact Or.inl ⟨by simp [succeeded], advance⟩
              · rw [if_neg succeeded] at advance
                have samples := (streamAfter_spec reached).1
                obtain ⟨rfl, -⟩ := encodeFrame_of_failure samples.symm outcome succeeded
                have first : FailsFirst encoder capture.frames := ⟨by rw [reached]; rfl, advance⟩
                exact Or.inr
                  ⟨by simp [succeeded], capture.frames, Nat.lt_succ_self _, first, reached⟩

theorem Fed.captureLoop {encoder : Nat → EncodeOutcome} {config : VadConfig} {room : Nat}
    {capture : Capture} (fed : Fed encoder capture) :
    Fed encoder (captureLoop config encoder room capture).2 := by
  induction room generalizing capture with
  | zero => exact fed
  | succ room inductionHypothesis =>
      rw [VoiceTurn.captureLoop]
      cases readFully frameSamples capture.mic.splits capture.mic.samples [] with
      | mk frame mic =>
          have taken := fed.takeFrame frame mic
          simp only
          split_ifs
          · exact fed.of_same rfl rfl rfl
          · exact inductionHypothesis (taken.of_same rfl rfl rfl)
          · exact taken.of_same rfl rfl rfl
          · exact inductionHypothesis (taken.of_same rfl rfl rfl)
          · exact taken.of_same rfl rfl rfl
          · exact inductionHypothesis (taken.of_same rfl rfl rfl)

theorem fed_start (encoder : Nat → EncodeOutcome) (mic : Microphone) {stream : Option OpusStream}
    (fresh : ∀ created, stream = some created → created = opusStreamCreate recordRate) :
    Fed encoder (Capture.start mic stream) := by
  intro created current
  have same := fresh created current
  simp only [Capture.start] at current
  subst current same
  exact Or.inl ⟨rfl, rfl⟩

theorem fed_captureUtterance {config : VadConfig} {encoder : Nat → EncodeOutcome} {armErr : EspErr}
    {mic : Microphone} {maxSamples : Nat} {stream : Option OpusStream}
    (fresh : ∀ created, stream = some created → created = opusStreamCreate recordRate) :
    Fed encoder (captureUtterance config encoder armErr mic maxSamples stream).capture := by
  have start := fed_start encoder mic fresh
  unfold captureUtterance
  simp only
  split_ifs
  · exact start.of_same rfl rfl rfl
  · exact start.of_same rfl rfl rfl
  · exact start.captureLoop.of_same rfl rfl rfl
  · exact start.captureLoop.of_same rfl rfl rfl
  · exact start.captureLoop.of_same rfl rfl rfl

theorem fed_turnCapture (config : VadConfig) (encodeOpus : Bool) (alloc : TurnAlloc)
    (encoder : Nat → EncodeOutcome) (mic : Microphone) (maxSamples : Nat) :
    Fed encoder (turnCapture config encodeOpus alloc encoder mic maxSamples).capture := by
  apply fed_captureUtterance
  intro created current
  split_ifs at current
  · exact (Option.some.inj current).symm

/-! ### Whether the body carries the utterance -/

theorem packetsBefore_prefix (encoder : Nat → EncodeOutcome) {fewer frames : Nat}
    (le : fewer ≤ frames) :
    ∃ rest, packetsBefore encoder frames = packetsBefore encoder fewer ++ rest := by
  induction le with
  | refl => exact ⟨[], (List.append_nil _).symm⟩
  | step _ inductionHypothesis =>
      obtain ⟨rest, same⟩ := inductionHypothesis
      exact ⟨_, by rw [packetsBefore_succ, same, List.append_assoc]⟩

theorem contributions_eq_nil_iff (encoder : Nat → EncodeOutcome) (frames : Nat) :
    (packetsBefore encoder frames).flatMap contribution = [] ↔
      ∀ frame < frames, ∀ packet, (encoder frame).packet = some packet → packet.length ≤ 2 := by
  have short : ∀ packet, contribution packet = [] ↔ packet.length ≤ 2 := by
    intro packet
    unfold contribution
    split_ifs with dtx
    · exact ⟨fun _ => dtx, fun _ => rfl⟩
    · exact ⟨fun empty => absurd empty (record_ne_nil packet), fun few => absurd few dtx⟩
  simp only [packetsBefore, List.flatMap_eq_nil_iff, List.mem_filterMap, List.mem_range, short]
  constructor
  · intro all frame below packet result
    exact all packet ⟨frame, below, result⟩
  · rintro all packet ⟨frame, below, result⟩
    exact all frame below packet result

/-- A stream that stopped at a failing frame misses a record of a later prefix. -/
theorem stopped_ne_whole {encoder : Nat → EncodeOutcome} {failing frames : Nat}
    {stream : OpusStream} (below : failing < frames) (first : FailsFirst encoder failing)
    (stopped : streamAfter encoder failing = some stream)
    (whole : ∀ frame < frames, (encoder frame).packet.isSome) :
    stream.buf ≠ (packetsBefore encoder frames).flatMap contribution := by
  obtain ⟨samples, buffer, -⟩ := streamAfter_spec stopped
  obtain ⟨packet, result⟩ := Option.isSome_iff_exists.mp (whole failing below)
  have long : 2 < packet.length := by
    have failed := first.2
    simp only [streamAfter, stopped, Option.bind_some] at failed
    cases outcome : opusStreamEncodeFrame frameSamples (encoder failing) stream with
    | mk err next =>
        rw [outcome] at failed
        have notOk : err ≠ .ok := by
          intro ok
          simp [ok] at failed
        exact (encodeFrame_of_failure samples.symm outcome notOk).2 packet result
  obtain ⟨rest, extended⟩ := packetsBefore_prefix encoder (show failing + 1 ≤ frames from below)
  have missing : contribution packet ≠ [] := by
    have notShort : ¬ packet.length ≤ 2 := by omega
    rw [contribution, if_neg notShort]
    exact record_ne_nil packet
  rw [buffer, extended, packetsBefore_succ, result]
  simp [missing]

/-- If nothing has been stored, nothing had been when the encoder was broken off. -/
theorem Fed.unbroken_of_empty {encoder : Nat → EncodeOutcome} {captured : Captured}
    {stream : OpusStream} (fed : Fed encoder captured.capture)
    (held : captured.capture.stream = some stream) (empty : stream.buf = []) :
    Unbroken encoder captured := by
  refine Or.inr fun frame below first => ?_
  rcases fed stream held with ⟨-, reached⟩ | ⟨-, failing, -, other, stopped⟩
  · exact absurd first (not_failsFirst_of_fed below (by rw [reached]; rfl))
  · obtain rfl := first.unique other
    rw [(streamAfter_spec stopped).2.1] at empty
    exact (contributions_eq_nil_iff encoder frame).mp empty

/-- If something has been stored, it is the whole utterance exactly when the encoder was
not broken off. -/
theorem Fed.whole_iff_unbroken {encoder : Nat → EncodeOutcome} {captured : Captured}
    {stream : OpusStream} (fed : Fed encoder captured.capture)
    (held : captured.capture.stream = some stream) (stored : stream.buf ≠ []) :
    ((∀ frame < captured.capture.frames, (encoder frame).packet.isSome) ∧
      stream.buf = (packetsBefore encoder captured.capture.frames).flatMap contribution) ↔
      Unbroken encoder captured := by
  rcases fed stream held with ⟨-, reached⟩ | ⟨-, failing, below, first, stopped⟩
  · obtain ⟨-, buffer, packets⟩ := streamAfter_spec reached
    refine ⟨fun _ => Or.inr fun frame below first => ?_, fun _ => ⟨packets, buffer⟩⟩
    exact absurd first (not_failsFirst_of_fed below (by rw [reached]; rfl))
  · constructor
    · rintro ⟨whole, body⟩
      exact absurd body (stopped_ne_whole below first stopped whole)
    · rintro (absent | unbroken)
      · rw [held] at absent
        contradiction
      · have few := unbroken failing below first
        rw [← contributions_eq_nil_iff, ← (streamAfter_spec stopped).2.1] at few
        exact absurd few stored

theorem selectBody_of_uploads {config : VadConfig} {encodeOpus : Bool} {alloc : TurnAlloc}
    {encoder : Nat → EncodeOutcome} {mic : Microphone} {maxSamples : Nat} {upload : Upload}
    (uploads : recordTurn config encodeOpus alloc encoder mic maxSamples = .upload upload) :
    selectBody (turnCapture config encodeOpus alloc encoder mic maxSamples) alloc.wav =
      .upload upload := by
  unfold recordTurn at uploads
  split_ifs at uploads
  dsimp only at uploads
  split at uploads
  · contradiction
  · exact uploads
  · contradiction

/-- A turn uploads a body that carries the whole utterance exactly when the
encoder was not broken off with packets already stored. -/
theorem represents_iff_unbroken (config : VadConfig) (encodeOpus : Bool) (alloc : TurnAlloc)
    (encoder : Nat → EncodeOutcome) (mic : Microphone) (maxSamples : Nat) (upload : Upload)
    (uploads : recordTurn config encodeOpus alloc encoder mic maxSamples = .upload upload) :
    Represents encoder (turnCapture config encodeOpus alloc encoder mic maxSamples) upload ↔
      Unbroken encoder (turnCapture config encodeOpus alloc encoder mic maxSamples) := by
  have fed := fed_turnCapture config encodeOpus alloc encoder mic maxSamples
  have selected := selectBody_of_uploads uploads
  generalize turnCapture config encodeOpus alloc encoder mic maxSamples = captured at fed selected ⊢
  cases held : captured.capture.stream with
  | none =>
      simp only [selectBody, held] at selected
      split_ifs at selected with contra
      · contradiction
      · cases selected
        exact ⟨fun _ => Or.inl held, fun _ => Or.inr ⟨rfl, rfl⟩⟩
  | some stream =>
      simp only [selectBody, held, opusStreamFinalize] at selected
      by_cases empty : stream.buf = []
      · rw [if_neg (not_not.mpr empty)] at selected
        split_ifs at selected
        cases selected
        exact ⟨fun _ => fed.unbroken_of_empty held empty, fun _ => Or.inr ⟨rfl, rfl⟩⟩
      · rw [if_pos empty] at selected
        cases selected
        rw [← fed.whole_iff_unbroken held empty, Represents, framing_filter]
        constructor
        · rintro (⟨-, whole⟩ | ⟨contra, -⟩)
          · exact whole
          · contradiction
        · exact fun whole => Or.inl ⟨rfl, whole⟩

/-- One speech frame and one silent frame end an utterance. -/
def briefConfig : VadConfig := ⟨true, 20, 40, 20, 1⟩

def briefMicrophone : Microphone :=
  ⟨List.replicate frameSamples 100 ++ List.replicate frameSamples 0, [frameSamples, frameSamples]⟩

def briefAlloc : TurnAlloc := ⟨true, true, .ok, true⟩

/-- Three bytes for the first frame, an encoder error on every later one. -/
def brokenEncoder : Nat → EncodeOutcome
  | 0 => ⟨some [1, 2, 3], true⟩
  | _ + 1 => ⟨none, true⟩

def soundEncoder : Nat → EncodeOutcome := fun _ => ⟨some [1, 2, 3], true⟩

theorem represents_of_soundEncoder :
    Represents soundEncoder
      (turnCapture briefConfig true briefAlloc soundEncoder briefMicrophone 960)
      ⟨.dwuOpus, [3, 0, 1, 2, 3, 3, 0, 1, 2, 3]⟩ :=
  (represents_iff_unbroken briefConfig true briefAlloc soundEncoder briefMicrophone 960 _
    (by decide +kernel)).mpr (Or.inr fun frame below first => by
      have frames : (turnCapture briefConfig true briefAlloc soundEncoder briefMicrophone
        960).capture.frames = 2 := by decide +kernel
      rw [frames] at below
      interval_cases frame <;> exact absurd first.2 (by decide))

theorem represents_not_of_brokenEncoder :
    ¬ ∀ (config : VadConfig) (encodeOpus : Bool) (alloc : TurnAlloc)
      (encoder : Nat → EncodeOutcome) (mic : Microphone) (maxSamples : Nat) (upload : Upload),
      recordTurn config encodeOpus alloc encoder mic maxSamples = .upload upload →
        Represents encoder (turnCapture config encodeOpus alloc encoder mic maxSamples) upload := by
  intro all
  have represents := all briefConfig true briefAlloc brokenEncoder briefMicrophone 960
    ⟨.dwuOpus, [3, 0, 1, 2, 3]⟩ (by decide +kernel)
  have frames : (turnCapture briefConfig true briefAlloc brokenEncoder briefMicrophone
    960).capture.frames = 2 := by decide +kernel
  rcases represents with ⟨-, whole, -⟩ | ⟨contra, -⟩
  · exact absurd (whole 1 (by rw [frames]; decide)) (by decide)
  · cases contra

end WallUnit.Firmware.VoiceTurn
