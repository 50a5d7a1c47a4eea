import Mathlib
import WallUnit.Firmware.OpusStream

/-!
Owns `_capture_utterance` of `voice_turn.c`: the 20 ms frame loop with its
end-pointing counters, the pipelined Opus encoding, and the fixed-window
recording of builds without VAD. The microphone is a list of samples together
with how much each read hands out; a read past the end of the list times out.

Does not own what becomes of the capture; the encoder's answers are inputs.
-/

namespace WallUnit.Firmware.VoiceTurn

open WallUnit.Firmware.Opus

/-- `RECORD_RATE`. -/
def recordRate : Nat := 16000

/-- `frame_ms` of `_capture_utterance`. -/
def frameMs : Nat := 20

/-- `frame_samples`. -/
def frameSamples : Nat := recordRate / 1000 * frameMs

/-- The Kconfig values the capture reads. -/
structure VadConfig where
  enabled : Bool
  hangoverMs : Nat
  maxLeadSilenceMs : Nat
  minUtteranceMs : Nat
  speechEnergyThreshold : Nat
deriving DecidableEq, Repr

/-- The samples still to come and how many each successive read returns at most. -/
structure Microphone where
  samples : List Int
  splits : List Nat
deriving DecidableEq, Repr

/-- Call `audio_in_capture_read` until `want` samples are there or a read returns
none. -/
def readFully (want : Nat) : List Nat → List Int → List Int → List Int × Microphone
  | [], samples, got => (got, ⟨samples, []⟩)
  | size :: splits, samples, got =>
      if got.length < want then
        let read := samples.take (min size (want - got.length))
        if read = [] then (got, ⟨samples, splits⟩)
        else readFully want splits (samples.drop read.length) (got ++ read)
      else (got, ⟨samples, size :: splits⟩)

/-- The variables of the frame loop. `stream` is the caller's encoder, `feeding`
says that the local `enc` still points to it, and `frames` counts full frames. -/
structure Capture where
  mic : Microphone
  pcm : List Int
  leadFrames : Nat
  speechFrames : Nat
  trailingSilence : Nat
  speechStarted : Bool
  frames : Nat
  stream : Option OpusStream
  feeding : Bool
  armed : Bool
deriving DecidableEq, Repr

def Capture.start (mic : Microphone) (stream : Option OpusStream) : Capture where
  mic := mic
  pcm := []
  leadFrames := 0
  speechFrames := 0
  trailingSilence := 0
  speechStarted := false
  frames := 0
  stream := stream
  feeding := stream.isSome
  armed := true

/-- `mean_sq` of a frame. -/
def meanSq (frame : List Int) : Nat :=
  (frame.map fun sample => sample.natAbs * sample.natAbs).sum / frameSamples

/-- The pipelined encode: feed the frame, and stop feeding at the first error. -/
def feedFrame (encoder : Nat → EncodeOutcome) (capture : Capture) : Capture :=
  match capture.feeding, capture.stream with
  | true, some stream =>
      let (err, stream) := opusStreamEncodeFrame frameSamples (encoder capture.frames) stream
      { capture with stream := some stream, feeding := decide (err = .ok) }
  | _, _ => capture

/-- A full frame has been read: feed it and append it to `pcm`. -/
def takeFrame (encoder : Nat → EncodeOutcome) (frame : List Int) (mic : Microphone)
    (capture : Capture) : Capture :=
  { feedFrame encoder capture with
    mic := mic
    pcm := capture.pcm ++ frame
    frames := capture.frames + 1 }

/-- The frame loop. `room` is the number of whole frames that still fit, so
`0 < room` is `total + frame_samples <= max_samples`. The answer says whether the
capture was abandoned for want of speech. -/
def captureLoop (config : VadConfig) (encoder : Nat → EncodeOutcome) :
    Nat → Capture → Bool × Capture
  | 0, capture => (false, capture)
  | room + 1, capture =>
      let (frame, mic) := readFully frameSamples capture.mic.splits capture.mic.samples []
      if frame.length ≠ frameSamples then
        (false, { capture with mic := mic, pcm := capture.pcm ++ frame })
      else
        let taken := takeFrame encoder frame mic capture
        if config.speechEnergyThreshold ≤ meanSq frame then
          captureLoop config encoder room { taken with
            speechFrames := taken.speechFrames + 1
            trailingSilence := 0
            speechStarted := true }
        else if !taken.speechStarted then
          let taken := { taken with leadFrames := taken.leadFrames + 1 }
          if config.maxLeadSilenceMs / frameMs ≤ taken.leadFrames then (true, taken)
          else captureLoop config encoder room taken
        else
          let taken := { taken with trailingSilence := taken.trailingSilence + 1 }
          if config.hangoverMs / frameMs ≤ taken.trailingSilence then (false, taken)
          else captureLoop config encoder room taken

/-- What `_capture_utterance` leaves behind. -/
structure Captured where
  err : EspErr
  actual : Nat
  capture : Capture
deriving DecidableEq, Repr

/-- `audio_in_record`, for builds without VAD: one bulk read, no encoding. -/
def audioInRecord (capture : Capture) (maxSamples : Nat) : Captured :=
  let (pcm, mic) := readFully maxSamples capture.mic.splits capture.mic.samples []
  { err := if pcm = [] then .fail else .ok
    actual := pcm.length
    capture := { capture with mic := mic, pcm := pcm, armed := false } }

/-- `_capture_utterance`. `armErr` is what `audio_in_capture_arm` returns. -/
def captureUtterance (config : VadConfig) (encoder : Nat → EncodeOutcome) (armErr : EspErr)
    (mic : Microphone) (maxSamples : Nat) (stream : Option OpusStream) : Captured :=
  let start := Capture.start mic stream
  if armErr ≠ .ok then ⟨armErr, 0, { start with armed := false }⟩
  else if !config.enabled then audioInRecord start maxSamples
  else
    let (abandoned, capture) := captureLoop config encoder (maxSamples / frameSamples) start
    let capture := { capture with armed := false }
    if abandoned then ⟨.timeout, 0, capture⟩
    else if capture.speechFrames < config.minUtteranceMs / frameMs then ⟨.fail, 0, capture⟩
    else ⟨.ok, capture.pcm.length, capture⟩

end WallUnit.Firmware.VoiceTurn
