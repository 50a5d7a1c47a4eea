import Mathlib.Logic.Function.Basic
import WallUnit.Firmware.AudioOut.Lifecycle
import WallUnit.Firmware.WsClient.Events

/-!
Owns the two-phase branch of `voice_turn_execute` as one machine with the tasks it
shares state with: the WS task at the granularity of its gate, the steps of
`_tts_stream_handler` and its setting of `BIT_TTS_END`; the turn at the granularity
of `ws_client_expect_tts_stream`, `ws_client_wait_tts_end` and the session calls;
and the writer tasks. A label list is one interleaving.

Every byte carries the request id of the chunk it came in, which no code reads.
`log`, `owner`, `heardBefore` and `received` record what happened and no code reads
them either.

Does not own the LED or the state messages, which touch nothing modelled here, nor
the HTTP fallback beyond its playback. A playback is one step, with I2S closed before
and after it.
-/

namespace WallUnit.Firmware.TwoPhase

open WallUnit.Foundations
open WallUnit.Firmware.AudioOut
open WallUnit.Firmware.WsClient

/-- A byte of PCM and the request id of the chunk that brought it. -/
abbrev Sample := CString × UInt8

def tagged (requestId : CString) (pcm : List UInt8) : List Sample :=
  pcm.map fun byte => (requestId, byte)

theorem tagged_append (requestId : CString) (left right : List UInt8) :
    tagged requestId (left ++ right) = tagged requestId left ++ tagged requestId right :=
  List.map_append

/-- `meta.pending_id` of a two-phase turn: not empty, and within its 16 bytes. -/
structure PendingId where
  text : CString
  nonempty : text ≠ []
  short : text.length ≤ 15

/-- How a turn leaves the streaming path. -/
inductive Exit where
  | ackFailed
  | fellBack
deriving DecidableEq, Repr

/-- What follows a call of `audio_out_stream_end`. -/
inductive AfterEnd where
  | wait
  | streamed
  | leave (exit : Exit)
deriving DecidableEq, Repr

/-- Where the turn task stands, each phase named after what it does next. -/
inductive TurnPhase where
  | idle
  /-- In `ws_client_expect_tts_stream(id)`, before the bit is cleared. -/
  | stored
  | acking
  /-- At `audio_out_stream_is_active`, before the wait or (`late`) after it. -/
  | checking (late : Bool)
  | activating (late : Bool)
  | waiting (activated : Bool)
  /-- In `ws_client_wait_tts_end`, before the id is cleared. -/
  | tested (ended activated : Bool)
  | ending (after : AfterEnd)
  | endWaiting (after : AfterEnd) (semaphore : Option Nat)
  /-- At `ws_client_expect_tts_stream(NULL)`, and in it before the bit is cleared. -/
  | disarming (exit : Exit)
  | disarmed (exit : Exit)
  | cleaning (exit : Exit)
  /-- Past the success branch. -/
  | streamed
  | fetching
deriving DecidableEq, Repr

def Exit.next : Exit → TurnPhase
  | .ackFailed => .idle
  | .fellBack => .fetching

def AfterEnd.next : AfterEnd → TurnPhase
  | .wait => .waiting false
  | .streamed => .streamed
  | .leave exit => exit.next

/-- Where the WS task stands. -/
inductive WsPhase where
  | idle
  /-- Past the gate, before the handler's first test or, for an end, the bit. -/
  | gated (event : TtsEvent)
  | ending (requestId : CString) (sampleRate channels : Int)
  | endWaiting (requestId : CString) (sampleRate channels : Int) (semaphore : Option Nat)
  | beginning (requestId : CString) (sampleRate channels : Int)
  | pushing (requestId : CString) (pcm : List UInt8)
deriving DecidableEq, Repr

/-- What is recorded about `BIT_TTS_END` and the id it belongs to. -/
inductive Record where
  | stored (requestId : CString)
  | cleared (requestId : CString)
  | gated (requestId : CString)
  | signalled (requestId : CString)
  | tested (requestId : CString) (ended : Bool)
deriving DecidableEq, Repr

structure System where
  audio : AudioOut.State Sample
  expectTtsRequestId : CString
  ttsEndBit : Bool
  ws : WsPhase
  phase : TurnPhase
  /-- The id of the current turn, or of the last one. -/
  request : CString
  /-- The ids of all turns so far. -/
  armed : List CString
  /-- The id whose `tts_start` opened the current session. -/
  owner : CString
  /-- How much had been played when the current turn began. -/
  heardBefore : Nat
  /-- How many events of each request have reached the gate. -/
  received : CString → Nat
  log : List Record

def System.boot : System where
  audio := .boot
  expectTtsRequestId := []
  ttsEndBit := false
  ws := .idle
  phase := .idle
  request := []
  armed := []
  owner := []
  heardBefore := 0
  received := fun _ => 0
  log := []

/-- The bytes played since the current turn began. -/
def System.heard (system : System) : List Sample := system.audio.played.drop system.heardBefore

/-! ### The turn -/

/-- The outcomes of the calls a turn makes: `wav_parse`, I2S, the task creation, and
whether the wait for the writer times out. -/
structure TurnAnswers where
  parsed : EspErr
  i2s : I2sOutcome
  taskCreated : Bool
  timedOut : Bool
deriving DecidableEq

/-- `play_wav`, which leaves I2S closed. -/
def playWav (parsed : EspErr) (i2s : I2sOutcome) (audio : AudioOut.State Sample) :
    EspErr × AudioOut.State Sample :=
  if parsed ≠ .ok then (parsed, audio)
  else
    let opened := audioOutInit i2s audio
    if opened.1 ≠ .ok then opened else (.ok, audioOutDeinit opened.2)

/-- `beep_error`: whether or not I2S could be opened, it ends closed. -/
def beepError (audio : AudioOut.State Sample) : AudioOut.State Sample := audioOutDeinit audio

/-- `play_wav`, and `beep_error` when it fails. -/
def playOrBeep (parsed : EspErr) (i2s : I2sOutcome) (audio : AudioOut.State Sample) :
    EspErr × AudioOut.State Sample :=
  let played := playWav parsed i2s audio
  if played.1 = .ok then played else (played.1, beepError played.2)

/-- The start of a two-phase turn: `ws_client_expect_tts_stream` stores the id. -/
def arm (pending : PendingId) (system : System) : Option System :=
  if system.phase = .idle ∧ ∀ earlier ∈ system.armed, earlier ≠ pending.text then
    some { system with
      expectTtsRequestId := strncpyTerminated expectIdBytes pending.text
      phase := .stored
      request := pending.text
      armed := pending.text :: system.armed
      heardBefore := system.audio.played.length
      log := system.log ++ [.stored pending.text] }
  else none

/-- Where the turn goes from `audio_out_stream_activate`. -/
def afterActivate (activated late : Bool) : TurnPhase :=
  match activated, late with
  | true, true => .ending .streamed
  | true, false => .waiting true
  | false, true => .disarming .fellBack
  | false, false => .ending .wait

/-- One step of the turn. An idle turn may play a single-phase reply, or beep. -/
def turnStep (answers : TurnAnswers) (system : System) : Option System :=
  match system.phase with
  | .idle => some { system with audio := (playOrBeep answers.parsed answers.i2s system.audio).2 }
  | .stored =>
      some { system with
        ttsEndBit := false
        phase := .acking
        log := system.log ++ [.cleared system.request] }
  | .acking =>
      let played := playOrBeep answers.parsed answers.i2s system.audio
      some { system with
        audio := played.2
        phase := if played.1 = .ok then .checking false else .disarming .ackFailed }
  | .checking late =>
      some { system with
        phase :=
          if system.audio.streamActive then .activating late
          else if late then .disarming .fellBack else .waiting false }
  | .activating late =>
      let result := audioOutStreamActivate answers.i2s answers.taskCreated system.audio
      some { system with
        audio := result.2
        phase := afterActivate (result.1 = .ok) late }
  -- The bit is tested when the wait ends, also when it ends by timing out.
  | .waiting activated =>
      some { system with
        ttsEndBit := false
        phase := .tested system.ttsEndBit activated
        log := system.log ++ [.tested system.request system.ttsEndBit] }
  | .tested ended activated =>
      some { system with
        expectTtsRequestId := []
        phase :=
          if ended then if activated then .ending .streamed else .checking true
          else .disarming .fellBack }
  | .ending after =>
      match audioOutStreamEnd system.audio with
      | .returned _ audio => some { system with audio := audio, phase := after.next }
      | .blocked semaphore audio =>
          some { system with audio := audio, phase := .endWaiting after semaphore }
  | .endWaiting after semaphore =>
      (audioOutStreamEndReturn semaphore answers.timedOut system.audio).map fun audio =>
        { system with audio := audio, phase := after.next }
  | .disarming exit =>
      some { system with expectTtsRequestId := [], phase := .disarmed exit }
  | .disarmed exit => some { system with ttsEndBit := false, phase := .cleaning exit }
  | .cleaning exit =>
      some { system with
        phase := if system.audio.streamActive then .ending (.leave exit) else exit.next }
  | .streamed => some { system with phase := .idle }
  | .fetching =>
      some { system with
        audio := (playOrBeep answers.parsed answers.i2s system.audio).2
        phase := .idle }

/-! ### The WS task -/

/-- An end past the gate is recorded. -/
def gateRecord (event : TtsEvent) (matched : Bool) : List Record :=
  match event, matched with
  | .finish requestId _, true => [.gated requestId]
  | _, _ => []

/-- The gate of `_handle_server_event`, for a TTS event that has just arrived. -/
def receiveEvent (event : TtsEvent) (system : System) : Option System :=
  if system.ws = .idle then
    let requestId := event.requestId
    let matched := matchesExpected system.expectTtsRequestId requestId
    some { system with
      ws := if matched then .gated event else .idle
      received := Function.update system.received requestId (system.received requestId + 1)
      log := system.log ++ gateRecord event matched }
  else none

/-- One step of the WS task past the gate: `_tts_stream_handler`, and for an end the
setting of the bit. `ringKb` is `CONFIG_DWU_TTS_RING_KB`. -/
def wsStep (ringKb : Nat) (alloc : BeginAlloc) (timedOut : Bool) (system : System) :
    Option System :=
  match system.ws with
  | .idle => none
  | .gated (.start requestId sampleRate channels) =>
      some { system with
        ws :=
          if system.audio.streamActive then .ending requestId sampleRate channels
          else .beginning requestId sampleRate channels }
  | .gated (.chunk requestId pcm _) =>
      some { system with
        ws := if system.audio.streamActive then .pushing requestId pcm else .idle }
  | .gated (.finish requestId _) =>
      some { system with
        ws := .idle
        ttsEndBit := true
        log := system.log ++ [.signalled requestId] }
  | .ending requestId sampleRate channels =>
      match audioOutStreamEnd system.audio with
      | .returned _ audio =>
          some { system with audio := audio, ws := .beginning requestId sampleRate channels }
      | .blocked semaphore audio =>
          some { system with
            audio := audio
            ws := .endWaiting requestId sampleRate channels semaphore }
  | .endWaiting requestId sampleRate channels semaphore =>
      (audioOutStreamEndReturn semaphore timedOut system.audio).map fun audio =>
        { system with audio := audio, ws := .beginning requestId sampleRate channels }
  | .beginning requestId sampleRate channels =>
      let result := audioOutStreamBegin alloc (sampleRate % 4294967296).toNat 16
        (channels % 256).toNat (ringKb * 1024) system.audio
      some { system with
        audio := result.2
        ws := .idle
        owner := if result.1 = .ok then requestId else system.owner }
  | .pushing requestId pcm =>
      some { system with
        audio := (audioOutStreamPush (tagged requestId pcm) system.audio).2
        ws := .idle }

/-! ### The machine -/

inductive Label where
  | arm (pending : PendingId)
  | turn (answers : TurnAnswers)
  | receive (event : TtsEvent)
  | ws (alloc : BeginAlloc) (timedOut : Bool)
  | writer (index : Nat) (allocated : Bool)

def systemStep (ringKb : Nat) (system : System) : Label → Option System
  | .arm pending => arm pending system
  | .turn answers => turnStep answers system
  | .receive event => receiveEvent event system
  | .ws alloc timedOut => wsStep ringKb alloc timedOut system
  | .writer index allocated =>
      (writerStep index allocated system.audio).map fun audio => { system with audio := audio }

def machine (ringKb : Nat) : Machine System Label where
  init := .boot
  step := systemStep ringKb

/-! ### Parts of sample runs -/

def firstTurn : PendingId := ⟨"c0ffee000001".toList, by decide, by decide⟩

def secondTurn : PendingId := ⟨"c0ffee000002".toList, by decide, by decide⟩

/-- The turn takes a step and whatever it calls succeeds. -/
def turnGoes : Label := .turn ⟨.ok, .opened, true, false⟩

/-- The WS task takes a step and its allocations succeed. -/
def wsGoes : Label := .ws ⟨true, true, true⟩ false

/-- The event arrives while the WS task is idle, and is handled for `steps` steps. -/
def handle (event : TtsEvent) (steps : Nat) : List Label :=
  .receive event :: List.replicate steps wsGoes

end WallUnit.Firmware.TwoPhase
