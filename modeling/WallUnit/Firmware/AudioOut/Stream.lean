import WallUnit.Firmware.Esp
import WallUnit.Foundations.BoundedFifo

/-!
Owns the streaming playback session of `audio_out.c`: the static session
variables, `audio_out_stream_begin` / `push` / `activate` / `end`, the I2S
channel they open and close, and one step of `_writer_task`. Every allocation,
task creation and I2S call takes its outcome from the caller, so the model
covers each of them failing.

Objects created at run time (storage, stream buffer, semaphore, I2S channel)
carry a fresh handle; two objects are the same object exactly when their handles
agree. The bytes are of an arbitrary type, because nothing here reads them.

Does not own the tasks that call these functions, nor the silence the writer
pads with, which is counted but not recorded in `played`.
-/

namespace WallUnit.Firmware.AudioOut

open WallUnit.Foundations

/-- `read_chunk` of `_writer_task`. -/
def readChunk : Nat := 2048

/-- A FreeRTOS stream buffer. -/
structure StreamBuffer (α : Type) where
  handle : Nat
  fifo : BoundedFifo α

/-- `xStreamBufferCreateStatic`: storage of `size` bytes holds `size - 1`. -/
def xStreamBufferCreateStatic {α : Type} (handle size : Nat) : StreamBuffer α :=
  ⟨handle, .empty (size - 1)⟩

/-- The binary semaphore `s_drain_done`. -/
structure DrainSemaphore where
  handle : Nat
  given : Bool
deriving DecidableEq

/-- Where a writer task stands: before its two allocations, about to receive,
or after a receive that timed out with nothing. -/
inductive WriterPhase where
  | starting
  | receiving
  | starved
deriving DecidableEq

/-- A live writer task, with the ring and the I2S channel that existed when it
was started. -/
structure Writer where
  ring : Option Nat
  channel : Option Nat
  phase : WriterPhase
deriving DecidableEq

/-- The static variables of `audio_out.c`, the live writer tasks, and the bytes
handed to I2S so far (silence padding excluded). -/
structure State (α : Type) where
  txChan : Option Nat
  stream : Option (StreamBuffer α)
  streamStorage : Option Nat
  drainDone : Option DrainSemaphore
  streamActive : Bool
  streamDraining : Bool
  streamStopRequest : Bool
  streamSampleRate : Nat
  streamBits : Nat
  streamChannels : Nat
  underrunCount : Nat
  writers : List Writer
  played : List α
  nextHandle : Nat

variable {α : Type}

/-- The state at boot. -/
def State.boot : State α where
  txChan := none
  stream := none
  streamStorage := none
  drainDone := none
  streamActive := false
  streamDraining := false
  streamStopRequest := false
  streamSampleRate := 0
  streamBits := 16
  streamChannels := 1
  underrunCount := 0
  writers := []
  played := []
  nextHandle := 0

/-- The bytes waiting in the session's ring. -/
def State.ringBytes (state : State α) : List α :=
  match state.stream with
  | none => []
  | some buffer => buffer.fifo.queued

/-! ### I2S channel -/

/-- How `audio_out_init` fares: `i2s_new_channel` may fail, or a later call may
fail and delete the new channel. -/
inductive I2sOutcome where
  | noChannel
  | notConfigured
  | opened
deriving DecidableEq

/-- `audio_out_init`. -/
def audioOutInit (outcome : I2sOutcome) (state : State α) : EspErr × State α :=
  match outcome with
  | .noChannel => (.fail, state)
  | .notConfigured => (.fail, { state with txChan := none })
  | .opened =>
      (.ok, { state with txChan := some state.nextHandle, nextHandle := state.nextHandle + 1 })

/-- `audio_out_deinit`. -/
def audioOutDeinit (state : State α) : State α := { state with txChan := none }

/-! ### Session operations -/

/-- Which of the three allocations of `audio_out_stream_begin` succeed. -/
structure BeginAlloc where
  storage : Bool
  buffer : Bool
  semaphore : Bool
deriving DecidableEq

/-- The session `audio_out_stream_begin` leaves when every allocation worked. -/
def openSession (sampleRate bits channels ringBytes : Nat) (state : State α) : State α :=
  { state with
    streamStorage := some state.nextHandle
    stream := some (xStreamBufferCreateStatic (state.nextHandle + 1) ringBytes)
    drainDone := some ⟨state.nextHandle + 2, false⟩
    streamSampleRate := sampleRate
    streamBits := bits
    streamChannels := channels
    streamStopRequest := false
    streamDraining := false
    underrunCount := 0
    streamActive := true
    nextHandle := state.nextHandle + 3 }

/-- `audio_out_stream_begin`. -/
def audioOutStreamBegin (alloc : BeginAlloc) (sampleRate bits channels ringBytes : Nat)
    (state : State α) : EspErr × State α :=
  if state.streamActive then (.invalidState, state)
  else
    let ringBytes := if ringBytes < 1024 then 1024 else ringBytes
    if !alloc.storage then (.noMem, { state with streamStorage := none })
    else if !alloc.buffer then (.noMem, { state with stream := none, streamStorage := none })
    else if !alloc.semaphore then
      (.noMem, { state with stream := none, streamStorage := none, drainDone := none })
    else (.ok, openSession sampleRate bits channels ringBytes state)

/-- `audio_out_stream_push`, at the moment `xStreamBufferSend` returns: either
there is room for everything, or the wait has timed out and the prefix that
fits is stored. -/
def audioOutStreamPush (pcm : List α) (state : State α) : EspErr × State α :=
  if !state.streamActive then (.invalidState, state)
  else
    match state.stream with
    | none => (.invalidState, state)
    | some buffer =>
        let sent := buffer.fifo.accepted pcm
        let pushed := { state with stream := some { buffer with fifo := buffer.fifo.offer pcm } }
        if sent ≠ pcm.length then (.timeout, pushed) else (.ok, pushed)

/-- `audio_out_stream_activate`. -/
def audioOutStreamActivate (i2s : I2sOutcome) (taskCreated : Bool) (state : State α) :
    EspErr × State α :=
  if !state.streamActive then (.invalidState, state)
  else if state.streamDraining then (.invalidState, state)
  else
    let (ret, opened) := audioOutInit i2s state
    if ret ≠ .ok then (ret, opened)
    else if !taskCreated then (.noMem, audioOutDeinit { opened with streamDraining := false })
    else
      (.ok, { opened with
        streamDraining := true
        writers := opened.writers ++
          [⟨opened.stream.map StreamBuffer.handle, opened.txChan, .starting⟩] })

/-- The tail of `audio_out_stream_end`: forget the session. -/
def releaseStream (state : State α) : State α :=
  { state with
    streamActive := false
    stream := none
    streamStorage := none
    drainDone := none }

/-- What a call of `audio_out_stream_end` does up to its first blocking point. -/
inductive EndCall (α : Type) where
  | returned (err : EspErr) (state : State α)
  | blocked (semaphore : Option Nat) (state : State α)

/-- `audio_out_stream_end` up to `xSemaphoreTake(s_drain_done, ...)`. -/
def audioOutStreamEnd (state : State α) : EndCall α :=
  if !state.streamActive then .returned .invalidState state
  else
    let stopping := { state with streamStopRequest := true }
    if stopping.streamDraining then
      .blocked (stopping.drainDone.map DrainSemaphore.handle) stopping
    else .returned .ok (releaseStream stopping)

/-- `audio_out_stream_end` from the return of `xSemaphoreTake` on: the take
either succeeded, which needs the semaphore it waits on to have been given, or
timed out. Both ways the session is torn down. -/
def audioOutStreamEndReturn (semaphore : Option Nat) (timedOut : Bool) (state : State α) :
    Option (State α) :=
  let torn := releaseStream { audioOutDeinit state with streamDraining := false }
  if timedOut then some torn
  else
    match state.drainDone with
    | none => none
    | some drain => if drain.given ∧ semaphore = some drain.handle then some torn else none

/-! ### Writer task -/

/-- The exit of `_writer_task`: give the semaphore and delete the task. Giving a
NULL semaphore asserts, so that path has no successor. -/
def writerExit (index : Nat) (state : State α) : Option (State α) :=
  match state.drainDone with
  | none => none
  | some drain =>
      some { state with
        drainDone := some { drain with given := true }
        writers := state.writers.eraseIdx index }

/-- One step of `_writer_task` number `index`: its allocations, one receive with
the I2S write that follows, or the test made after an empty receive. Receiving
from a NULL stream buffer asserts. -/
def writerStep (index : Nat) (allocated : Bool) (state : State α) : Option (State α) :=
  match state.writers[index]? with
  | none => none
  | some writer =>
      let enter (phase : WriterPhase) (state : State α) : State α :=
        { state with writers := state.writers.set index { writer with phase := phase } }
      match writer.phase with
      | .starting =>
          if allocated then some (enter .receiving state) else writerExit index state
      | .receiving =>
          match state.stream with
          | none => none
          | some buffer =>
              let got := buffer.fifo.queued.take readChunk
              if got.isEmpty then some (enter .starved state)
              else
                some { state with
                  stream := some { buffer with fifo := buffer.fifo.poll readChunk }
                  played := state.played ++ (if state.txChan.isSome then got else []) }
      | .starved =>
          match state.stream with
          | none => none
          | some buffer =>
              if state.streamStopRequest ∧ buffer.fifo.queued.isEmpty then writerExit index state
              else
                some (enter .receiving { state with underrunCount := state.underrunCount + 1 })

end WallUnit.Firmware.AudioOut
