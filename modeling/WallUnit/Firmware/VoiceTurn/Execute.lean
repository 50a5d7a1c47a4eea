import WallUnit.Firmware.HttpClient
import WallUnit.Firmware.VoiceTurn.Upload
import WallUnit.Foundations.Ownership

/-!
Owns `voice_turn_execute` as a whole, as the sequence of what it asks of the heap, the LED and
the WebSocket client on every path, and the discipline of that sequence: every block but the
mutex of the stream handler is freed once and not touched afterwards
(`voiceTurnExecute_returns_heap`), and no path leaves an expected stream behind
(`voiceTurnExecute_expects_nothing`).

Does not own the streaming session and its interleavings with the WebSocket task, which
`TwoPhase` cuts at their shared variables; what the session answers is an input here, and so
is what `play_wav` returns for a file.
-/

namespace WallUnit.Firmware.VoiceTurn

open WallUnit.Foundations
open WallUnit.Firmware.Opus
open WallUnit.Firmware.HttpClient (Exchange httpPostVoiceTurn httpGetVoiceResult)

/-! ### What a turn asks for -/

/-- The blocks a turn allocates. The buffer of the Opus stream becomes the body when the
stream is finalized, and `response` and `answer` are the buffers of the two requests. -/
inductive Block where
  | tone
  | pcm
  | opusStream
  | opusEncoder
  | opusBuf
  | packetScratch
  | captureRing
  | wavBody
  | response
  | answer
  | client
deriving DecidableEq, Repr

/-- The block that the first two-phase turn creates and no turn frees. -/
inductive Kept where
  | ttsRegisteredMutex
deriving DecidableEq, Repr

inductive LedState where
  | off
  | amber
  | red
  | blue
  | green
  | white
deriving DecidableEq, Repr

/-- `status_led_set`, as the colour it shows. -/
def statusLed : LedState → Nat × Nat × Nat
  | .off => (0, 0, 0)
  | .amber => (60, 30, 0)
  | .red => (120, 0, 0)
  | .blue => (0, 0, 100)
  | .green => (0, 100, 0)
  | .white => (60, 60, 60)

inductive Action where
  | heap (op : HeapOp Block)
  | kept (op : HeapOp Kept)
  | setTtsHandler
  | led (color : Nat × Nat × Nat)
  | sendState (state : CString) (turnId : Option CString)
  | expectTtsStream (requestId : Option CString)
  | expectPendingReady (requestId : CString)
  | waitTtsEnd
deriving DecidableEq, Repr

def setLed (state : LedState) : Action := .led (statusLed state)

def sendState (state : String) (turnId : Option CString) : Action := .sendState state.toList turnId

/-- The allocations of `opus_stream_create`, in their order. -/
structure CreateAlloc where
  stream : Bool
  encoder : Bool
  buf : Bool
  packetScratch : Bool
deriving DecidableEq, Repr

/-- What `audio_out` and `ws_client` answer in the second half of a two-phase turn. -/
structure StreamAnswers where
  activeAfterAck : Bool
  activateErr : EspErr
  ttsEnd : Bool
  activeAtEnd : Bool
  lateActivateErr : EspErr
deriving DecidableEq, Repr

/-- The statics of `_ensure_tts_handler_registered`. `mutex` says that
`s_tts_registered_mutex` is not null. -/
structure Registration where
  mutex : Bool
  registered : Bool
deriving DecidableEq, Repr

/-- Everything a turn gets from outside, and the statics as it finds them. -/
structure TurnWorld where
  config : VadConfig
  encodeOpus : Bool
  maxSamples : Nat
  startTone : Bool
  stopTone : Bool
  errorTones : Bool × Bool
  pcmAllocated : Bool
  create : CreateAlloc
  armErr : EspErr
  encoder : Nat → EncodeOutcome
  mic : Microphone
  wavAllocated : Bool
  post : Exchange
  get : Exchange
  play : List UInt8 → EspErr
  stream : StreamAnswers
  registration : Registration
  mutexCreated : Bool

/-! ### The parts of a turn -/

/-- Operations behind an `if` without `else`. -/
def opsIf (condition : Bool) (ops : List (HeapOp Block)) : List (HeapOp Block) :=
  if condition then ops else []

/-- `beep`: the tone is filled in and written to I2S. -/
def beep (allocated : Bool) : List (HeapOp Block) :=
  opsIf allocated [.alloc .tone, .use .tone, .free .tone]

def beepError (world : TurnWorld) : List (HeapOp Block) :=
  beep world.errorTones.1 ++ beep world.errorTones.2

def CreateAlloc.works (create : CreateAlloc) : Bool :=
  create.stream && create.encoder && create.buf && create.packetScratch

/-- `opus_stream_create`. -/
def opusStreamCreateOps (create : CreateAlloc) : List (HeapOp Block) :=
  if !create.stream then []
  else if !create.encoder then [.alloc .opusStream, .free .opusStream]
  else
    .alloc .opusStream :: .alloc .opusEncoder :: opsIf create.buf [.alloc .opusBuf] ++
      opsIf create.packetScratch [.alloc .packetScratch] ++
      if create.buf && create.packetScratch then []
      else
        opsIf create.buf [.free .opusBuf] ++ opsIf create.packetScratch [.free .packetScratch] ++
          [.free .opusEncoder, .free .opusStream]

/-- `opus_stream_destroy`. `buf` says that the stream still has its buffer. -/
def opusStreamDestroyOps (buf : Bool) : List (HeapOp Block) :=
  .free .opusEncoder :: opsIf buf [.free .opusBuf] ++ [.free .packetScratch, .free .opusStream]

/-- `opus_stream_encode_frame`: a packet of more than two bytes goes into the buffer, which
may be reallocated for it. -/
def encodeFrameOps (outcome : EncodeOutcome) : List (HeapOp Block) :=
  .use .opusStream :: .use .opusEncoder :: .use .packetScratch ::
    opsIf (2 < (outcome.packet.getD []).length) [.use .opusBuf]

namespace TurnWorld

variable (world : TurnWorld)

/-- Whether the turn has an encoder. -/
def hasEncoder : Bool := world.encodeOpus && world.create.works

def alloc : TurnAlloc := ⟨world.pcmAllocated, world.create.works, world.armErr, world.wavAllocated⟩

def captured : Captured :=
  turnCapture world.config world.encodeOpus world.alloc world.encoder world.mic world.maxSamples

/-- What finalizing the Opus stream hands out. -/
def opusBody : List UInt8 :=
  match world.captured.capture.stream with
  | none => []
  | some stream => (opusStreamFinalize stream).2

/-- One frame of `_capture_utterance`: it is read from the ring and, as long as no call has
failed, encoded. -/
def frameOps (frame : Nat) : List (HeapOp Block) :=
  .use .captureRing :: .use .pcm ::
    opsIf (world.hasEncoder && (streamAfter world.encoder frame).isSome)
      (encodeFrameOps (world.encoder frame))

/-- `_capture_utterance`, the read that ends it included. -/
def captureOps : List (HeapOp Block) :=
  if world.armErr ≠ .ok then []
  else
    .alloc .captureRing :: (List.range world.captured.capture.frames).flatMap world.frameOps ++
      [.use .captureRing, .use .pcm, .free .captureRing]

/-- The end of `_capture_utterance` and of the PCM on a path that uploads nothing. -/
def dropRecordingOps : List (HeapOp Block) :=
  opsIf world.hasEncoder (opusStreamDestroyOps true) ++ [.free .pcm]

end TurnWorld

/-- `http_post_voice_turn`, from the buffer it allocates to the client it cleans up. -/
def httpPostOps (body : Block) (exchange : Exchange) : List (HeapOp Block) :=
  if exchange.allocated = false then []
  else if exchange.initialized = false then [.alloc .response, .free .response]
  else
    .alloc .response :: .alloc .client :: .use body ::
      exchange.events.map (fun _ => .use .response) ++
      if exchange.performed = .ok ∧ exchange.status = 200 then [.free .client]
      else [.free .response, .free .client]

/-- `http_get_voice_result`. -/
def httpGetOps (exchange : Exchange) : List (HeapOp Block) :=
  if exchange.allocated = false then []
  else if exchange.initialized = false then [.alloc .answer, .free .answer]
  else
    .alloc .answer :: .alloc .client :: exchange.events.map (fun _ => .use .answer) ++
      if exchange.performed = .ok ∧ exchange.status = 200 then [.free .client]
      else [.free .client, .free .answer]

/-! ### The turn -/

def ops (ops : List (HeapOp Block)) : List Action := ops.map Action.heap

/-- The rest of a turn behind some actions. -/
def after (actions : List Action) (rest : EspErr × List Action) : EspErr × List Action :=
  (rest.1, actions ++ rest.2)

/-- The end of the paths that show an error. -/
def failTurn (world : TurnWorld) (err : EspErr) : EspErr × List Action :=
  (err, setLed .red :: ops (beepError world))

/-- The end of the paths that play. -/
def endTurn : EspErr × List Action := (.ok, [setLed .off])

/-- The paths that end a turn without a sound. -/
def quietTurn : EspErr × List Action := (.ok, [setLed .off, sendState "idle" none])

/-- The branch that fetches the answer. -/
def fetchAnswer (world : TurnWorld) (pendingId : CString) : EspErr × List Action :=
  let result := httpGetVoiceResult world.get
  after ([.expectTtsStream none, setLed .blue, sendState "uploading" (some pendingId)] ++
      ops (httpGetOps world.get)) <|
    if result.1 ≠ .ok then failTurn world result.1
    else
      after ([setLed .green, sendState "playing" (some pendingId)] ++
          ops [.use .answer, .free .answer]) <|
        if world.play result.2.1 ≠ .ok then failTurn world (world.play result.2.1) else endTurn

/-- `_ensure_tts_handler_registered`. What `xSemaphoreCreateMutex` returns is not checked: the
mutex is taken even if it could not be created, and the unit does not come back from that. -/
def ensureTtsHandlerRegistered (world : TurnWorld) : List Action :=
  (if !world.registration.mutex && world.mutexCreated then [.kept (.alloc .ttsRegisteredMutex)]
    else []) ++
    [.kept (.use .ttsRegisteredMutex)] ++
    (if world.registration.registered then [] else [.setTtsHandler]) ++
    [.kept (.use .ttsRegisteredMutex)]

/-- The two-phase branch. -/
def twoPhase (world : TurnWorld) (wav : List UInt8) (pendingId : CString) :
    EspErr × List Action :=
  let playing := [setLed .green, sendState "playing" (some pendingId)]
  after (ensureTtsHandlerRegistered world ++
      [.expectTtsStream (some pendingId), .expectPendingReady pendingId] ++ playing ++
      ops [.use .response, .free .response]) <|
    if world.play wav ≠ .ok then
      after (failTurn world .ok).2 (world.play wav, [.expectTtsStream none])
    else
      let activated := world.stream.activeAfterAck && world.stream.activateErr = .ok
      let late := world.stream.ttsEnd && !activated && world.stream.activeAtEnd &&
        world.stream.lateActivateErr = .ok
      after ((if activated then playing else []) ++ [.waitTtsEnd] ++
          if late then playing else []) <|
        if world.stream.ttsEnd && (activated || late) then endTurn
        else fetchAnswer world pendingId

/-- The single-phase branch. -/
def singlePhase (world : TurnWorld) (wav : List UInt8) : EspErr × List Action :=
  after ([setLed .green, sendState "playing" none] ++ ops [.use .response, .free .response]) <|
    if world.play wav ≠ .ok then failTurn world (world.play wav) else endTurn

/-- From the upload on. -/
def postTurn (world : TurnWorld) (body : Block) : EspErr × List Action :=
  let result := httpPostVoiceTurn world.post
  let wav := result.2.1
  let pendingId := result.2.2.pendingId
  after (ops (httpPostOps body world.post ++ [.free body])) <|
    if result.1 ≠ .ok then failTurn world result.1
    else if wav.length = 0 then
      after (ops (opsIf (world.post.status ≠ 204) [.free .response])) quietTurn
    else if pendingId ≠ [] then twoPhase world wav pendingId
    else singlePhase world wav

/-- The body: the buffer of the Opus stream if it is not empty, else a WAV. -/
def uploadTurn (world : TurnWorld) : EspErr × List Action :=
  let finalized := opsIf world.hasEncoder
    (.use .opusStream :: opusStreamDestroyOps false ++
      opsIf (world.opusBody = []) [.free .opusBuf])
  after (ops (beep world.stopTone) ++ [setLed .blue, sendState "uploading" none] ++
      ops finalized) <|
    if world.opusBody ≠ [] then after (ops [.free .pcm]) (postTurn world .opusBuf)
    else if world.wavAllocated then
      after (ops [.alloc .wavBody, .use .wavBody, .use .pcm, .free .pcm]) (postTurn world .wavBody)
    else after (ops [.free .pcm]) (failTurn world .noMem)

/-- `voice_turn_execute`: what it returns and what it does. -/
def voiceTurnExecute (world : TurnWorld) : EspErr × List Action :=
  after ([setLed .amber] ++ ops (beep world.startTone) ++
      [setLed .red, sendState "recording" none]) <|
    if world.pcmAllocated = false then failTurn world .noMem
    else
      after (ops (.alloc .pcm :: opsIf world.encodeOpus (opusStreamCreateOps world.create) ++
          world.captureOps)) <|
        match world.captured.err with
        | .timeout => after (ops world.dropRecordingOps) quietTurn
        | .ok => uploadTurn world
        | err => after (ops world.dropRecordingOps) (failTurn world err)

/-- Everything works, and nobody says a word. -/
def silentTurn : TurnWorld where
  config := ⟨true, 700, 20, 400, 1000⟩
  encodeOpus := true
  maxSamples := 320
  startTone := true
  stopTone := true
  errorTones := (true, true)
  pcmAllocated := true
  create := ⟨true, true, true, true⟩
  armErr := .ok
  encoder := fun _ => ⟨some [1, 2, 3], false⟩
  mic := ⟨List.replicate 320 0, [320]⟩
  wavAllocated := true
  post := ⟨true, true, [], .fail, 0⟩
  get := ⟨true, true, [], .fail, 0⟩
  play := fun _ => .ok
  stream := ⟨false, .ok, false, false, .ok⟩
  registration := ⟨false, false⟩
  mutexCreated := true

/-! ### Every block is returned -/

/-- What a sequence of actions does to the heap. -/
def heapOps (actions : List Action) : List (HeapOp Block) :=
  actions.filterMap fun action =>
    match action with
    | .heap op => some op
    | _ => none

@[simp] theorem heapOps_ops (list : List (HeapOp Block)) : heapOps (ops list) = list := by
  rw [heapOps, ops, List.filterMap_map]
  exact List.filterMap_some

@[simp] theorem heapOps_append (first second : List Action) :
    heapOps (first ++ second) = heapOps first ++ heapOps second := List.filterMap_append

@[simp] theorem heapOps_ensureTtsHandlerRegistered (world : TurnWorld) :
    heapOps (ensureTtsHandlerRegistered world) = [] := by
  unfold ensureTtsHandlerRegistered
  split_ifs <;> rfl

/-- The rest of a turn that is entered with some blocks held frees them all. -/
def Returns (held : Finset Block) (turn : EspErr × List Action) : Prop :=
  Takes held (heapOps turn.2) ∅

theorem Returns.after {held : Finset Block} (middle : Finset Block) {actions : List Action}
    {rest : EspErr × List Action} (takes : Takes held (heapOps actions) middle)
    (returns : Returns middle rest) : Returns held (after actions rest) := by
  rw [Returns, VoiceTurn.after, heapOps_append]
  exact takes.append returns

theorem beep_takes {held : Finset Block} (silent : .tone ∉ held) (allocated : Bool) :
    Takes held (beep allocated) held := by
  cases allocated with
  | false => exact Takes.nil held
  | true =>
      have onlyUsed : ∀ op ∈ [HeapOp.use Block.tone], op = .use .tone := by simp
      exact Takes.bracket silent onlyUsed

theorem failTurn_returns (world : TurnWorld) (err : EspErr) : Returns ∅ (failTurn world err) := by
  show Takes ∅ (heapOps (ops (beepError world))) ∅
  rw [heapOps_ops]
  exact (beep_takes (by decide) _).append (beep_takes (by decide) _)

theorem endTurn_returns : Returns ∅ endTurn := rfl

theorem quietTurn_returns : Returns ∅ quietTurn := rfl

/-! #### Requests -/

/-- A request succeeds with a body or, where that is a success, without one. -/
theorem request_ok_iff (silent : Option Int) (exchange : Exchange) :
    (HttpClient.request silent exchange).1 = .ok ↔
      exchange.allocated = true ∧ exchange.initialized = true ∧ exchange.performed = .ok ∧
        (silent = some exchange.status ∨ exchange.status = 200) := by
  unfold HttpClient.request
  cases exchange.allocated with
  | false => simp
  | true =>
      cases exchange.initialized with
      | false => simp
      | true =>
          dsimp only
          split_ifs <;> simp_all

/-- The caller gets the buffer. -/
def HandsOut (exchange : Exchange) : Prop :=
  exchange.allocated = true ∧ exchange.initialized = true ∧ exchange.performed = .ok ∧
    exchange.status = 200

instance (exchange : Exchange) : Decidable (HandsOut exchange) := instDecidableAnd

theorem httpPost_ok_iff (exchange : Exchange) :
    (httpPostVoiceTurn exchange).1 = .ok ∧ exchange.status ≠ 204 ↔ HandsOut exchange := by
  rw [httpPostVoiceTurn, request_ok_iff]
  constructor
  · rintro ⟨⟨allocated, initialized, performed, dropped | fine⟩, notDropped⟩
    · exact absurd (Option.some.inj dropped).symm notDropped
    · exact ⟨allocated, initialized, performed, fine⟩
  · rintro ⟨allocated, initialized, performed, fine⟩
    refine ⟨⟨allocated, initialized, performed, Or.inr fine⟩, ?_⟩
    rw [fine]
    decide

/-- A turn the server dropped has no body. -/
theorem httpPost_dropped {exchange : Exchange} (dropped : exchange.status = 204) :
    (httpPostVoiceTurn exchange).2.1 = [] := by
  rw [httpPostVoiceTurn, HttpClient.request]
  by_cases allocated : exchange.allocated = false
  · rw [if_pos allocated]
  by_cases initialized : exchange.initialized = false
  · rw [if_neg allocated, if_pos initialized]
  rw [if_neg allocated, if_neg initialized]
  dsimp only
  by_cases performed : exchange.performed ≠ .ok
  · rw [if_pos performed]
  · rw [if_neg performed, if_pos (by rw [dropped])]

theorem httpGet_ok_iff (exchange : Exchange) :
    (httpGetVoiceResult exchange).1 = .ok ↔ HandsOut exchange := by
  rw [httpGetVoiceResult, request_ok_iff, HandsOut]
  simp

theorem uses_takes {held : Finset Block} {block : Block} (live : block ∈ held)
    (exchange : Exchange) :
    Takes held (exchange.events.map fun _ => .use block) held := by
  apply Takes.uses
  intro op member
  obtain ⟨event, -, rfl⟩ := List.mem_map.mp member
  exact ⟨block, live, rfl⟩

/-- What the request allocates is held afterwards exactly when the caller gets the buffer. -/
theorem httpPostOps_takes {body : Block} (isBody : body = .opusBuf ∨ body = .wavBody)
    (exchange : Exchange) :
    Takes {body} (httpPostOps body exchange)
      (if HandsOut exchange then {body, .response} else {body}) := by
  rw [httpPostOps]
  by_cases allocated : exchange.allocated = false
  · rw [if_pos allocated, if_neg (by simp [HandsOut, allocated])]
    exact Takes.nil _
  by_cases initialized : exchange.initialized = false
  · rw [if_neg allocated, if_pos initialized, if_neg (by simp [HandsOut, initialized])]
    rcases isBody with rfl | rfl <;> decide
  rw [if_neg allocated, if_neg initialized]
  have uses : Takes {.client, .response, body} (exchange.events.map fun _ => .use .response)
      {.client, .response, body} := uses_takes (by simp) exchange
  by_cases success : exchange.performed = .ok ∧ exchange.status = 200
  · rw [if_pos success, if_pos (by simp_all [HandsOut])]
    rcases isBody with rfl | rfl
    all_goals
      apply Takes.alloc (by decide)
      apply Takes.alloc (by decide)
      apply Takes.use (by decide)
      exact uses.append (by decide)
  · rw [if_neg success, if_neg fun handsOut => success handsOut.2.2]
    rcases isBody with rfl | rfl
    all_goals
      apply Takes.alloc (by decide)
      apply Takes.alloc (by decide)
      apply Takes.use (by decide)
      exact uses.append (by decide)

theorem httpGetOps_takes (exchange : Exchange) :
    Takes ∅ (httpGetOps exchange) (if HandsOut exchange then {.answer} else ∅) := by
  rw [httpGetOps]
  by_cases allocated : exchange.allocated = false
  · rw [if_pos allocated, if_neg (by simp [HandsOut, allocated])]
    exact Takes.nil _
  by_cases initialized : exchange.initialized = false
  · rw [if_neg allocated, if_pos initialized, if_neg (by simp [HandsOut, initialized])]
    decide
  rw [if_neg allocated, if_neg initialized]
  have uses := uses_takes (show Block.answer ∈ ({.client, .answer} : Finset Block) by simp) exchange
  by_cases success : exchange.performed = .ok ∧ exchange.status = 200
  · rw [if_pos success, if_pos (by simp_all [HandsOut])]
    apply Takes.alloc (by decide)
    apply Takes.alloc (by decide)
    exact uses.append (by decide)
  · rw [if_neg success, if_neg fun handsOut => success handsOut.2.2]
    apply Takes.alloc (by decide)
    apply Takes.alloc (by decide)
    exact uses.append (by decide)

/-! #### The turn -/

/-- Actions that end with operations on the heap and do nothing else to it. -/
theorem takes_ops {held middle : Finset Block} {list : List (HeapOp Block)} {front : List Action}
    (quiet : heapOps front = []) (takes : Takes held list middle) :
    Takes held (heapOps (front ++ ops list)) middle := by
  rwa [heapOps_append, quiet, List.nil_append, heapOps_ops]

theorem fetchAnswer_returns (world : TurnWorld) (pendingId : CString) :
    Returns ∅ (fetchAnswer world pendingId) := by
  have requested := httpGetOps_takes world.get
  have success := httpGet_ok_iff world.get
  unfold fetchAnswer
  generalize httpGetVoiceResult world.get = result at success ⊢
  dsimp only
  by_cases handsOut : HandsOut world.get
  · rw [if_pos handsOut] at requested
    apply Returns.after {.answer} (takes_ops rfl requested)
    rw [if_neg (by simp [success, handsOut])]
    apply Returns.after ∅ (takes_ops rfl (by decide))
    split_ifs
    · exact failTurn_returns world _
    · exact endTurn_returns
  · rw [if_neg handsOut] at requested
    apply Returns.after ∅ (takes_ops rfl requested)
    rw [if_pos (by simp [success, handsOut])]
    exact failTurn_returns world _

theorem singlePhase_returns (world : TurnWorld) (wav : List UInt8) :
    Returns {.response} (singlePhase world wav) := by
  apply Returns.after ∅ (takes_ops rfl (by decide))
  split_ifs
  · exact failTurn_returns world _
  · exact endTurn_returns

theorem twoPhase_returns (world : TurnWorld) (wav : List UInt8) (pendingId : CString) :
    Returns {.response} (twoPhase world wav pendingId) := by
  have quiet : heapOps (ensureTtsHandlerRegistered world ++ [.expectTtsStream (some pendingId),
      .expectPendingReady pendingId] ++ [setLed .green, sendState "playing" (some pendingId)]) =
        [] := by
    rw [heapOps_append, heapOps_append, heapOps_ensureTtsHandlerRegistered]
    rfl
  unfold twoPhase
  dsimp only
  apply Returns.after ∅ (takes_ops quiet (by decide))
  by_cases failed : world.play wav ≠ .ok
  · rw [if_pos failed]
    apply Returns.after ∅ (failTurn_returns world .ok)
    rfl
  · rw [if_neg failed]
    apply Returns.after ∅
    · split_ifs <;> exact Takes.nil ∅
    · split_ifs
      · exact endTurn_returns
      · exact fetchAnswer_returns world pendingId

theorem postTurn_returns {body : Block} (isBody : body = .opusBuf ∨ body = .wavBody)
    (world : TurnWorld) : Returns {body} (postTurn world body) := by
  have requested := httpPostOps_takes isBody world.post
  have success := httpPost_ok_iff world.post
  have empty : world.post.status = 204 → (httpPostVoiceTurn world.post).2.1 = [] :=
    httpPost_dropped
  unfold postTurn
  generalize httpPostVoiceTurn world.post = result at success empty ⊢
  dsimp only
  by_cases handsOut : HandsOut world.post
  · rw [if_pos handsOut] at requested
    obtain ⟨ok, notDropped⟩ := success.mpr handsOut
    apply Returns.after {.response}
    · rw [heapOps_ops]
      apply requested.append
      rcases isBody with rfl | rfl <;> decide
    · rw [if_neg (by simp [ok])]
      split_ifs
      · apply Returns.after ∅
        · rw [heapOps_ops, decide_eq_true notDropped]
          decide
        · exact quietTurn_returns
      · exact twoPhase_returns world _ _
      · exact singlePhase_returns world _
  · rw [if_neg handsOut] at requested
    have emptyHanded : Takes {body} (heapOps (ops (httpPostOps body world.post ++
        [.free body]))) ∅ := by
      rw [heapOps_ops]
      apply requested.append
      rcases isBody with rfl | rfl <;> decide
    apply Returns.after ∅ emptyHanded
    by_cases ok : result.1 = .ok
    · have dropped : world.post.status = 204 := by
        by_contra other
        exact handsOut (success.mp ⟨ok, other⟩)
      rw [if_neg (by simp [ok]), if_pos (by rw [empty dropped]; rfl)]
      apply Returns.after ∅
      · rw [heapOps_ops, opsIf, if_neg (by simp [dropped])]
        exact Takes.nil ∅
      · exact quietTurn_returns
    · rw [if_pos ok]
      exact failTurn_returns world _

/-- What is held while the turn records: the PCM, and the encoder if there is one. -/
def recordingHeld (world : TurnWorld) : Finset Block :=
  if world.hasEncoder then {.pcm, .opusStream, .opusEncoder, .opusBuf, .packetScratch}
  else {.pcm}

theorem create_takes (world : TurnWorld) :
    Takes {.pcm} (opsIf world.encodeOpus (opusStreamCreateOps world.create))
      (recordingHeld world) := by
  rw [recordingHeld, TurnWorld.hasEncoder]
  obtain ⟨stream, encoder, buf, packetScratch⟩ := world.create
  cases world.encodeOpus with
  | false => exact Takes.nil _
  | true => revert stream encoder buf packetScratch; decide

theorem dropRecording_takes (world : TurnWorld) :
    Takes (recordingHeld world) world.dropRecordingOps ∅ := by
  rw [recordingHeld, TurnWorld.dropRecordingOps]
  cases world.hasEncoder <;> decide

/-- A frame is read into the PCM, and what encodes it is held as long as it is used. -/
theorem frameOps_uses (world : TurnWorld) (frame : Nat) :
    ∀ op ∈ world.frameOps frame,
      ∃ block ∈ insert .captureRing (recordingHeld world), op = .use block := by
  rw [TurnWorld.frameOps, recordingHeld]
  cases world.hasEncoder with
  | false => simp [opsIf]
  | true =>
      rw [encodeFrameOps]
      cases (streamAfter world.encoder frame).isSome
      · simp [opsIf]
      · rcases Bool.eq_false_or_eq_true
            (decide (2 < ((world.encoder frame).packet.getD []).length)) with long | short
        · rw [long]
          simp [opsIf]
        · rw [short]
          simp [opsIf]

theorem capture_takes (world : TurnWorld) :
    Takes (recordingHeld world) world.captureOps (recordingHeld world) := by
  have fresh : .captureRing ∉ recordingHeld world := by
    rw [recordingHeld]
    split_ifs <;> decide
  have pcm : .pcm ∈ recordingHeld world := by
    rw [recordingHeld]
    split_ifs <;> decide
  rw [TurnWorld.captureOps]
  split_ifs with armed
  · exact Takes.nil _
  · apply Takes.alloc fresh
    apply Takes.append (Takes.uses _)
    · apply Takes.use (Finset.mem_insert_self _ _)
      apply Takes.use (Finset.mem_insert_of_mem pcm)
      apply Takes.free (Finset.mem_insert_self _ _)
      rw [Finset.erase_insert fresh]
      exact Takes.nil _
    · intro op member
      obtain ⟨frame, -, here⟩ := List.mem_flatMap.mp member
      exact frameOps_uses world frame op here

theorem takeFrame_stream_none (encoder : Nat → EncodeOutcome) {capture : Capture}
    (none_ : capture.stream = none) (frame : List Int) (mic : Microphone) :
    (takeFrame encoder frame mic capture).stream = none := by
  have same : feedFrame encoder capture = capture := by
    unfold feedFrame
    rw [none_]
    cases capture.feeding <;> rfl
  rw [takeFrame, same]
  exact none_

theorem captureLoop_stream_none {config : VadConfig} {encoder : Nat → EncodeOutcome} {room : Nat}
    {capture : Capture} (none_ : capture.stream = none) :
    (captureLoop config encoder room capture).2.stream = none := by
  induction room generalizing capture with
  | zero => exact none_
  | succ room inductionHypothesis =>
      rw [captureLoop]
      cases readFully frameSamples capture.mic.splits capture.mic.samples [] with
      | mk frame mic =>
          have taken := takeFrame_stream_none encoder none_ frame mic
          simp only
          split_ifs
          · exact none_
          · exact inductionHypothesis taken
          · exact taken
          · exact inductionHypothesis taken
          · exact taken
          · exact inductionHypothesis taken

/-- Only an encoder encodes. -/
theorem hasEncoder_of_opusBody {world : TurnWorld} (encoded : world.opusBody ≠ []) :
    world.hasEncoder = true := by
  by_contra missing
  apply encoded
  have noStream : world.captured.capture.stream = none := by
    have created : (if world.encodeOpus && world.alloc.encoder then
        some (opusStreamCreate recordRate) else none) = none := if_neg missing
    rw [TurnWorld.captured, turnCapture, created, captureUtterance]
    simp only
    split_ifs
    · rfl
    · rfl
    · exact captureLoop_stream_none rfl
    · exact captureLoop_stream_none rfl
    · exact captureLoop_stream_none rfl
  rw [TurnWorld.opusBody, noStream]

/-- What is left of the recording once the Opus stream is gone: the PCM and, if anything was
encoded, the stream's buffer. -/
theorem finalize_takes (world : TurnWorld) :
    Takes (recordingHeld world)
      (opsIf world.hasEncoder
        (.use .opusStream :: opusStreamDestroyOps false ++
          opsIf (world.opusBody = []) [.free .opusBuf]))
      (if world.opusBody = [] then {.pcm} else {.pcm, .opusBuf}) := by
  have encoded : world.opusBody ≠ [] → world.hasEncoder = true := hasEncoder_of_opusBody
  rw [recordingHeld]
  by_cases nothing : world.opusBody = []
  · rw [if_pos nothing, decide_eq_true nothing]
    cases world.hasEncoder <;> decide
  · rw [if_neg nothing, decide_eq_false nothing, encoded nothing]
    decide

theorem uploadTurn_returns (world : TurnWorld) :
    Returns (recordingHeld world) (uploadTurn world) := by
  have silent : .tone ∉ recordingHeld world := by
    rw [recordingHeld]
    split_ifs <;> decide
  have finalized := finalize_takes world
  have front : Takes (recordingHeld world) (heapOps (ops (beep world.stopTone) ++
      [setLed .blue, sendState "uploading" none])) (recordingHeld world) := by
    rw [heapOps_append, heapOps_ops]
    exact (beep_takes silent _).append (Takes.nil _)
  unfold uploadTurn
  by_cases nothing : world.opusBody = []
  · rw [if_pos nothing] at finalized
    apply Returns.after {.pcm}
    · rw [heapOps_append, heapOps_ops]
      exact front.append finalized
    · rw [if_neg (by simp [nothing])]
      split_ifs
      · apply Returns.after {.wavBody}
        · decide
        · exact postTurn_returns (Or.inr rfl) world
      · apply Returns.after ∅
        · decide
        · exact failTurn_returns world _
  · rw [if_neg nothing] at finalized
    apply Returns.after {.pcm, .opusBuf}
    · rw [heapOps_append, heapOps_ops]
      exact front.append finalized
    · rw [if_pos nothing]
      apply Returns.after {.opusBuf}
      · decide
      · exact postTurn_returns (Or.inl rfl) world

theorem voiceTurnExecute_returns (world : TurnWorld) : Returns ∅ (voiceTurnExecute world) := by
  unfold voiceTurnExecute
  apply Returns.after ∅
  · have silent : Block.tone ∉ (∅ : Finset Block) := by decide
    rw [heapOps_append, heapOps_append, heapOps_ops]
    exact (beep_takes silent _).append (Takes.nil _)
  split_ifs
  · exact failTurn_returns world _
  apply Returns.after (recordingHeld world)
  · rw [heapOps_ops]
    apply Takes.append
    · apply Takes.alloc (by decide)
      exact create_takes world
    · exact capture_takes world
  have dropped : Takes (recordingHeld world) (heapOps (ops world.dropRecordingOps)) ∅ := by
    rw [heapOps_ops]
    exact dropRecording_takes world
  split
  · exact Returns.after ∅ dropped quietTurn_returns
  · exact uploadTurn_returns world
  · exact Returns.after ∅ dropped (failTurn_returns world _)

/-! ### The mutex that stays -/

/-- What a sequence of actions does to the block no turn frees. -/
def keptOps (actions : List Action) : List (HeapOp Kept) :=
  actions.filterMap fun action =>
    match action with
    | .kept op => some op
    | _ => none

def blockOps (actions : List Action) : List (HeapOp Block ⊕ HeapOp Kept) :=
  actions.filterMap fun action =>
    match action with
    | .heap op => some (.inl op)
    | .kept op => some (.inr op)
    | _ => none

/-- What a sequence of actions does to all blocks. -/
def allOps (actions : List Action) : List (HeapOp (Block ⊕ Kept)) := (blockOps actions).map mergeOp

theorem blockOps_left (actions : List Action) :
    (blockOps actions).filterMap Sum.getLeft? = heapOps actions := by
  induction actions with
  | nil => rfl
  | cons action actions inductionHypothesis =>
      cases action with
      | heap op => exact congrArg (op :: ·) inductionHypothesis
      | _ => exact inductionHypothesis

theorem blockOps_right (actions : List Action) :
    (blockOps actions).filterMap Sum.getRight? = keptOps actions := by
  induction actions with
  | nil => rfl
  | cons action actions inductionHypothesis =>
      cases action with
      | kept op => exact congrArg (op :: ·) inductionHypothesis
      | _ => exact inductionHypothesis

theorem allOps_append (first second : List Action) :
    allOps (first ++ second) = allOps first ++ allOps second := by
  rw [allOps, blockOps, List.filterMap_append, List.map_append]
  rfl

theorem takes_allOps {actions : List Action} {before after : Finset Block}
    {keptBefore keptAfter : Finset Kept} :
    Takes (before.disjSum keptBefore) (allOps actions) (after.disjSum keptAfter) ↔
      Takes before (heapOps actions) after ∧ Takes keptBefore (keptOps actions) keptAfter := by
  rw [allOps, takes_disjSum, blockOps_left, blockOps_right]

def Registration.held (registration : Registration) : Finset Kept :=
  if registration.mutex then {.ttsRegisteredMutex} else ∅

/-- The statics behind some actions. -/
def Registration.after (before : Registration) (actions : List Action) : Registration :=
  actions.foldl (fun registration action =>
    match action with
    | .kept (.alloc .ttsRegisteredMutex) => { registration with mutex := true }
    | .setTtsHandler => { registration with registered := true }
    | _ => registration) before

theorem Registration.after_append (before : Registration) (first second : List Action) :
    before.after (first ++ second) = (before.after first).after second :=
  List.foldl_append

def touchesRegistration : Action → Bool
  | .kept _ => true
  | .setTtsHandler => true
  | .expectPendingReady _ => true
  | _ => false

/-- The registration among some actions, and what a two-phase turn does next. -/
def registering (actions : List Action) : List Action := actions.filter touchesRegistration

@[simp] theorem registering_append (first second : List Action) :
    registering (first ++ second) = registering first ++ registering second :=
  List.filter_append first second

@[simp] theorem registering_ops (list : List (HeapOp Block)) : registering (ops list) = [] := by
  induction list with
  | nil => rfl
  | cons op list inductionHypothesis => exact inductionHypothesis

theorem keptOps_registering (actions : List Action) :
    keptOps (registering actions) = keptOps actions := by
  induction actions with
  | nil => rfl
  | cons action actions inductionHypothesis =>
      cases action with
      | kept op => exact congrArg (op :: ·) inductionHypothesis
      | _ => exact inductionHypothesis

theorem Registration.after_registering (before : Registration) (actions : List Action) :
    before.after (registering actions) = before.after actions := by
  induction actions generalizing before with
  | nil => rfl
  | cons action actions inductionHypothesis =>
      cases action with
      | _ => exact inductionHypothesis _

/-- A turn registers the handler once, in its two-phase branch, or not at all. -/
def Registers (world : TurnWorld) (turn : EspErr × List Action) : Prop :=
  registering turn.2 = [] ∨
    ∃ pendingId, registering turn.2 =
      ensureTtsHandlerRegistered world ++ [.expectPendingReady pendingId]

@[simp] theorem registering_after (actions : List Action) (rest : EspErr × List Action) :
    registering (after actions rest).2 = registering actions ++ registering rest.2 :=
  registering_append actions rest.2

theorem Registers.after {world : TurnWorld} {actions : List Action} {rest : EspErr × List Action}
    (quiet : registering actions = []) (registers : Registers world rest) :
    Registers world (after actions rest) := by
  rwa [Registers, registering_after, quiet, List.nil_append]

@[simp] theorem registering_failTurn (world : TurnWorld) (err : EspErr) :
    registering (failTurn world err).2 = [] := registering_ops _

@[simp] theorem registering_endTurn : registering endTurn.2 = [] := rfl

/-- Actions that end with operations on the heap. -/
theorem registering_front {front : List Action} (quiet : registering front = [])
    (list : List (HeapOp Block)) : registering (front ++ ops list) = [] := by
  rw [registering_append, quiet, registering_ops, List.nil_append]

theorem registering_fetchAnswer (world : TurnWorld) (pendingId : CString) :
    registering (fetchAnswer world pendingId).2 = [] := by
  have asked : registering ([Action.expectTtsStream none, setLed .blue,
      sendState "uploading" (some pendingId)] ++ ops (httpGetOps world.get)) = [] :=
    registering_front rfl _
  have played : registering ([setLed .green, sendState "playing" (some pendingId)] ++
      ops [.use .answer, .free .answer]) = [] := rfl
  unfold fetchAnswer
  dsimp only
  rw [registering_after, asked]
  split_ifs
  · rw [registering_failTurn]
    rfl
  · rw [registering_after, played, registering_failTurn]
    rfl
  · rfl

theorem singlePhase_registers (world : TurnWorld) (wav : List UInt8) :
    Registers world (singlePhase world wav) := by
  apply Registers.after rfl
  split_ifs
  · exact Or.inl (registering_failTurn world _)
  · exact Or.inl rfl

/-- The registration is the first thing the two-phase branch does, and nothing of it comes
again. -/
theorem twoPhase_registers (world : TurnWorld) (wav : List UInt8) (pendingId : CString) :
    Registers world (twoPhase world wav pendingId) := by
  have front : registering (ensureTtsHandlerRegistered world ++
      [.expectTtsStream (some pendingId), .expectPendingReady pendingId] ++
        [setLed .green, sendState "playing" (some pendingId)] ++
        ops [.use .response, .free .response]) =
      ensureTtsHandlerRegistered world ++ [.expectPendingReady pendingId] := by
    unfold ensureTtsHandlerRegistered
    split_ifs <;> rfl
  refine Or.inr ⟨pendingId, ?_⟩
  unfold twoPhase
  dsimp only
  rw [registering_after, front]
  apply List.append_right_eq_self.mpr
  split_ifs
  · rw [registering_after, registering_failTurn]
    rfl
  all_goals first
    | rfl
    | exact registering_fetchAnswer world pendingId

theorem postTurn_registers (world : TurnWorld) (body : Block) :
    Registers world (postTurn world body) := by
  unfold postTurn
  dsimp only
  apply Registers.after (registering_ops _)
  split_ifs
  · exact Or.inl (registering_failTurn world _)
  · exact Registers.after (registering_ops _) (Or.inl rfl)
  · exact twoPhase_registers world _ _
  · exact singlePhase_registers world _

theorem uploadTurn_registers (world : TurnWorld) : Registers world (uploadTurn world) := by
  unfold uploadTurn
  dsimp only
  apply Registers.after
  · apply registering_front
    rw [registering_append, registering_ops]
    rfl
  split_ifs
  · exact Registers.after (registering_ops _) (postTurn_registers world _)
  · exact Registers.after (registering_ops _) (postTurn_registers world _)
  · exact Registers.after (registering_ops _) (Or.inl (registering_failTurn world _))

theorem voiceTurnExecute_registers (world : TurnWorld) :
    Registers world (voiceTurnExecute world) := by
  unfold voiceTurnExecute
  apply Registers.after
  · rw [registering_append, registering_append, registering_ops]
    rfl
  split_ifs
  · exact Or.inl (registering_failTurn world _)
  apply Registers.after (registering_ops _)
  split
  · exact Registers.after (registering_ops _) (Or.inl rfl)
  · exact uploadTurn_registers world
  · exact Registers.after (registering_ops _) (Or.inl (registering_failTurn world _))

/-- The turn gets to its two-phase branch. -/
def TurnWorld.EntersTwoPhase (world : TurnWorld) : Prop :=
  ∃ pendingId, .expectPendingReady pendingId ∈ (voiceTurnExecute world).2

/-- The mutex is there when the turn needs it. -/
def TurnWorld.FindsMutex (world : TurnWorld) : Prop :=
  world.EntersTwoPhase → (world.registration.mutex || world.mutexCreated) = true

/-- The registration works on a mutex that is there, or that it can create. -/
theorem ensureTtsHandlerRegistered_takes (world : TurnWorld) :
    Takes world.registration.held (keptOps (ensureTtsHandlerRegistered world))
        (world.registration.after (ensureTtsHandlerRegistered world)).held ↔
      (world.registration.mutex || world.mutexCreated) = true := by
  unfold ensureTtsHandlerRegistered
  generalize world.mutexCreated = created
  obtain ⟨mutex, registered⟩ := world.registration
  revert mutex registered created
  decide

theorem voiceTurnExecute_keeps (world : TurnWorld) :
    Takes world.registration.held (keptOps (voiceTurnExecute world).2)
        (world.registration.after (voiceTurnExecute world).2).held ↔ world.FindsMutex := by
  have entered (pendingId : CString) : .expectPendingReady pendingId ∈
      (voiceTurnExecute world).2 ↔ .expectPendingReady pendingId ∈
        registering (voiceTurnExecute world).2 := by
    rw [registering, List.mem_filter]
    exact (and_iff_left rfl).symm
  rw [TurnWorld.FindsMutex, TurnWorld.EntersTwoPhase, ← keptOps_registering,
    ← Registration.after_registering]
  simp only [entered]
  rcases voiceTurnExecute_registers world with single | ⟨pendingId, twoPhase_⟩
  · rw [single]
    refine iff_of_true (Takes.nil _) ?_
    rintro ⟨_, member⟩
    exact absurd member List.not_mem_nil
  · have waits : ∃ other, Action.expectPendingReady other ∈
        registering (voiceTurnExecute world).2 := by
      rw [twoPhase_]
      exact ⟨pendingId, List.mem_append_right _ (List.mem_singleton_self _)⟩
    have noMore : keptOps (ensureTtsHandlerRegistered world ++ [.expectPendingReady pendingId]) =
        keptOps (ensureTtsHandlerRegistered world) := by
      rw [keptOps, List.filterMap_append]
      exact List.append_nil _
    have unchanged : world.registration.after (ensureTtsHandlerRegistered world ++
        [.expectPendingReady pendingId]) =
          world.registration.after (ensureTtsHandlerRegistered world) := by
      rw [Registration.after_append]
      rfl
    rw [forall_prop_of_true waits, twoPhase_, noMore, unchanged]
    exact ensureTtsHandlerRegistered_takes world

/-- The stream the WebSocket task lets through behind some actions. Waiting for its end takes
the expectation back in either outcome. -/
def expectation (before : Option CString) (actions : List Action) : Option CString :=
  actions.foldl (fun expected action =>
    match action with
    | .expectTtsStream requestId => requestId
    | .waitTtsEnd => none
    | _ => expected) before

theorem expectation_append (before : Option CString) (first second : List Action) :
    expectation before (first ++ second) = expectation (expectation before first) second :=
  List.foldl_append

@[simp] theorem expectation_ops (before : Option CString) (list : List (HeapOp Block)) :
    expectation before (ops list) = before := by
  induction list generalizing before with
  | nil => rfl
  | cons op list inductionHypothesis => exact inductionHypothesis before

theorem expectation_after (before : Option CString) (actions : List Action)
    (rest : EspErr × List Action) :
    expectation before (after actions rest).2 = expectation (expectation before actions) rest.2 :=
  expectation_append before actions rest.2

theorem failTurn_expectation (world : TurnWorld) (err : EspErr) (before : Option CString) :
    expectation before (failTurn world err).2 = before :=
  expectation_ops before _

theorem fetchAnswer_expectation (world : TurnWorld) (pendingId : CString)
    (before : Option CString) : expectation before (fetchAnswer world pendingId).2 = none := by
  unfold fetchAnswer
  dsimp only
  rw [expectation_after, expectation_append, expectation_ops]
  split_ifs
  · exact failTurn_expectation world _ none
  · rw [expectation_after, expectation_append, expectation_ops]
    exact failTurn_expectation world _ none
  · rw [expectation_after, expectation_append, expectation_ops]
    rfl

/-- Whatever was expected, the two-phase branch leaves nothing expected. -/
theorem twoPhase_expectation (world : TurnWorld) (wav : List UInt8) (pendingId : CString)
    (before : Option CString) : expectation before (twoPhase world wav pendingId).2 = none := by
  unfold twoPhase
  dsimp only
  rw [expectation_after]
  by_cases failed : world.play wav ≠ .ok
  · rw [if_pos failed, expectation_after]
    rfl
  · rw [if_neg failed, expectation_after, expectation_append, expectation_append]
    split_ifs
    all_goals first
      | rfl
      | exact fetchAnswer_expectation world pendingId _

/-- No path of a turn leaves a stream expected, so that the WebSocket task hands out no chunk
between two turns. -/
theorem voiceTurnExecute_expects_nothing (world : TurnWorld) :
    expectation none (voiceTurnExecute world).2 = none := by
  have dropped (turn : EspErr × List Action) (quiet : expectation none turn.2 = none) :
      expectation none (after (ops world.dropRecordingOps) turn).2 = none := by
    rwa [expectation_after, expectation_ops]
  have posted (body : Block) : expectation none (postTurn world body).2 = none := by
    unfold postTurn
    dsimp only
    rw [expectation_after, expectation_ops]
    split_ifs
    · exact failTurn_expectation world _ none
    · rw [expectation_after, expectation_ops]
      rfl
    · exact twoPhase_expectation world _ _ none
    · rw [singlePhase, expectation_after, expectation_append, expectation_ops]
      split_ifs
      · exact failTurn_expectation world _ none
      · rfl
  have uploaded : expectation none (uploadTurn world).2 = none := by
    unfold uploadTurn
    dsimp only
    rw [expectation_after, expectation_append, expectation_append, expectation_ops,
      expectation_ops]
    split_ifs
    · rw [expectation_after, expectation_ops]
      exact posted _
    · rw [expectation_after, expectation_ops]
      exact posted _
    · rw [expectation_after, expectation_ops]
      exact failTurn_expectation world _ none
  unfold voiceTurnExecute
  rw [expectation_after, expectation_append, expectation_append, expectation_ops]
  split_ifs
  · exact failTurn_expectation world _ none
  rw [expectation_after, expectation_ops]
  split
  · exact dropped quietTurn rfl
  · exact uploaded
  · exact dropped _ (failTurn_expectation world _ none)

end WallUnit.Firmware.VoiceTurn
