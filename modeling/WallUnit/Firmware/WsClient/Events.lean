import WallUnit.Firmware.Esp
import WallUnit.Firmware.WsClient.Assembly

/-!
Owns `_handle_server_event` and `_ws_event_handler`: the event bits, the two
expected request ids, and the calls of the TTS handler. cJSON and
`mbedtls_base64_decode` are outside the repository and are parameters.

Does not own the TTS handler itself.
-/

namespace WallUnit.Firmware.WsClient

/-- `TTS_DECODE_BUF_BYTES`. -/
def ttsDecodeBufBytes : Nat := 2048

/-- `sizeof(s_expect_tts_request_id)`, and the same for the pending id. -/
def expectIdBytes : Nat := 16

/-- An item of a cJSON object: a string, a number as its `valueint`, or another value. -/
inductive JsonItem where
  | string (value : CString)
  | number (valueInt : Int)
  | other
deriving DecidableEq, Repr

/-- The items of a parsed object; a root that is not an object has none. -/
abbrev JsonRoot := List (CString × JsonItem)

/-- The library calls: `cJSON_ParseWithLength`, and `mbedtls_base64_decode` into a
buffer of the given size. -/
structure Library where
  parse : List UInt8 → Option JsonRoot
  base64Decode : Nat → CString → Option (List UInt8)

/-- `cJSON_GetObjectItemCaseSensitive`. -/
def JsonRoot.item (root : JsonRoot) (key : CString) : Option JsonItem :=
  (root.find? fun member => member.1 = key).map Prod.snd

/-- The string an item holds, if it is one. -/
def JsonRoot.string (root : JsonRoot) (key : CString) : Option CString :=
  match root.item key with
  | some (.string value) => some value
  | _ => none

/-- The number an item holds, or the default. -/
def JsonRoot.numberOr (root : JsonRoot) (key : CString) (default : Int) : Int :=
  match root.item key with
  | some (.number value) => value
  | _ => default

/-- `ws_tts_event_t`. -/
inductive TtsEvent where
  | start (requestId : CString) (sampleRate channels : Int)
  | chunk (requestId : CString) (pcm : List UInt8) (seq : Int)
  | finish (requestId : CString) (totalSeq : Int)
deriving DecidableEq, Repr

def TtsEvent.requestId : TtsEvent → CString
  | .start requestId _ _ => requestId
  | .chunk requestId _ _ => requestId
  | .finish requestId _ => requestId

/-- The chunk events for `chunks`, numbered from `first`. -/
def chunkEvents (requestId : CString) : Nat → List (List UInt8) → List TtsEvent
  | _, [] => []
  | first, chunk :: rest =>
      .chunk requestId chunk first :: chunkEvents requestId (first + 1) rest

/-- The events of a whole reply: start, the chunks numbered from zero, end. -/
def streamEvents (requestId : CString) (sampleRate : Nat) (chunks : List (List UInt8)) :
    List TtsEvent :=
  .start requestId sampleRate 1 :: chunkEvents requestId 0 chunks ++
    [.finish requestId chunks.length]

theorem length_chunkEvents (requestId : CString) (first : Nat) (chunks : List (List UInt8)) :
    (chunkEvents requestId first chunks).length = chunks.length := by
  induction chunks generalizing first with
  | nil => rfl
  | cons chunk rest inductionHypothesis =>
      rw [chunkEvents, List.length_cons, inductionHypothesis, List.length_cons]

theorem chunkEvents_getElem? (requestId : CString) (first : Nat) (chunks : List (List UInt8))
    (index : Nat) :
    (chunkEvents requestId first chunks)[index]? =
      chunks[index]?.map fun pcm => .chunk requestId pcm (first + index : Nat) := by
  induction chunks generalizing first index with
  | nil => rfl
  | cons chunk rest inductionHypothesis =>
      cases index with
      | zero => rfl
      | succ index =>
          have shift : first + 1 + index = first + (index + 1) := by omega
          rw [chunkEvents, List.getElem?_cons_succ, List.getElem?_cons_succ, inductionHypothesis,
            shift]

/-- An event of a reply is known by its position. -/
theorem streamEvents_cases {requestId : CString} {sampleRate : Nat} {chunks : List (List UInt8)}
    {index : Nat} {event : TtsEvent}
    (at_ : (streamEvents requestId sampleRate chunks)[index]? = some event) :
    (index = 0 ∧ event = .start requestId sampleRate 1) ∨
    (∃ seq pcm, index = seq + 1 ∧ chunks[seq]? = some pcm ∧ event = .chunk requestId pcm seq) ∨
    (index = chunks.length + 1 ∧ event = .finish requestId chunks.length) := by
  rw [streamEvents, List.cons_append] at at_
  cases index with
  | zero => exact Or.inl ⟨rfl, (Option.some.inj at_).symm⟩
  | succ index =>
      rw [List.getElem?_cons_succ, List.getElem?_append, length_chunkEvents] at at_
      split at at_
      · rw [chunkEvents_getElem?, Option.map_eq_some_iff] at at_
        obtain ⟨pcm, found, rfl⟩ := at_
        refine Or.inr (Or.inl ⟨index, pcm, rfl, found, ?_⟩)
        rw [Nat.zero_add]
      · obtain ⟨zero, rfl⟩ := List.getElem?_eq_some_iff.mp at_
        rw [List.length_singleton] at zero
        exact Or.inr (Or.inr ⟨by omega, by simp⟩)

/-- What the event handlers do outside their own state. The last five are log lines for
events dropped. -/
inductive Output where
  | hello
  | ttsHandler (event : TtsEvent)
  | overflow
  | badJson
  | missingPayload
  | decodeFailed
  | notExpected (requestId : Option CString)
deriving DecidableEq, Repr

/-- The event bits, the expected ids (empty when none is expected), and whether a TTS
handler is registered. -/
structure Session where
  connected : Bool
  pendingReady : Bool
  ttsEnd : Bool
  expectRequestId : CString
  expectTtsRequestId : CString
  ttsHandler : Bool
deriving DecidableEq, Repr

/-- `s_expect[0] && strcmp(rid, s_expect) == 0`. -/
def matchesExpected (expected rid : CString) : Bool := expected ≠ [] ∧ rid = expected

def Session.callTtsHandler (session : Session) (event : TtsEvent) : List Output :=
  if session.ttsHandler then [.ttsHandler event] else []

/-- The `tts_start`, `tts_chunk` and `tts_end` cases past the gate. -/
def handleTtsEvent (library : Library) (etype requestId : CString) (root : JsonRoot)
    (session : Session) : Session × List Output :=
  if etype = "tts_start".toList then
    (session, session.callTtsHandler (.start requestId
      (root.numberOr "sample_rate".toList 16000) (root.numberOr "channels".toList 1)))
  else if etype = "tts_chunk".toList then
    match root.string "payload".toList with
    | none => (session, [.missingPayload])
    | some payload =>
        match library.base64Decode ttsDecodeBufBytes payload with
        | none => (session, [.decodeFailed])
        | some decoded =>
            (session, session.callTtsHandler (.chunk requestId decoded
              (root.numberOr "seq".toList (-1))))
  else
    ({ session with ttsEnd := true }, session.callTtsHandler (.finish requestId
      (root.numberOr "total_seq".toList (-1))))

/-- `_handle_server_event`. -/
def handleServerEvent (library : Library) (text : List UInt8) (session : Session) :
    Session × List Output :=
  match library.parse text with
  | none => (session, [.badJson])
  | some root =>
      match root.string "type".toList with
      | none => (session, [])
      | some etype =>
          let requestId := root.string "request_id".toList
          let notExpected : Session × List Output := (session, [.notExpected requestId])
          if etype = "hello_ack".toList then ({ session with connected := true }, [])
          else if etype = "pending_ready".toList then
            match requestId with
            | none => notExpected
            | some rid =>
                if matchesExpected session.expectRequestId rid then
                  ({ session with pendingReady := true }, [])
                else notExpected
          else if etype = "tts_start".toList ∨ etype = "tts_chunk".toList ∨
              etype = "tts_end".toList then
            match requestId with
            | none => notExpected
            | some rid =>
                if matchesExpected session.expectTtsRequestId rid then
                  handleTtsEvent library etype rid root session
                else notExpected
          -- `barge_in`, `suppress` and `config` are stubs; other types are only logged.
          else (session, [])

def handleReception (library : Library) : Reception → Session → Session × List Output
  | .overflow, session => (session, [.overflow])
  | .frame bytes, session => handleServerEvent library bytes session

/-- The events of the WebSocket client. -/
inductive WsEvent where
  | connected
  | disconnected
  | closed
  | data (event : DataEvent)
  | error
deriving DecidableEq, Repr

structure WsState where
  assembly : Assembly
  session : Session
deriving DecidableEq, Repr

/-- `_ws_event_handler`. -/
def wsEventHandler (library : Library) (state : WsState) : WsEvent → WsState × List Output
  | .connected => (state, [.hello])
  | .disconnected | .closed =>
      ({ state with session := { state.session with connected := false } }, [])
  | .error => (state, [])
  | .data event =>
      let (assembly, reception) := assemble state.assembly event
      match reception with
      | none => ({ state with assembly := assembly }, [])
      | some reception =>
          let (session, outputs) := handleReception library reception state.session
          (⟨assembly, session⟩, outputs)

def handleWsEvents (library : Library) : WsState → List WsEvent → WsState × List Output
  | state, [] => (state, [])
  | state, event :: rest =>
      let next := wsEventHandler library state event
      let last := handleWsEvents library next.1 rest
      (last.1, next.2 ++ last.2)

def handleReceptions (library : Library) : Session → List Reception → Session × List Output
  | session, [] => (session, [])
  | session, reception :: rest =>
      let next := handleReception library reception session
      let last := handleReceptions library next.1 rest
      (last.1, next.2 ++ last.2)

theorem handleReceptions_append (library : Library) (session : Session)
    (left right : List Reception) :
    handleReceptions library session (left ++ right) =
      ((handleReceptions library (handleReceptions library session left).1 right).1,
        (handleReceptions library session left).2 ++
          (handleReceptions library (handleReceptions library session left).1 right).2) := by
  induction left generalizing session with
  | nil => rfl
  | cons reception rest inductionHypothesis =>
      rw [List.cons_append, handleReceptions, handleReceptions, inductionHypothesis]
      simp

/-- Assembly and dispatch do not interfere: data events are first assembled, then handled. -/
theorem handleWsEvents_data (library : Library) (state : WsState) (events : List DataEvent) :
    handleWsEvents library state (events.map WsEvent.data) =
      (⟨(receive state.assembly events).1,
          (handleReceptions library state.session (receive state.assembly events).2).1⟩,
        (handleReceptions library state.session (receive state.assembly events).2).2) := by
  induction events generalizing state with
  | nil => rfl
  | cons event rest inductionHypothesis =>
      rw [List.map_cons, handleWsEvents, inductionHypothesis, receive]
      dsimp only [wsEventHandler]
      cases (assemble state.assembly event).2 with
      | none => rfl
      | some reception => rfl

/-! ### Frames for the expected stream -/

/-- The session expects the TTS stream `requestId` and has a handler for it. -/
structure Session.Expects (session : Session) (requestId : CString) : Prop where
  expected : session.expectTtsRequestId = requestId
  handler : session.ttsHandler = true

section

variable {library : Library} {session : Session} {requestId : CString} {root : JsonRoot}

/-- A TTS frame for the expected id passes the gate. -/
theorem handleServerEvent_of_expected {text : List UInt8} {etype : CString}
    (expects : session.Expects requestId) (nonempty : requestId ≠ [])
    (parsed : library.parse text = some root)
    (typed : root.string "type".toList = some etype)
    (identified : root.string "request_id".toList = some requestId)
    (tts : etype = "tts_start".toList ∨ etype = "tts_chunk".toList ∨ etype = "tts_end".toList) :
    handleServerEvent library text session =
      handleTtsEvent library etype requestId root session := by
  have gate : matchesExpected session.expectTtsRequestId requestId = true := by
    simp [matchesExpected, expects.expected, nonempty]
  have notHello : etype ≠ "hello_ack".toList := by
    rintro rfl
    revert tts
    decide
  have notPending : etype ≠ "pending_ready".toList := by
    rintro rfl
    revert tts
    decide
  simp only [handleServerEvent, parsed, typed, identified, if_neg notHello, if_neg notPending,
    if_pos tts, gate, if_true]

theorem handleTtsEvent_start (expects : session.Expects requestId) :
    handleTtsEvent library "tts_start".toList requestId root session =
      (session, [.ttsHandler (.start requestId (root.numberOr "sample_rate".toList 16000)
        (root.numberOr "channels".toList 1))]) := by
  rw [handleTtsEvent, if_pos rfl, Session.callTtsHandler, if_pos expects.handler]

theorem handleTtsEvent_chunk {payload : CString} {pcm : List UInt8}
    (expects : session.Expects requestId)
    (carried : root.string "payload".toList = some payload)
    (decoded : library.base64Decode ttsDecodeBufBytes payload = some pcm) :
    handleTtsEvent library "tts_chunk".toList requestId root session =
      (session, [.ttsHandler (.chunk requestId pcm (root.numberOr "seq".toList (-1)))]) := by
  rw [handleTtsEvent, if_neg (by decide), if_pos rfl]
  simp only [carried, decoded, Session.callTtsHandler, if_pos expects.handler]

theorem handleTtsEvent_end (expects : session.Expects requestId) :
    handleTtsEvent library "tts_end".toList requestId root session =
      ({ session with ttsEnd := true }, [.ttsHandler (.finish requestId
        (root.numberOr "total_seq".toList (-1)))]) := by
  rw [handleTtsEvent, if_neg (by decide), if_neg (by decide), Session.callTtsHandler,
    if_pos expects.handler]

end

end WallUnit.Firmware.WsClient
