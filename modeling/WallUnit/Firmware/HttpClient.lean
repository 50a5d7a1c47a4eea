import Mathlib.Data.List.Infix
import WallUnit.Firmware.Esp
import WallUnit.Foundations.Machine

/-!
Owns the response of a voice turn as `http_client.c` receives it: the handler of the
client's events, the growing body buffer, and what `http_post_voice_turn` hands out.
Whether a reallocation succeeds is part of an event. `unholed_iff` says when the
buffer is free of holes.

Does not own `esp_http_client`. It delivers events in order and goes on delivering
them after the handler returned an error.
-/

namespace WallUnit.Firmware.HttpClient

open WallUnit.Foundations

/-- `MAX_RESPONSE_SIZE`. -/
def maxResponseSize : Nat := 2 * 1024 * 1024

/-- The capacity `http_post_voice_turn` allocates. -/
def initialCap : Nat := 64 * 1024

/-- `voice_turn_meta_t`. -/
structure VoiceTurnMeta where
  transcript : CString
  replyText : CString
  latencyMs : Int
  pendingId : CString
deriving DecidableEq, Repr

/-- `memset(meta, 0, sizeof(*meta))`. -/
def VoiceTurnMeta.zero : VoiceTurnMeta := ⟨[], [], 0, []⟩

/-- `response_ctx_t`; `buf` is the buffer up to `len`. -/
structure ResponseCtx where
  buf : List UInt8
  cap : Nat
  turnMeta : VoiceTurnMeta
deriving DecidableEq, Repr

def ResponseCtx.start : ResponseCtx := ⟨[], initialCap, .zero⟩

/-- The events of the client. A header may lack its key or value, and data its
pointer, which is then empty. -/
inductive HttpEvent where
  | onHeader (key value : Option CString)
  | onData (data : List UInt8) (reallocated : Bool)
  | other
deriving DecidableEq, Repr

/-! ### Headers -/

/-- `isspace` in the C locale. -/
def isSpace (char : Char) : Bool := char = ' ' ∨ (9 ≤ char.toNat ∧ char.toNat ≤ 13)

def digitsValue (digits : CString) : Int :=
  digits.foldl (fun value digit => value * 10 + (digit.toNat - '0'.toNat : Int)) 0

/-- `atoi`, for a value that an `int` can hold. -/
def atoi (text : CString) : Int :=
  match text.dropWhile isSpace with
  | '-' :: digits => - digitsValue (digits.takeWhile Char.isDigit)
  | '+' :: digits => digitsValue (digits.takeWhile Char.isDigit)
  | digits => digitsValue (digits.takeWhile Char.isDigit)

/-- `strcasecmp(key, name) == 0`. -/
def isHeader (key : CString) (name : String) : Bool :=
  key.map Char.toLower = name.toList.map Char.toLower

/-- The `HTTP_EVENT_ON_HEADER` case. -/
def storeHeader (key value : CString) (turnMeta : VoiceTurnMeta) : VoiceTurnMeta :=
  if isHeader key "X-Transcript" then
    { turnMeta with transcript := strncpyTerminated 512 value }
  else if isHeader key "X-Reply-Text" then
    { turnMeta with replyText := strncpyTerminated 512 value }
  else if isHeader key "X-Latency-Ms" then { turnMeta with latencyMs := atoi value }
  else if isHeader key "X-DWU-Pending" then
    { turnMeta with pendingId := strncpyTerminated 16 value }
  else turnMeta

/-! ### Body -/

/-- The capacity asked for when `count` more bytes do not fit. -/
def newCap (count : Nat) (ctx : ResponseCtx) : Nat :=
  if ctx.cap * 2 < ctx.buf.length + count then ctx.buf.length + count + 4096 else ctx.cap * 2

/-- `http_event_handler`. -/
def httpEventHandler (event : HttpEvent) (ctx : ResponseCtx) : EspErr × ResponseCtx :=
  match event with
  | .onHeader (some key) (some value) =>
      (.ok, { ctx with turnMeta := storeHeader key value ctx.turnMeta })
  | .onData data reallocated =>
      if 0 < data.length then
        if ctx.cap < ctx.buf.length + data.length then
          if maxResponseSize < newCap data.length ctx then (.fail, ctx)
          else if reallocated then
            (.ok, { ctx with buf := ctx.buf ++ data, cap := newCap data.length ctx })
          else (.noMem, ctx)
        else (.ok, { ctx with buf := ctx.buf ++ data })
      else (.ok, ctx)
  | _ => (.ok, ctx)

/-- The bytes an event delivers. -/
def HttpEvent.data : HttpEvent → List UInt8
  | .onData data _ => data
  | _ => []

/-- An event is refused when the buffer has no room for its data and does not get it:
the capacity asked for is past the limit, or the reallocation fails. -/
def HttpEvent.Refused (ctx : ResponseCtx) : HttpEvent → Prop
  | .onData data reallocated =>
      0 < data.length ∧ ctx.cap < ctx.buf.length + data.length ∧
        (maxResponseSize < newCap data.length ctx ∨ reallocated = false)
  | _ => False

instance (ctx : ResponseCtx) (event : HttpEvent) : Decidable (event.Refused ctx) :=
  match event with
  | .onData _ _ => inferInstanceAs (Decidable (_ ∧ _ ∧ (_ ∨ _)))
  | .onHeader _ _ => isFalse id
  | .other => isFalse id

/-- The buffer holds no more than it has room for, within the limit. -/
structure ResponseCtx.Bounded (ctx : ResponseCtx) : Prop where
  used : ctx.buf.length ≤ ctx.cap
  limit : ctx.cap ≤ maxResponseSize

/-- The capacity once `count` more bytes are stored. -/
def capAfter (count : Nat) (ctx : ResponseCtx) : Nat :=
  if ctx.cap < ctx.buf.length + count then newCap count ctx else ctx.cap

theorem enough_newCap (count : Nat) (ctx : ResponseCtx) :
    ctx.buf.length + count ≤ newCap count ctx := by
  rw [newCap]
  split_ifs with small
  · exact Nat.le_add_right _ _
  · exact Nat.le_of_not_lt small

theorem bounded_start : ResponseCtx.start.Bounded := ⟨Nat.zero_le _, by decide⟩

/-- A refused event is answered with an error and changes nothing. -/
theorem httpEventHandler_refused {event : HttpEvent} {ctx : ResponseCtx}
    (refused : event.Refused ctx) :
    ∃ err, err ≠ .ok ∧ httpEventHandler event ctx = (err, ctx) := by
  cases event with
  | onData data reallocated =>
      obtain ⟨some_, full, reason⟩ := refused
      simp only [httpEventHandler, if_pos some_, if_pos full]
      by_cases limit : maxResponseSize < newCap data.length ctx
      · exact ⟨.fail, by decide, if_pos limit⟩
      · rw [or_iff_right limit] at reason
        rw [if_neg limit, reason]
        exact ⟨.noMem, by decide, rfl⟩
  | onHeader | other => exact refused.elim

/-- The data of any other event goes behind what the buffer holds. -/
theorem httpEventHandler_accepted {event : HttpEvent} {ctx : ResponseCtx}
    (bounded : ctx.Bounded) (accepted : ¬ event.Refused ctx) :
    ∃ next, httpEventHandler event ctx = (.ok, next) ∧ next.buf = ctx.buf ++ event.data ∧
      next.cap = capAfter event.data.length ctx ∧ next.Bounded := by
  have used := bounded.used
  have unchanged : capAfter 0 ctx = ctx.cap := if_neg (Nat.not_lt.mpr used)
  cases event with
  | onHeader key value =>
      cases key with
      | none => exact ⟨ctx, rfl, (List.append_nil _).symm, unchanged.symm, bounded⟩
      | some key =>
          cases value with
          | none => exact ⟨ctx, rfl, (List.append_nil _).symm, unchanged.symm, bounded⟩
          | some value =>
              exact ⟨_, rfl, (List.append_nil _).symm, unchanged.symm, used, bounded.limit⟩
  | other => exact ⟨ctx, rfl, (List.append_nil _).symm, unchanged.symm, bounded⟩
  | onData data reallocated =>
      simp only [httpEventHandler]
      by_cases some_ : 0 < data.length
      · rw [if_pos some_]
        by_cases full : ctx.cap < ctx.buf.length + data.length
        · have granted : ¬ (maxResponseSize < newCap data.length ctx ∨ reallocated = false) :=
            fun reason => accepted ⟨some_, full, reason⟩
          rw [not_or, Bool.not_eq_false] at granted
          have grows : capAfter data.length ctx = newCap data.length ctx := if_pos full
          rw [if_pos full, if_neg granted.1, if_pos granted.2]
          refine ⟨_, rfl, rfl, grows.symm, ?_, Nat.le_of_not_lt granted.1⟩
          rw [List.length_append]
          exact enough_newCap data.length ctx
        · have stays : capAfter data.length ctx = ctx.cap := if_neg full
          rw [if_neg full]
          refine ⟨_, rfl, rfl, stays.symm, ?_, bounded.limit⟩
          rw [List.length_append]
          exact Nat.le_of_not_lt full
      · have empty : data = [] := List.eq_nil_of_length_eq_zero (by omega)
        subst empty
        exact ⟨ctx, rfl, (List.append_nil _).symm, unchanged.symm, bounded⟩

/-! ### A response -/

/-- A response while it arrives: the context, everything the client has delivered, and
whether an event was answered with an error. -/
structure Response where
  ctx : ResponseCtx
  delivered : List UInt8
  failed : Bool

def respond (response : Response) (event : HttpEvent) : Response :=
  let (err, ctx) := httpEventHandler event response.ctx
  ⟨ctx, response.delivered ++ event.data, response.failed || err ≠ .ok⟩

/-- The client delivers its events one by one. -/
def responseMachine : Machine Response HttpEvent where
  init := ⟨.start, [], false⟩
  step response event := some (respond response event)

/-- What the buffer holds is a first part of what was delivered, within its capacity and
the limit, and all of it when every event was answered with `ESP_OK`. -/
structure Unholed (response : Response) : Prop where
  isFirst : response.ctx.buf <+: response.delivered
  bounded : response.ctx.Bounded
  whole : response.failed = false → response.ctx.buf = response.delivered

/-- After a refused event only events that are refused, or bring nothing, arrive. -/
def StaysOut (response : Response) (event : HttpEvent) : Prop :=
  response.failed = true → event.data ≠ [] → event.Refused response.ctx

theorem respond_refused {response : Response} {event : HttpEvent}
    (refused : event.Refused response.ctx) :
    respond response event = ⟨response.ctx, response.delivered ++ event.data, true⟩ := by
  obtain ⟨err, failed, handled⟩ := httpEventHandler_refused refused
  simp [respond, handled, failed]

theorem respond_accepted {response : Response} {event : HttpEvent}
    (bounded : response.ctx.Bounded) (accepted : ¬ event.Refused response.ctx) :
    ∃ next, respond response event = ⟨next, response.delivered ++ event.data, response.failed⟩ ∧
      next.buf = response.ctx.buf ++ event.data ∧
      next.cap = capAfter event.data.length response.ctx ∧ next.Bounded := by
  obtain ⟨next, handled, stored, cap, kept⟩ := httpEventHandler_accepted bounded accepted
  refine ⟨next, ?_, stored, cap, kept⟩
  simp [respond, handled]

theorem unholed_start : Unholed responseMachine.init :=
  ⟨List.prefix_rfl, bounded_start, fun _ => rfl⟩

/-- One event that stays out after a failure keeps the buffer free of holes. -/
theorem unholed_step {response : Response} {event : HttpEvent} (unholed : Unholed response)
    (staysOut : StaysOut response event) : Unholed (respond response event) := by
  by_cases refused : event.Refused response.ctx
  · rw [respond_refused refused]
    exact ⟨unholed.isFirst.trans (List.prefix_append _ _), unholed.bounded, nofun⟩
  · obtain ⟨next, responded, stored, -, bounded⟩ := respond_accepted unholed.bounded refused
    rw [responded]
    by_cases nothing : event.data = []
    · rw [nothing, List.append_nil] at stored ⊢
      refine ⟨?_, bounded, ?_⟩
      · rw [stored]
        exact unholed.isFirst
      · rw [stored]
        exact unholed.whole
    · have fine : response.failed = false := by
        rw [← Bool.not_eq_true]
        exact fun failed => refused (staysOut failed nothing)
      have appended : next.buf = response.delivered ++ event.data := by
        rw [stored, unholed.whole fine]
      refine ⟨?_, bounded, fun _ => appended⟩
      exact ⟨[], (List.append_nil _).trans appended⟩

/-- A run whose events stay out after a failure is free of holes after every event. -/
theorem unholed_along {events : List HttpEvent}
    (along : responseMachine.Along StaysOut responseMachine.init events) :
    responseMachine.Always Unholed responseMachine.init events := by
  apply along.always _ unholed_start
  intro response event next unholed staysOut stepped
  cases stepped
  exact unholed_step unholed staysOut

/-! ### The two requests -/

/-- The response after the client has delivered `events`. -/
def received (events : List HttpEvent) : Response :=
  events.foldl respond responseMachine.init

theorem run_received (events : List HttpEvent) :
    responseMachine.run events = some (received events) := by
  have runs : ∀ response, responseMachine.runFrom response events =
      some (events.foldl respond response) := by
    induction events with
    | nil => exact fun _ => rfl
    | cons event rest inductionHypothesis =>
        exact fun response => inductionHypothesis (respond response event)
  exact runs responseMachine.init

/-- What a request meets: whether the buffer and the client can be allocated, what the
client delivers, what `esp_http_client_perform` returns, and the HTTP status. -/
structure Exchange where
  allocated : Bool
  initialized : Bool
  events : List HttpEvent
  performed : EspErr
  status : Int

/-- What both requests return, and the body and headers they hand out. A status `silent`
is a success without a body. -/
def request (silent : Option Int) (exchange : Exchange) : EspErr × List UInt8 × VoiceTurnMeta :=
  if exchange.allocated = false then (.noMem, [], .zero)
  else if exchange.initialized = false then (.fail, [], .zero)
  else
    let ctx := (received exchange.events).ctx
    if exchange.performed ≠ .ok then (exchange.performed, [], ctx.turnMeta)
    else if silent = some exchange.status then (.ok, [], ctx.turnMeta)
    else if exchange.status ≠ 200 then (.fail, [], ctx.turnMeta)
    else (.ok, ctx.buf, ctx.turnMeta)

/-- `http_post_voice_turn`. The server answers 204 to a turn it drops. -/
def httpPostVoiceTurn : Exchange → EspErr × List UInt8 × VoiceTurnMeta := request (some 204)

/-- `http_get_voice_result`. -/
def httpGetVoiceResult : Exchange → EspErr × List UInt8 × VoiceTurnMeta := request none

/-- A body handed out as a success is the whole one, if no event failed. -/
theorem request_body {silent : Option Int} {exchange : Exchange}
    (staysOut : responseMachine.Along StaysOut responseMachine.init exchange.events)
    (fine : (received exchange.events).failed = false)
    (success : (request silent exchange).1 = .ok) :
    (request silent exchange).2.1 =
      if silent = some exchange.status then [] else (received exchange.events).delivered := by
  have whole := ((unholed_along staysOut).final (run_received exchange.events)).whole fine
  unfold request at success ⊢
  by_cases unallocated : exchange.allocated = false
  · rw [if_pos unallocated] at success
    contradiction
  rw [if_neg unallocated] at success ⊢
  by_cases uninitialized : exchange.initialized = false
  · rw [if_pos uninitialized] at success
    contradiction
  rw [if_neg uninitialized] at success ⊢
  dsimp only at success ⊢
  by_cases failed : exchange.performed ≠ .ok
  · rw [if_pos failed] at success
    exact absurd success failed
  rw [if_neg failed] at success ⊢
  by_cases dropped : silent = some exchange.status
  · rw [if_pos dropped, if_pos dropped]
  rw [if_neg dropped] at success ⊢
  by_cases refused : exchange.status ≠ 200
  · rw [if_pos refused] at success
    contradiction
  rw [if_neg refused, if_neg dropped]
  exact whole

/-! ### The converse -/

/-- The event with every byte of its data replaced. -/
def HttpEvent.filled (byte : UInt8) : HttpEvent → HttpEvent
  | .onData data reallocated => .onData (List.replicate data.length byte) reallocated
  | event => event

/-- All of an event but the contents of its data. -/
def HttpEvent.shape (event : HttpEvent) : HttpEvent := event.filled 0

theorem data_filled (byte : UInt8) (event : HttpEvent) :
    (event.filled byte).data = List.replicate event.data.length byte := by
  cases event <;> rfl

theorem shape_filled (byte : UInt8) (event : HttpEvent) :
    (event.filled byte).shape = event.shape := by
  cases event with
  | onData data reallocated => simp [HttpEvent.shape, HttpEvent.filled]
  | onHeader | other => rfl

/-- Only the lengths decide whether an event is refused. -/
theorem refused_filled {ctx other : ResponseCtx} {byte : UInt8} {event : HttpEvent}
    (length : other.buf.length = ctx.buf.length) (cap : other.cap = ctx.cap) :
    (event.filled byte).Refused other ↔ event.Refused ctx := by
  cases event with
  | onData data reallocated =>
      simp only [HttpEvent.filled, HttpEvent.Refused, newCap, List.length_replicate, length, cap]
  | onHeader | other => rfl

theorem length_data_of_shape {event twin : HttpEvent} (shape : twin.shape = event.shape) :
    twin.data.length = event.data.length := by
  have lengths := congrArg (fun event => event.data.length) shape
  simpa only [HttpEvent.shape, data_filled, List.length_replicate] using lengths

theorem refused_of_shape {ctx twinCtx : ResponseCtx} {event twin : HttpEvent}
    (shape : twin.shape = event.shape) (length : twinCtx.buf.length = ctx.buf.length)
    (cap : twinCtx.cap = ctx.cap) : twin.Refused twinCtx ↔ event.Refused ctx := by
  have ofEvent := @refused_filled ctx ctx 0 event rfl rfl
  have ofTwin := @refused_filled twinCtx ctx 0 twin length.symm cap.symm
  rw [← ofEvent, ← ofTwin]
  exact iff_of_eq (congrArg (HttpEvent.Refused ctx) shape)

/-- The data of `events` with a mark in whatever the handler refuses. -/
def painted : Response → List HttpEvent → List HttpEvent
  | _, [] => []
  | response, event :: rest =>
      let paint := event.filled (if event.Refused response.ctx then 1 else 0)
      paint :: painted (respond response paint) rest

theorem shape_painted (response : Response) (events : List HttpEvent) :
    (painted response events).map HttpEvent.shape = events.map HttpEvent.shape := by
  induction events generalizing response with
  | nil => rfl
  | cons event rest inductionHypothesis =>
      rw [painted, List.map_cons, List.map_cons, shape_filled, inductionHypothesis]

/-- The response to painted data: a mark stands where the first refused event would
have gone. -/
structure Marked (response : Response) : Prop where
  bounded : response.ctx.Bounded
  whole : response.failed = false → response.delivered = response.ctx.buf
  holed : response.failed = true → ∃ rest, response.delivered = response.ctx.buf ++ 1 :: rest

/-- Two responses that agree on all lengths. -/
structure Alike (response other : Response) : Prop where
  length : other.ctx.buf.length = response.ctx.buf.length
  cap : other.ctx.cap = response.ctx.cap
  failed : other.failed = response.failed

/-- Nothing may go behind a mark. -/
theorem not_isFirst_of_marked {buf rest more : List UInt8} {count : Nat} (some_ : 0 < count) :
    ¬ buf ++ List.replicate count 0 <+: buf ++ 1 :: rest ++ more := by
  obtain ⟨fewer, rfl⟩ := Nat.exists_eq_succ_of_ne_zero (Nat.ne_of_gt some_)
  rw [List.append_assoc, List.prefix_append_right_inj, List.replicate_succ, List.cons_append,
    List.cons_prefix_cons]
  exact fun same => absurd same.1 (by decide)

/-- A refused event leaves the mark, or goes behind it. -/
theorem marked_refused {response : Response} {event : HttpEvent} (marked : Marked response)
    (refused : event.Refused response.ctx) :
    Marked (respond response (event.filled 1)) := by
  have count : 0 < event.data.length := by
    cases event with
    | onData data reallocated => exact refused.1
    | onHeader | other => exact refused.elim
  obtain ⟨fewer, length⟩ := Nat.exists_eq_succ_of_ne_zero (Nat.ne_of_gt count)
  rw [respond_refused ((refused_filled rfl rfl).mpr refused), data_filled, length]
  refine ⟨marked.bounded, nofun, fun _ => ?_⟩
  cases failed : response.failed with
  | false => exact ⟨List.replicate fewer 1, by rw [marked.whole failed]; rfl⟩
  | true =>
      obtain ⟨rest, delivered⟩ := marked.holed failed
      exact ⟨rest ++ List.replicate (fewer + 1) 1, by rw [delivered, List.append_assoc]; rfl⟩

/-- What is stored behind a mark makes a hole; before any mark nothing is lost. -/
theorem marked_accepted {response : Response} {event : HttpEvent} (marked : Marked response)
    (accepted : ¬ event.Refused response.ctx)
    (unholed : Unholed (respond response (event.filled 0))) :
    (response.failed = true → event.data = []) ∧
      Marked (respond response (event.filled 0)) := by
  have stillAccepted : ¬ (event.filled 0).Refused response.ctx :=
    fun refused => accepted ((refused_filled rfl rfl).mp refused)
  obtain ⟨next, responded, stored, -, bounded⟩ := respond_accepted marked.bounded stillAccepted
  rw [data_filled] at responded stored
  rw [responded] at unholed ⊢
  have nothing : response.failed = true → event.data = [] := by
    intro failed
    by_contra some_
    obtain ⟨rest, delivered⟩ := marked.holed failed
    have isFirst := unholed.isFirst
    rw [stored, delivered] at isFirst
    exact not_isFirst_of_marked (List.length_pos_iff.mpr some_) isFirst
  refine ⟨nothing, bounded, ?_, ?_⟩
  · intro fine
    rw [stored, marked.whole fine]
  · intro failed
    obtain ⟨rest, delivered⟩ := marked.holed failed
    rw [nothing failed, List.length_nil, List.replicate_zero, List.append_nil] at stored ⊢
    exact ⟨rest, by rw [stored, delivered]⟩

theorem bounded_respond {response : Response} (bounded : response.ctx.Bounded)
    (event : HttpEvent) : (respond response event).ctx.Bounded := by
  by_cases refused : event.Refused response.ctx
  · rwa [respond_refused refused]
  · obtain ⟨next, responded, -, -, kept⟩ := respond_accepted bounded refused
    rwa [responded]

/-- The contents of the data do not reach the lengths. -/
theorem alike_respond {response other : Response} {event otherEvent : HttpEvent}
    (alike : Alike response other) (bounded : response.ctx.Bounded)
    (boundedOther : other.ctx.Bounded) (shape : otherEvent.shape = event.shape) :
    Alike (respond response event) (respond other otherEvent) := by
  have agrees := refused_of_shape shape alike.length alike.cap
  have count := length_data_of_shape shape
  by_cases refused : event.Refused response.ctx
  · rw [respond_refused refused, respond_refused (agrees.mpr refused)]
    exact ⟨alike.length, alike.cap, rfl⟩
  · obtain ⟨next, responded, stored, cap, -⟩ := respond_accepted bounded refused
    obtain ⟨nextOther, respondedOther, storedOther, capOther, -⟩ :=
      respond_accepted boundedOther (fun refusedOther => refused (agrees.mp refusedOther))
    rw [responded, respondedOther]
    constructor
    · rw [stored, storedOther, List.length_append, List.length_append, count, alike.length]
    · rw [cap, capOther, count]
      simp only [capAfter, newCap, alike.length, alike.cap]
    · exact alike.failed

/-- Staying out is a matter of lengths. -/
theorem along_of_shape {events others : List HttpEvent} {response other : Response}
    (shapes : others.map HttpEvent.shape = events.map HttpEvent.shape)
    (alike : Alike response other) (bounded : response.ctx.Bounded)
    (boundedOther : other.ctx.Bounded)
    (along : responseMachine.Along StaysOut response events) :
    responseMachine.Along StaysOut other others := by
  induction events generalizing response other others with
  | nil =>
      rw [List.map_nil, List.map_eq_nil_iff] at shapes
      subst shapes
      trivial
  | cons event rest inductionHypothesis =>
      obtain ⟨otherEvent, otherRest, rfl, shape, shapes⟩ := List.map_eq_cons_iff.mp shapes
      have agrees := refused_of_shape shape alike.length alike.cap
      have count := length_data_of_shape shape
      obtain ⟨staysOut, along⟩ := along
      constructor
      · intro failed some_
        rw [← List.length_pos_iff, count, List.length_pos_iff] at some_
        exact agrees.mpr (staysOut (alike.failed.symm.trans failed) some_)
      · exact inductionHypothesis shapes (alike_respond alike bounded boundedOther shape)
          (bounded_respond bounded event) (bounded_respond boundedOther otherEvent) along

/-- If no way of filling the data makes a hole, everything after a refused event
stays out. -/
theorem along_of_unholed {events : List HttpEvent} {response other : Response}
    (alike : Alike response other) (bounded : response.ctx.Bounded) (marked : Marked other)
    (always : responseMachine.Always Unholed other (painted other events)) :
    responseMachine.Along StaysOut response events := by
  induction events generalizing response other with
  | nil => trivial
  | cons event rest inductionHypothesis =>
      obtain ⟨-, always⟩ := always
      have agrees := @refused_of_shape _ _ event event rfl alike.length alike.cap
      have later (byte : UInt8) :=
        alike_respond alike bounded marked.bounded (shape_filled byte event)
      by_cases refused : event.Refused other.ctx
      · rw [if_pos refused] at always
        constructor
        · exact fun _ _ => agrees.mp refused
        · exact inductionHypothesis (later 1) (bounded_respond bounded event)
            (marked_refused marked refused) always
      · rw [if_neg refused] at always
        have step := marked_accepted marked refused always.head
        constructor
        · intro failed some_
          exact absurd (step.1 (alike.failed.trans failed)) some_
        · exact inductionHypothesis (later 0) (bounded_respond bounded event) step.2 always

/-- However the data of given lengths is filled, the buffer is free of holes after every
event, exactly when everything after a refused event stays out. -/
theorem unholed_iff (events : List HttpEvent) :
    (∀ others : List HttpEvent, others.map HttpEvent.shape = events.map HttpEvent.shape →
      responseMachine.Always Unholed responseMachine.init others) ↔
    responseMachine.Along StaysOut responseMachine.init events := by
  have alike : Alike responseMachine.init responseMachine.init := ⟨rfl, rfl, rfl⟩
  constructor
  · intro always
    have marked : Marked responseMachine.init := ⟨bounded_start, fun _ => rfl, nofun⟩
    exact along_of_unholed alike bounded_start marked (always _ (shape_painted _ events))
  · intro along others shapes
    exact unholed_along (along_of_shape shapes alike bounded_start bounded_start along)

/-- A read of the client's buffer size, and a response that fills the first buffer with
`count` of them. -/
def block : List UInt8 := List.replicate 4096 0

def partlyFilled (count : Nat) : Response where
  ctx := ⟨List.replicate (count * 4096) 0, initialCap, .zero⟩
  delivered := List.replicate (count * 4096) 0
  failed := false

/-- Data that finds room is stored as it is. -/
theorem respond_of_room {response : Response} {data : List UInt8} {reallocated : Bool}
    (room : response.ctx.buf.length + data.length ≤ response.ctx.cap) :
    respond response (.onData data reallocated) =
      ⟨{ response.ctx with buf := response.ctx.buf ++ data }, response.delivered ++ data,
        response.failed⟩ := by
  by_cases some_ : 0 < data.length
  · simp [respond, httpEventHandler, HttpEvent.data, some_, Nat.not_lt.mpr room]
  · have empty : data = [] := List.eq_nil_of_length_eq_zero (by omega)
    subst empty
    simp [respond, httpEventHandler, HttpEvent.data]

theorem runFrom_blocks {count more : Nat} (fits : count + more ≤ 16) :
    responseMachine.runFrom (partlyFilled count) (List.replicate more (.onData block true)) =
      some (partlyFilled (count + more)) := by
  induction more generalizing count with
  | zero => rfl
  | succ more inductionHypothesis =>
      have room : (partlyFilled count).ctx.buf.length + block.length ≤
          (partlyFilled count).ctx.cap := by
        simp only [partlyFilled, block, List.length_replicate, initialCap]
        omega
      have filled : respond (partlyFilled count) (.onData block true) =
          partlyFilled (count + 1) := by
        rw [respond_of_room room]
        simp only [partlyFilled, block, List.replicate_append_replicate, Nat.succ_mul]
      rw [List.replicate_succ, Machine.runFrom_cons]
      dsimp only [responseMachine, Option.bind_some]
      rw [filled]
      have shift : count + 1 + more = count + (more + 1) := by omega
      rw [← shift]
      exact inductionHypothesis (by omega)

/-- A block that finds no memory, and a last byte that does. -/
def noMemory : HttpEvent := .onData (List.replicate 4096 1) false

def lastByte : HttpEvent := .onData [0] true

/-- Sixteen blocks fill the buffer. -/
def holedRun : List HttpEvent := List.replicate 16 (.onData block true) ++ [noMemory, lastByte]

theorem unholed_not_of_holedRun :
    ¬ ∀ events : List HttpEvent,
      responseMachine.Always Unholed responseMachine.init events := by
  intro always
  have full : (partlyFilled 16).ctx.buf.length = 65536 := List.length_replicate
  have cap : (partlyFilled 16).ctx.cap = 65536 := rfl
  have bounded : (partlyFilled 16).ctx.Bounded :=
    ⟨Nat.le_of_eq (full.trans cap.symm), bounded_start.limit⟩
  have refused : noMemory.Refused (partlyFilled 16).ctx := by
    refine ⟨?_, ?_, Or.inr rfl⟩
    · rw [List.length_replicate]
      decide
    · rw [full, cap, List.length_replicate]
      decide
  have accepted : ¬ lastByte.Refused (partlyFilled 16).ctx := by
    rintro ⟨-, -, limit | noMemory⟩
    · rw [newCap, full, cap] at limit
      exact absurd limit (by decide)
    · exact nomatch noMemory
  have failed := respond_refused refused
  obtain ⟨next, holed, stored, -, -⟩ :=
    @respond_accepted (respond (partlyFilled 16) noMemory) lastByte (by rwa [failed])
      (by rwa [failed])
  have last : responseMachine.runFrom (partlyFilled 16) [noMemory, lastByte] =
      some (respond (respond (partlyFilled 16) noMemory) lastByte) := rfl
  have ran : responseMachine.run holedRun = _ :=
    Machine.runFrom_append [noMemory, lastByte] (@runFrom_blocks 0 16 (by decide))
  have unholed := (always holedRun).final (ran.trans last)
  rw [holed] at unholed
  have isFirst := unholed.isFirst
  rw [stored, failed] at isFirst
  exact not_isFirst_of_marked Nat.one_pos isFirst

end WallUnit.Firmware.HttpClient
