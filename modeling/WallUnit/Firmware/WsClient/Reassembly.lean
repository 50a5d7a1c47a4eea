import Mathlib.Data.Bool.AllAny
import WallUnit.Firmware.WsClient.Events

/-!
Owns what `_ws_event_handler` passes to `_handle_server_event` when the server's text
frames arrive whole, too long, or cut off by a lost connection, in any fragments.
`passed_iff` says when this is the whole frames that fit and nothing else: the
overflow exit forgets that the rest of its frame is still to come.

Does not own what is done with a frame.
-/

namespace WallUnit.Firmware.WsClient

/-! ### What is passed on -/

def Reception.passed : Reception → Option (List UInt8)
  | .frame bytes => some bytes
  | .overflow => none

/-- The byte string an event makes `_ws_event_handler` pass to `_handle_server_event`. -/
def passedBy (assembly : Assembly) : WsEvent → Option (List UInt8)
  | .data event => (assemble assembly event).2.bind Reception.passed
  | _ => none

/-- The byte strings passed on over a sequence of events. -/
def passed (library : Library) : WsState → List WsEvent → List (List UInt8)
  | _, [] => []
  | state, event :: rest =>
      (passedBy state.assembly event).toList ++
        passed library (wsEventHandler library state event).1 rest

/-- `_handle_server_event` is called with what is passed on, and with nothing else. -/
theorem wsEventHandler_of_passedBy (library : Library) (state : WsState) (event : WsEvent) :
    match passedBy state.assembly event with
    | some bytes =>
        (wsEventHandler library state event).2 =
            (handleServerEvent library bytes state.session).2 ∧
          (wsEventHandler library state event).1.session =
            (handleServerEvent library bytes state.session).1
    | none =>
        (wsEventHandler library state event).2 = [] ∨
          (wsEventHandler library state event).2 = [.hello] ∨
          (wsEventHandler library state event).2 = [.overflow] := by
  cases event with
  | data event =>
      simp only [passedBy, wsEventHandler]
      cases (assemble state.assembly event).2 with
      | none => exact Or.inl rfl
      | some reception =>
          cases reception with
          | overflow => exact Or.inr (Or.inr rfl)
          | frame bytes => exact ⟨rfl, rfl⟩
  | connected => exact Or.inr (Or.inl rfl)
  | disconnected | closed | error => exact Or.inl rfl

theorem assembly_data (library : Library) (state : WsState) (event : DataEvent) :
    (wsEventHandler library state (.data event)).1.assembly =
      (assemble state.assembly event).1 := by
  simp only [wsEventHandler]
  cases (assemble state.assembly event).2 <;> rfl

/-- The data events with an op code of text. -/
def textEvents : List WsEvent → List DataEvent
  | [] => []
  | .data event :: rest => if event.isText then event :: textEvents rest else textEvents rest
  | _ :: rest => textEvents rest

/-- Only text events matter: control frames, lost and new connections and errors leave
the assembly alone. -/
theorem passed_eq (library : Library) (state : WsState) (events : List WsEvent) :
    passed library state events =
      (receive state.assembly (textEvents events)).2.filterMap Reception.passed := by
  induction events generalizing state with
  | nil => rfl
  | cons event rest inductionHypothesis =>
      rw [passed, inductionHypothesis]
      cases event with
      | connected | disconnected | closed | error => rfl
      | data event =>
          rw [assembly_data, textEvents, passedBy]
          by_cases text : event.isText = true
          · rw [if_pos text, receive, List.filterMap_append]
            cases (assemble state.assembly event).2 with
            | none => rfl
            | some reception => cases reception <;> rfl
          · rw [if_neg text, assemble_of_not_text text]
            rfl

/-! ### Deliveries -/

/-- A text frame and the fragments of it that arrive before its end, or before the
connection is lost. -/
structure Delivery where
  payload : List UInt8
  fragments : List Fragment
  positive : 0 < payload.length
  nonempty : ∀ fragment ∈ fragments, fragment.data ≠ []
  within : fragments.flatMap Fragment.data <+: payload

/-- Every byte has arrived. -/
def Delivery.complete (delivery : Delivery) : Bool :=
  delivery.fragments.flatMap Fragment.data = delivery.payload

def Delivery.events (delivery : Delivery) : List DataEvent :=
  fragmentEvents delivery.payload.length 0 delivery.fragments

/-- The payloads of the frames delivered completely that fit the buffer. -/
def wholeFrames (deliveries : List Delivery) : List (List UInt8) :=
  (deliveries.filter fun delivery =>
    delivery.complete ∧ delivery.payload.length ≤ rxAssemblyBytes).map Delivery.payload

/-- A fragment that starts past the buffer's end but is short enough to fit it. -/
def DataEvent.stray (event : DataEvent) : Bool :=
  (rxAssemblyBytes : Int) < event.payloadOffset ∧ event.data.length ≤ rxAssemblyBytes

def strays (events : List DataEvent) : List (List UInt8) :=
  (events.filter DataEvent.stray).map DataEvent.data

/-! ### One delivery -/

/-- What a sequence of data events passes on. -/
def framesOf (assembly : Assembly) (events : List DataEvent) : List (List UInt8) :=
  (receive assembly events).2.filterMap Reception.passed

theorem framesOf_cons (assembly : Assembly) (event : DataEvent) (rest : List DataEvent) :
    framesOf assembly (event :: rest) =
      ((assemble assembly event).2.bind Reception.passed).toList ++
        framesOf (assemble assembly event).1 rest := by
  rw [framesOf, receive, List.filterMap_append]
  cases (assemble assembly event).2 with
  | none => rfl
  | some reception => cases reception <;> rfl

theorem framesOf_append (assembly : Assembly) (left right : List DataEvent) :
    framesOf assembly (left ++ right) =
      framesOf assembly left ++ framesOf (receive assembly left).1 right := by
  rw [framesOf, receive_append, List.filterMap_append]
  rfl

/-- What a text event with data does, from what the buffer holds after the reset. -/
theorem assemble_of_text {assembly started : Assembly} {event : DataEvent}
    (text : event.isText = true) (positive : 0 < event.data.length)
    (start : (if event.payloadOffset = 0 then ⟨[], event.payloadLen⟩ else assembly) = started) :
    assemble assembly event =
      if started.buffer.length + event.data.length ≤ rxAssemblyBytes then
        if started.expectedLen ≤ 0 ∨
            started.expectedLen ≤ (started.buffer ++ event.data).length then
          (.empty, some (.frame (started.buffer ++ event.data)))
        else (⟨started.buffer ++ event.data, started.expectedLen⟩, none)
      else (.empty, some .overflow) := by
  subst start
  simp only [assemble, text, positive, true_and, if_true]

theorem isText_fragment (fragment : Fragment) (offset total : Int) :
    DataEvent.isText ⟨fragment.opCode, offset, total, fragment.data⟩ = true := by
  simp [DataEvent.isText, fragment.text]

theorem strays_cons (event : DataEvent) (rest : List DataEvent) :
    strays (event :: rest) = (if event.stray then [event.data] else []) ++ strays rest := by
  by_cases stray : event.stray = true
  · rw [strays, List.filter_cons_of_pos stray, if_pos stray]
    rfl
  · rw [strays, List.filter_cons_of_neg stray, if_neg stray]
    rfl

/-- After the overflow exit every further fragment that fits the buffer is passed on. -/
theorem framesOf_overflowed {total offset : Nat} {fragments : List Fragment}
    (nonempty : ∀ fragment ∈ fragments, fragment.data ≠ []) (past : rxAssemblyBytes < offset) :
    framesOf .empty (fragmentEvents total offset fragments) =
      strays (fragmentEvents total offset fragments) := by
  induction fragments generalizing offset with
  | nil => rfl
  | cons fragment rest inductionHypothesis =>
      rw [List.forall_mem_cons] at nonempty
      have later := inductionHypothesis nonempty.2 (Nat.lt_add_right fragment.data.length past)
      have notFirst : (offset : Int) ≠ 0 := by omega
      have assembled := assemble_of_text (isText_fragment fragment offset total)
        (List.length_pos_iff.mpr nonempty.1) (@if_neg _ _ notFirst _ _ Assembly.empty)
      have same : Assembly.empty.buffer.length + fragment.data.length = fragment.data.length :=
        Nat.zero_add _
      rw [fragmentEvents, framesOf_cons, strays_cons]
      by_cases fits : fragment.data.length ≤ rxAssemblyBytes
      · have frame := assembled.trans
          ((if_pos (Nat.le_trans (Nat.le_of_eq same) fits)).trans (if_pos (Or.inl (Int.le_refl 0))))
        have stray : DataEvent.stray ⟨fragment.opCode, offset, total, fragment.data⟩ = true := by
          simp [DataEvent.stray, past, fits]
        rw [frame, if_pos stray]
        exact congrArg (fragment.data :: ·) later
      · have full : ¬ Assembly.empty.buffer.length + fragment.data.length ≤ rxAssemblyBytes := by
          rwa [same]
        have overflow := assembled.trans (if_neg full)
        have kept : ¬ DataEvent.stray ⟨fragment.opCode, offset, total, fragment.data⟩ = true := by
          simp [DataEvent.stray, fits]
        rw [overflow, if_neg kept]
        exact later

/-- Fragments that bring no byte are no fragments. -/
theorem eq_nil_of_flatMap_data {fragments : List Fragment}
    (nonempty : ∀ fragment ∈ fragments, fragment.data ≠ [])
    (nothing : (fragments.flatMap Fragment.data).length = 0) : fragments = [] := by
  cases fragments with
  | nil => rfl
  | cons fragment rest =>
      have positive := List.length_pos_iff.mpr (nonempty fragment (List.mem_cons_self ..))
      rw [List.flatMap_cons, List.length_append] at nothing
      omega

/-- The rest of a frame of which `before` is in the buffer: the whole frame if it arrives
and fits, and the strays behind an overflow. -/
theorem framesOf_fragments {payload before : List UInt8} {fragments : List Fragment}
    {assembly : Assembly} (nonempty : ∀ fragment ∈ fragments, fragment.data ≠ [])
    (within : before ++ fragments.flatMap Fragment.data <+: payload)
    (room : before.length ≤ rxAssemblyBytes) (more : before.length < payload.length)
    (started : (if before.length = 0 then ⟨[], (payload.length : Int)⟩ else assembly) =
      (⟨before, payload.length⟩ : Assembly)) :
    framesOf assembly (fragmentEvents payload.length before.length fragments) =
      (if before ++ fragments.flatMap Fragment.data = payload ∧
          payload.length ≤ rxAssemblyBytes then [payload] else []) ++
        strays (fragmentEvents payload.length before.length fragments) := by
  induction fragments generalizing before assembly with
  | nil =>
      rw [List.flatMap_nil, List.append_nil, if_neg]
      · rfl
      · rintro ⟨rfl, -⟩
        exact Nat.lt_irrefl _ more
  | cons fragment rest inductionHypothesis =>
      rw [List.forall_mem_cons] at nonempty
      rw [List.flatMap_cons, ← List.append_assoc] at within ⊢
      have positive := List.length_pos_iff.mpr nonempty.1
      have reached := within.length_le
      rw [List.length_append, List.length_append] at reached
      have start : (if (before.length : Int) = 0 then ⟨[], (payload.length : Int)⟩
          else assembly) = (⟨before, payload.length⟩ : Assembly) := by
        simpa only [Int.natCast_eq_zero] using started
      have assembled := assemble_of_text
        (isText_fragment fragment before.length payload.length) positive start
      have kept : ¬ DataEvent.stray
          ⟨fragment.opCode, before.length, payload.length, fragment.data⟩ = true := by
        simp only [DataEvent.stray, decide_eq_true_eq]
        omega
      rw [fragmentEvents, framesOf_cons, strays_cons, if_neg kept, List.nil_append]
      by_cases fits : before.length + fragment.data.length ≤ rxAssemblyBytes
      · have stored := assembled.trans (if_pos fits)
        by_cases last : before.length + fragment.data.length = payload.length
        · obtain rfl : rest = [] := eq_nil_of_flatMap_data nonempty.2 (by omega)
          rw [List.flatMap_nil, List.append_nil] at within ⊢
          have whole : before ++ fragment.data = payload := by
            apply within.eq_of_length
            rwa [List.length_append]
          have frame := stored.trans (if_pos (Or.inr (Int.le_of_eq (by rw [whole]))))
          have small : payload.length ≤ rxAssemblyBytes := by omega
          rw [frame, whole, if_pos ⟨rfl, small⟩]
          rfl
        · have length : (before ++ fragment.data).length = before.length + fragment.data.length :=
            List.length_append
          have waits : ¬ ((payload.length : Int) ≤ 0 ∨
              (payload.length : Int) ≤ (before ++ fragment.data).length) := by
            omega
          have partly := stored.trans (if_neg waits)
          rw [partly, ← length]
          apply inductionHypothesis nonempty.2 within
          · omega
          · omega
          · rw [if_neg]
            omega
      · have overflow := assembled.trans (if_neg fits)
        have past : rxAssemblyBytes < before.length + fragment.data.length :=
          Nat.lt_of_not_le fits
        have long : ¬ payload.length ≤ rxAssemblyBytes := by omega
        rw [overflow, framesOf_overflowed nonempty.2 past, if_neg fun whole => long whole.2]
        rfl

/-! ### All deliveries -/

theorem framesOf_delivery (assembly : Assembly) (delivery : Delivery) :
    framesOf assembly delivery.events =
      wholeFrames [delivery] ++ strays delivery.events := by
  have frames := @framesOf_fragments delivery.payload [] delivery.fragments assembly
    delivery.nonempty delivery.within (Nat.zero_le _) delivery.positive rfl
  rw [Delivery.events, wholeFrames]
  by_cases whole : delivery.fragments.flatMap Fragment.data = delivery.payload ∧
      delivery.payload.length ≤ rxAssemblyBytes
  · rw [List.filter_cons_of_pos (by simpa [Delivery.complete] using whole)]
    exact frames.trans (congrArg (· ++ _) (if_pos whole))
  · rw [List.filter_cons_of_neg (by simpa [Delivery.complete] using whole)]
    exact frames.trans (congrArg (· ++ _) (if_neg whole))

theorem wholeFrames_cons (delivery : Delivery) (rest : List Delivery) :
    wholeFrames (delivery :: rest) = wholeFrames [delivery] ++ wholeFrames rest := by
  rw [wholeFrames, ← List.singleton_append, List.filter_append, List.map_append]
  rfl

theorem strays_append (left right : List DataEvent) :
    strays (left ++ right) = strays left ++ strays right := by
  rw [strays, List.filter_append, List.map_append]
  rfl

/-- A whole frame is passed on for each delivery that has one, and every stray. -/
theorem length_framesOf (assembly : Assembly) (deliveries : List Delivery) :
    (framesOf assembly (deliveries.flatMap Delivery.events)).length =
      (wholeFrames deliveries).length + (strays (deliveries.flatMap Delivery.events)).length := by
  induction deliveries generalizing assembly with
  | nil => rfl
  | cons delivery rest inductionHypothesis =>
      rw [List.flatMap_cons, framesOf_append, framesOf_delivery,
        wholeFrames_cons delivery rest, strays_append]
      simp only [List.length_append, inductionHypothesis]
      omega

theorem framesOf_of_no_strays (assembly : Assembly) {deliveries : List Delivery}
    (none_ : strays (deliveries.flatMap Delivery.events) = []) :
    framesOf assembly (deliveries.flatMap Delivery.events) = wholeFrames deliveries := by
  induction deliveries generalizing assembly with
  | nil => rfl
  | cons delivery rest inductionHypothesis =>
      rw [List.flatMap_cons, strays_append, List.append_eq_nil_iff] at none_
      rw [List.flatMap_cons, framesOf_append, framesOf_delivery,
        wholeFrames_cons delivery rest, none_.1, List.append_nil, inductionHypothesis _ none_.2]

theorem strays_eq_nil_iff (events : List DataEvent) :
    strays events = [] ↔ ∀ event ∈ events,
      (rxAssemblyBytes : Int) < event.payloadOffset → rxAssemblyBytes < event.data.length := by
  rw [strays, List.map_eq_nil_iff, List.filter_eq_nil_iff]
  simp [DataEvent.stray]

/-- Nothing but whole frames is passed on exactly when there are no strays. -/
theorem passed_iff_no_strays {library : Library} {state : WsState} {deliveries : List Delivery}
    {events : List WsEvent} (carried : textEvents events = deliveries.flatMap Delivery.events) :
    passed library state events = wholeFrames deliveries ↔ strays (textEvents events) = [] := by
  have frames : passed library state events =
      framesOf state.assembly (deliveries.flatMap Delivery.events) := by
    rw [passed_eq, carried]
    rfl
  rw [frames, carried]
  constructor
  · intro exact_
    have lengths := length_framesOf state.assembly deliveries
    rw [exact_] at lengths
    apply List.eq_nil_of_length_eq_zero
    omega
  · exact framesOf_of_no_strays state.assembly

/-- The frames passed on are the complete ones that fit, whole, in order and once each,
exactly when no fragment that starts past the buffer's end would fit it. -/
theorem passed_iff {library : Library} {state : WsState} {deliveries : List Delivery}
    {events : List WsEvent} (carried : textEvents events = deliveries.flatMap Delivery.events) :
    passed library state events = wholeFrames deliveries ↔
      ∀ event ∈ textEvents events,
        (rxAssemblyBytes : Int) < event.payloadOffset → rxAssemblyBytes < event.data.length := by
  rw [passed_iff_no_strays carried, strays_eq_nil_iff]

/-- A text fragment that holds `data`. -/
def textFragment (data : List UInt8) : Fragment := ⟨1, Or.inl rfl, data⟩

/-- A library that parses nothing. -/
def noLibrary : Library := ⟨fun _ => none, fun _ _ => none⟩

def idleState : WsState := ⟨.empty, ⟨false, false, false, [], [], false⟩⟩

/-- A frame in two fragments, and one whose connection is lost after its first. -/
def sampleDeliveries : List Delivery :=
  [⟨[104, 105, 33], [textFragment [104], textFragment [105, 33]], by decide,
      List.forall_mem_cons.mpr ⟨by decide, List.forall_mem_singleton.mpr (by decide)⟩,
      List.prefix_rfl⟩,
    ⟨[121, 111], [textFragment [121]], by decide, List.forall_mem_singleton.mpr (by decide),
      ⟨[111], rfl⟩⟩]

def ping : WsEvent := .data ⟨9, 0, 0, []⟩

def sampleEvents : List WsEvent :=
  [.connected, .data ⟨1, 0, 3, [104]⟩, ping, .data ⟨1, 1, 3, [105, 33]⟩, .data ⟨1, 0, 2, [121]⟩,
    .disconnected]

theorem passed_of_sampleEvents :
    passed noLibrary idleState sampleEvents = [[104, 105, 33]] := by
  apply (@passed_iff noLibrary idleState sampleDeliveries sampleEvents rfl).mpr
  exact List.all_iff_forall_prop.mp (by decide)

theorem replicate_ne_nil (byte : UInt8) (fewer : Nat) : List.replicate (fewer + 1) byte ≠ [] :=
  List.cons_ne_nil _ _

/-- A frame of 5000 bytes: the second fragment overflows the buffer, the third fits it. -/
def longFragments : List Fragment :=
  [textFragment (List.replicate 4000 0), textFragment (List.replicate 900 0),
    textFragment (List.replicate 100 0)]

def longDelivery : Delivery where
  payload := longFragments.flatMap Fragment.data
  fragments := longFragments
  positive := List.length_pos_iff.mpr fun empty =>
    replicate_ne_nil 0 3999 (List.append_eq_nil_iff.mp empty).1
  nonempty := List.forall_mem_cons.mpr ⟨replicate_ne_nil 0 3999,
    List.forall_mem_cons.mpr ⟨replicate_ne_nil 0 899,
      List.forall_mem_singleton.mpr (replicate_ne_nil 0 99)⟩⟩
  within := List.prefix_rfl

theorem passed_not_of_longDelivery :
    ¬ ∀ (library : Library) (state : WsState) (deliveries : List Delivery)
      (events : List WsEvent), textEvents events = deliveries.flatMap Delivery.events →
        passed library state events = wholeFrames deliveries := by
  intro always
  have exact_ := always noLibrary idleState [longDelivery] (longDelivery.events.map .data) rfl
  have short := (strays_eq_nil_iff _).mp ((passed_iff_no_strays rfl).mp exact_) _
    (List.mem_cons_of_mem _ (List.mem_cons_of_mem _ (List.mem_cons_self ..)))
  simp only [textFragment, List.length_replicate] at short
  exact absurd (short (by decide)) (by decide)

end WallUnit.Firmware.WsClient
