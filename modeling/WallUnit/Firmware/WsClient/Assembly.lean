import Mathlib.Data.List.Basic

/-!
Owns the frame assembly of `_ws_event_handler`: `WEBSOCKET_EVENT_DATA` events in,
whole frames out. Its main result is that a frame which fits the buffer comes out
once and unchanged, however the transport fragments it.

Does not own what is done with a frame.
-/

namespace WallUnit.Firmware.WsClient

/-- `RX_ASSEMBLY_BYTES`. -/
def rxAssemblyBytes : Nat := 4096

/-- `esp_websocket_event_data_t`; `data_len` is the length of `data`. -/
structure DataEvent where
  opCode : Nat
  payloadOffset : Int
  payloadLen : Int
  data : List UInt8
deriving DecidableEq, Repr

/-- `s_rx_assembly` up to `s_rx_assembly_len`, and `s_rx_expected_len`. -/
structure Assembly where
  buffer : List UInt8
  expectedLen : Int
deriving DecidableEq, Repr

def Assembly.empty : Assembly := ⟨[], 0⟩

/-- What an event leads to besides the new assembly. -/
inductive Reception where
  | overflow
  | frame (bytes : List UInt8)
deriving DecidableEq, Repr

/-- TEXT or CONT. -/
def DataEvent.isText (event : DataEvent) : Bool := event.opCode = 1 ∨ event.opCode = 0

/-- The `WEBSOCKET_EVENT_DATA` case of `_ws_event_handler`. -/
def assemble (assembly : Assembly) (event : DataEvent) : Assembly × Option Reception :=
  if event.isText ∧ 0 < event.data.length then
    let started := if event.payloadOffset = 0 then ⟨[], event.payloadLen⟩ else assembly
    if started.buffer.length + event.data.length ≤ rxAssemblyBytes then
      let filled := { started with buffer := started.buffer ++ event.data }
      -- An unknown length (`payload_len` -1) counts as complete at once.
      if filled.expectedLen ≤ 0 ∨ filled.expectedLen ≤ filled.buffer.length then
        (.empty, some (.frame filled.buffer))
      else (filled, none)
    else (.empty, some .overflow)
  else (assembly, none)

def receive : Assembly → List DataEvent → Assembly × List Reception
  | assembly, [] => (assembly, [])
  | assembly, event :: rest =>
      let next := assemble assembly event
      let last := receive next.1 rest
      (last.1, next.2.toList ++ last.2)

/-! ### Fragmentation -/

/-- A part of a text frame as the transport cuts it, possibly empty. -/
structure Fragment where
  opCode : Nat
  text : opCode = 1 ∨ opCode = 0
  data : List UInt8

/-- The events for `fragments`, the first of which starts at `offset` of a frame
of `total` bytes. -/
def fragmentEvents (total : Nat) : Nat → List Fragment → List DataEvent
  | _, [] => []
  | offset, fragment :: rest =>
      ⟨fragment.opCode, offset, total, fragment.data⟩ ::
        fragmentEvents total (offset + fragment.data.length) rest

/-- `events` deliver the frame `bytes`: their text events are the fragments of it, in
order, and control frames may arrive in between. -/
def Carries (bytes : List UInt8) (events : List DataEvent) : Prop :=
  ∃ fragments : List Fragment, fragments.flatMap Fragment.data = bytes ∧
    events.filter DataEvent.isText = fragmentEvents bytes.length 0 fragments

theorem assemble_of_not_text {event : DataEvent} (control : ¬ event.isText = true)
    (assembly : Assembly) : assemble assembly event = (assembly, none) := by
  rw [assemble, if_neg]
  exact fun text => control text.1

theorem assemble_of_empty {event : DataEvent} (empty : event.data = []) (assembly : Assembly) :
    assemble assembly event = (assembly, none) := by
  rw [assemble, if_neg]
  rw [empty]
  exact fun positive => absurd positive.2 (by decide)

theorem receive_append (assembly : Assembly) (left right : List DataEvent) :
    receive assembly (left ++ right) =
      ((receive (receive assembly left).1 right).1,
        (receive assembly left).2 ++ (receive (receive assembly left).1 right).2) := by
  induction left generalizing assembly with
  | nil => rfl
  | cons event rest inductionHypothesis =>
      rw [List.cons_append, receive, receive, inductionHypothesis]
      simp

/-- Control frames do not reach the assembly. -/
theorem receive_filter (assembly : Assembly) (events : List DataEvent) :
    receive assembly (events.filter DataEvent.isText) = receive assembly events := by
  induction events generalizing assembly with
  | nil => rfl
  | cons event rest inductionHypothesis =>
      by_cases text : event.isText = true
      · rw [List.filter_cons_of_pos text, receive, receive, inductionHypothesis]
      · rw [List.filter_cons_of_neg text, inductionHypothesis, receive,
          assemble_of_not_text text]
        simp

/-- Empty fragments are ignored. -/
theorem receive_of_flatten_nil {fragments : List Fragment}
    (nothing : fragments.flatMap Fragment.data = []) (total offset : Nat) (assembly : Assembly) :
    receive assembly (fragmentEvents total offset fragments) = (assembly, []) := by
  induction fragments generalizing offset with
  | nil => rfl
  | cons fragment rest inductionHypothesis =>
      rw [List.flatMap_cons, List.append_eq_nil_iff] at nothing
      rw [fragmentEvents, receive, assemble_of_empty nothing.1, inductionHypothesis nothing.2]
      rfl

/-- The rest of a frame of which `before` has been assembled. At offset 0 whatever the
buffer held is dropped, so nothing is asked of it. -/
theorem receive_fragments {bytes before : List UInt8} {fragments : List Fragment}
    {assembly : Assembly}
    (fits : bytes.length ≤ rxAssemblyBytes)
    (started : (if before.length = 0 then ⟨[], (bytes.length : Int)⟩ else assembly) =
      (⟨before, bytes.length⟩ : Assembly))
    (whole : before ++ fragments.flatMap Fragment.data = bytes)
    (more : fragments.flatMap Fragment.data ≠ []) :
    receive assembly (fragmentEvents bytes.length before.length fragments) =
      (.empty, [.frame bytes]) := by
  induction fragments generalizing before assembly with
  | nil => exact absurd rfl more
  | cons fragment rest inductionHypothesis =>
      rw [List.flatMap_cons] at whole more
      have total : before.length + (fragment.data.length +
          (rest.flatMap Fragment.data).length) = bytes.length := by
        rw [← whole, List.length_append, List.length_append]
      rw [fragmentEvents, receive]
      by_cases empty : fragment.data = []
      · rw [empty, List.nil_append] at whole more
        rw [assemble_of_empty empty, empty, List.length_nil, Nat.add_zero,
          inductionHypothesis started whole more]
        rfl
      · have positive := List.length_pos_iff.mpr empty
        have text : DataEvent.isText
            ⟨fragment.opCode, before.length, bytes.length, fragment.data⟩ = true := by
          simp [DataEvent.isText, fragment.text]
        have room : before.length + fragment.data.length ≤ rxAssemblyBytes := by omega
        simp only [assemble, text, positive, true_and, if_true, Int.natCast_eq_zero, started, room]
        by_cases last : rest.flatMap Fragment.data = []
        · have complete : before ++ fragment.data = bytes := by
            rw [← whole, last, List.append_nil]
          simp only [complete, Int.le_refl, or_true, if_true, receive_of_flatten_nil last]
          rfl
        · have remaining := List.length_pos_iff.mpr last
          have waits : ¬ ((bytes.length : Int) ≤ 0 ∨
              (bytes.length : Int) ≤ (before ++ fragment.data).length) := by
            rw [List.length_append]
            omega
          have later : (before ++ fragment.data).length ≠ 0 := by
            rw [List.length_append]
            omega
          simp only [waits, if_false]
          rw [← List.length_append, inductionHypothesis (if_neg later)
            (by rw [List.append_assoc, whole]) last]
          rfl

/-- A frame that fits comes out once and unchanged, and leaves nothing behind. -/
theorem receive_of_carries {bytes : List UInt8} {events : List DataEvent}
    (carries : Carries bytes events) (nonempty : 0 < bytes.length)
    (fits : bytes.length ≤ rxAssemblyBytes) (assembly : Assembly) :
    receive assembly events = (.empty, [.frame bytes]) := by
  obtain ⟨fragments, whole, cut⟩ := carries
  have more : fragments.flatMap Fragment.data ≠ [] := by
    rw [whole]
    exact List.length_pos_iff.mp nonempty
  rw [← receive_filter, cut]
  exact @receive_fragments bytes [] fragments assembly fits rfl whole more

/-- Frames that fit come out in order. -/
theorem receive_of_forall₂_carries {frames : List (List UInt8)}
    {deliveries : List (List DataEvent)} (carried : List.Forall₂ Carries frames deliveries)
    (fits : ∀ bytes ∈ frames, 0 < bytes.length ∧ bytes.length ≤ rxAssemblyBytes)
    (assembly : Assembly) :
    (receive assembly deliveries.flatten).2 = frames.map Reception.frame := by
  induction carried generalizing assembly with
  | nil => rfl
  | cons carries _ inductionHypothesis =>
      rw [List.forall_mem_cons] at fits
      rw [List.flatten_cons, receive_append, receive_of_carries carries fits.1.1 fits.1.2,
        inductionHypothesis fits.2]
      rfl

end WallUnit.Firmware.WsClient
