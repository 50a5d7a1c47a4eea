import Mathlib.Data.List.Basic
import WallUnit.Firmware.Esp

/-!
Owns `opus_stream.c`: the growing buffer of length-prefixed packets and the calls
that create, feed and finalize it. What `opus_encode` returns and whether a
reallocation succeeds are inputs.

Does not own the encoder, nor the capture that feeds it.
-/

namespace WallUnit.Firmware.Opus

/-- `INITIAL_CAP`. -/
def initialCap : Nat := 8 * 1024

structure OpusStream where
  frameSamples : Nat
  buf : List UInt8
  bufCap : Nat
deriving DecidableEq, Repr

/-- What one frame meets: the packet `opus_encode` returns, absent when it
returns a negative number, and whether `heap_caps_realloc` would succeed. -/
structure EncodeOutcome where
  packet : Option (List UInt8)
  reallocated : Bool
deriving DecidableEq, Repr

/-- `opus_stream_create` when every allocation succeeds: 20 ms frames. -/
def opusStreamCreate (sampleRate : Nat) : OpusStream where
  frameSamples := sampleRate / 50
  buf := []
  bufCap := initialCap

/-- The doubling loop of `grow_buf`. -/
def doubleUntil (target cap : Nat) : Nat :=
  if target ≤ cap ∨ cap = 0 then cap else doubleUntil target (cap * 2)
termination_by target - cap

/-- `grow_buf`. -/
def growBuf (need : Nat) (reallocated : Bool) (stream : OpusStream) : EspErr × OpusStream :=
  if stream.buf.length + need ≤ stream.bufCap then (.ok, stream)
  else if reallocated then
    (.ok, { stream with bufCap := doubleUntil (stream.buf.length + need) stream.bufCap })
  else (.noMem, stream)

/-- One record of the wire format: `[u16 LE length][packet bytes]`. -/
def record (packet : List UInt8) : List UInt8 :=
  UInt8.ofNat (packet.length &&& 0xFF) :: UInt8.ofNat ((packet.length >>> 8) &&& 0xFF) :: packet

/-- The wire format of a packet sequence. -/
def framing (packets : List (List UInt8)) : List UInt8 := packets.flatMap record

/-- `opus_stream_encode_frame`. A result of at most two bytes is DTX and leaves
no record. -/
def opusStreamEncodeFrame (frameSamples : Nat) (outcome : EncodeOutcome) (stream : OpusStream) :
    EspErr × OpusStream :=
  if frameSamples ≠ stream.frameSamples then (.invalidArg, stream)
  else
    match outcome.packet with
    | none => (.fail, stream)
    | some packet =>
        if packet.length ≤ 2 then (.ok, stream)
        else
          let (err, grown) := growBuf (2 + packet.length) outcome.reallocated stream
          if err ≠ .ok then (err, grown)
          else (.ok, { grown with buf := grown.buf ++ record packet })

/-- `opus_stream_finalize`: hand the buffer to the caller, who destroys the
stream next. -/
def opusStreamFinalize (stream : OpusStream) : EspErr × List UInt8 := (.ok, stream.buf)

/-! ### What a call can do -/

/-- What a packet contributes to the buffer. -/
def contribution (packet : List UInt8) : List UInt8 :=
  if packet.length ≤ 2 then [] else record packet

theorem record_ne_nil (packet : List UInt8) : record packet ≠ [] := by
  simp [record]

theorem le_doubleUntil {target cap : Nat} (room : 0 < cap) : target ≤ doubleUntil target cap := by
  induction cap using doubleUntil.induct target with
  | case1 cap stop =>
      rw [doubleUntil, if_pos stop]
      omega
  | case2 cap go inductionHypothesis =>
      rw [doubleUntil, if_neg go]
      exact inductionHypothesis (by omega)

/-- Growing makes enough room or changes nothing. -/
theorem growBuf_cases (need : Nat) (reallocated : Bool) (stream : OpusStream) :
    (∃ cap, growBuf need reallocated stream = (.ok, { stream with bufCap := cap }) ∧
      (0 < stream.bufCap → stream.buf.length + need ≤ cap)) ∨
      growBuf need reallocated stream = (.noMem, stream) := by
  unfold growBuf
  split_ifs with fits granted
  · exact Or.inl ⟨stream.bufCap, rfl, fun _ => fits⟩
  · exact Or.inl ⟨_, rfl, le_doubleUntil⟩
  · exact Or.inr rfl

/-- What a call can come to. -/
inductive Encoded (frameSamples : Nat) (outcome : EncodeOutcome) (stream : OpusStream) :
    EspErr × OpusStream → Prop
  | mismatched (mismatch : frameSamples ≠ stream.frameSamples) :
      Encoded frameSamples outcome stream (.invalidArg, stream)
  | failed (result : outcome.packet = none) :
      Encoded frameSamples outcome stream (.fail, stream)
  | skipped {packet : List UInt8} (result : outcome.packet = some packet)
      (dtx : packet.length ≤ 2) : Encoded frameSamples outcome stream (.ok, stream)
  | full {packet : List UInt8} (result : outcome.packet = some packet)
      (long : ¬ packet.length ≤ 2) : Encoded frameSamples outcome stream (.noMem, stream)
  | stored {packet : List UInt8} {cap : Nat} (result : outcome.packet = some packet)
      (long : ¬ packet.length ≤ 2)
      (enough : 0 < stream.bufCap → stream.buf.length + (2 + packet.length) ≤ cap) :
      Encoded frameSamples outcome stream
        (.ok, { stream with buf := stream.buf ++ record packet, bufCap := cap })

theorem encodeFrame_encoded (frameSamples : Nat) (outcome : EncodeOutcome)
    (stream : OpusStream) :
    Encoded frameSamples outcome stream (opusStreamEncodeFrame frameSamples outcome stream) := by
  unfold opusStreamEncodeFrame
  by_cases mismatch : frameSamples ≠ stream.frameSamples
  · rw [if_pos mismatch]
    exact .mismatched mismatch
  rw [if_neg mismatch]
  cases result : outcome.packet with
  | none => exact .failed result
  | some packet =>
      dsimp only
      by_cases dtx : packet.length ≤ 2
      · rw [if_pos dtx]
        exact .skipped result dtx
      rw [if_neg dtx]
      rcases growBuf_cases (2 + packet.length) outcome.reallocated stream with
        ⟨cap, grew, enough⟩ | full
      · rw [grew]
        exact .stored result dtx enough
      · rw [full]
        exact .full result dtx

/-- A successful call appends what its packet contributes, nothing else. -/
theorem encodeFrame_of_ok {frameSamples : Nat} {outcome : EncodeOutcome}
    {stream next : OpusStream}
    (encoded : opusStreamEncodeFrame frameSamples outcome stream = (.ok, next)) :
    next.frameSamples = stream.frameSamples ∧
      ∃ packet, outcome.packet = some packet ∧ next.buf = stream.buf ++ contribution packet := by
  have came := encodeFrame_encoded frameSamples outcome stream
  rw [encoded] at came
  cases came with
  | skipped result dtx => exact ⟨rfl, _, result, by simp [contribution, dtx]⟩
  | stored result long _ => exact ⟨rfl, _, result, by simp [contribution, long]⟩

/-- A failed call leaves the stream alone; either the encoder failed or a packet
too long for the buffer met a failed reallocation. -/
theorem encodeFrame_of_failure {frameSamples : Nat} {outcome : EncodeOutcome}
    {stream next : OpusStream} {err : EspErr} (matching : frameSamples = stream.frameSamples)
    (encoded : opusStreamEncodeFrame frameSamples outcome stream = (err, next))
    (failed : err ≠ .ok) :
    next = stream ∧ ∀ packet, outcome.packet = some packet → 2 < packet.length := by
  have came := encodeFrame_encoded frameSamples outcome stream
  rw [encoded] at came
  cases came with
  | mismatched mismatch => exact absurd matching mismatch
  | failed result =>
      rw [result]
      exact ⟨rfl, fun _ other => nomatch other⟩
  | skipped | stored => exact absurd rfl failed
  | full result long =>
      rw [result]
      refine ⟨rfl, fun other same => ?_⟩
      rw [← Option.some.inj same]
      exact Nat.lt_of_not_le long

/-! ### Runs -/

/-- `MAX_PACKET`, the room `opus_encode` is given. -/
def maxPacket : Nat := 1500

/-- A call of `opus_stream_encode_frame`: its `frame_samples`, and what it meets. -/
structure EncodeCall where
  frameSamples : Nat
  outcome : EncodeOutcome
deriving DecidableEq, Repr

/-- Calls in sequence: what each of them returns, and the stream after the last. -/
def encodeFrames : List EncodeCall → OpusStream → List EspErr × OpusStream
  | [], stream => ([], stream)
  | call :: rest, stream =>
      let (err, next) := opusStreamEncodeFrame call.frameSamples call.outcome stream
      let (errs, last) := encodeFrames rest next
      (err :: errs, last)

/-- The packet a call leaves in the buffer: it returned `ESP_OK` and the packet is no
DTX frame. -/
def keptPacket (call : EncodeCall) (err : EspErr) : Option (List UInt8) :=
  match call.outcome.packet with
  | none => none
  | some packet => if err = .ok ∧ 2 < packet.length then some packet else none

def keptPackets (calls : List EncodeCall) (errs : List EspErr) : List (List UInt8) :=
  (calls.zip errs).filterMap fun made => keptPacket made.1 made.2

theorem length_record (packet : List UInt8) : (record packet).length = 2 + packet.length := by
  rw [record, List.length_cons, List.length_cons]
  omega

/-- What the buffer always satisfies: it has room, and never more used than it has. -/
structure OpusStream.Bounded (stream : OpusStream) : Prop where
  room : 0 < stream.bufCap
  used : stream.buf.length ≤ stream.bufCap

theorem bounded_create (sampleRate : Nat) : (opusStreamCreate sampleRate).Bounded where
  room := Nat.lt_of_sub_eq_succ rfl
  used := Nat.zero_le _

/-- A call that does not return `ESP_OK` leaves the stream as it was. -/
theorem encodeFrame_failed {stream : OpusStream} {call : EncodeCall}
    (failed : (opusStreamEncodeFrame call.frameSamples call.outcome stream).1 ≠ .ok) :
    (opusStreamEncodeFrame call.frameSamples call.outcome stream).2 = stream := by
  have came := encodeFrame_encoded call.frameSamples call.outcome stream
  revert failed
  generalize opusStreamEncodeFrame call.frameSamples call.outcome stream = made at came
  intro failed
  cases came with
  | mismatched | failed | full => rfl
  | skipped | stored => exact absurd rfl failed

/-- The buffer stays bounded whatever a call meets. -/
theorem bounded_encodeFrame {stream : OpusStream} (bounded : stream.Bounded) (call : EncodeCall) :
    (opusStreamEncodeFrame call.frameSamples call.outcome stream).2.Bounded := by
  have came := encodeFrame_encoded call.frameSamples call.outcome stream
  generalize opusStreamEncodeFrame call.frameSamples call.outcome stream = made at came
  cases came with
  | mismatched | failed | full | skipped => exact bounded
  | stored _ _ enough =>
      have used := enough bounded.room
      constructor
      · exact Nat.lt_of_lt_of_le (by omega) used
      · rw [List.length_append, length_record]
        exact used

/-- A call appends the record of the packet it keeps, if it keeps one. -/
theorem encodeFrame_buf (stream : OpusStream) (call : EncodeCall) :
    (opusStreamEncodeFrame call.frameSamples call.outcome stream).2.buf =
      stream.buf ++ framing (keptPacket call
        (opusStreamEncodeFrame call.frameSamples call.outcome stream).1).toList := by
  cases ran : opusStreamEncodeFrame call.frameSamples call.outcome stream with
  | mk err next =>
      by_cases succeeded : err = .ok
      · subst succeeded
        obtain ⟨-, packet, result, appended⟩ := encodeFrame_of_ok ran
        rw [appended, contribution]
        by_cases dtx : packet.length ≤ 2
        · have dropped : keptPacket call .ok = none := by
            rw [keptPacket, result]
            exact if_neg fun kept => by omega
          rw [if_pos dtx, dropped]
          rfl
        · have kept : keptPacket call .ok = some packet := by
            rw [keptPacket, result]
            exact if_pos ⟨rfl, by omega⟩
          rw [if_neg dtx, kept]
          exact congrArg (stream.buf ++ ·) (List.append_nil (record packet)).symm
      · have same := @encodeFrame_failed stream call (by rwa [ran])
        have dropped : keptPacket call err = none := by
          rw [keptPacket]
          cases call.outcome.packet with
          | none => rfl
          | some packet => exact if_neg fun kept => succeeded kept.1
        rw [ran] at same
        rw [same, dropped]
        exact (List.append_nil stream.buf).symm

/-- The buffer is the framing of the packets kept, behind what it held before. -/
theorem encodeFrames_spec {stream : OpusStream} (bounded : stream.Bounded)
    (calls : List EncodeCall) :
    (encodeFrames calls stream).2.Bounded ∧
      (encodeFrames calls stream).2.buf =
        stream.buf ++ framing (keptPackets calls (encodeFrames calls stream).1) := by
  induction calls generalizing stream with
  | nil => exact ⟨bounded, by simp [encodeFrames, keptPackets, framing]⟩
  | cons call rest inductionHypothesis =>
      have later := inductionHypothesis (bounded_encodeFrame bounded call)
      constructor
      · exact later.1
      · dsimp only [encodeFrames]
        rw [later.2, encodeFrame_buf, keptPackets, keptPackets, List.zip_cons_cons,
          List.filterMap_cons, List.append_assoc]
        cases keptPacket call (opusStreamEncodeFrame call.frameSamples call.outcome stream).1 with
        | none => rfl
        | some packet => simp [framing]

end WallUnit.Firmware.Opus
