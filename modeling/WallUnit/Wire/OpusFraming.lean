import WallUnit.Firmware.OpusStream
import WallUnit.Server.OpusDecode

/-!
Owns the agreement between the two ends of an Opus upload: what
`opus_stream_encode_frame` accumulates is read back by `_decode_dwu_opus`, through
every failure of a call and wherever the body is cut.

Does not own what the packets mean.
-/

namespace WallUnit.Wire.OpusFraming

open WallUnit.Foundations
open WallUnit.Firmware
open WallUnit.Firmware.Opus
open WallUnit.Server.OpusDecode

/-- `packet` is what `opus_encode` may return and the writer frames. -/
structure Framed (packet : List UInt8) : Prop where
  long : 2 < packet.length
  short : packet.length ≤ maxPacket

/-- The two length bytes of a record add up again. -/
theorem length_of_bytes {length : Nat} (small : length < 65536) :
    (UInt8.ofNat (length &&& 0xFF)).toNat +
      256 * (UInt8.ofNat ((length >>> 8) &&& 0xFF)).toNat = length := by
  have low : length &&& 0xFF = length % 256 := Nat.and_two_pow_sub_one_eq_mod length 8
  have high : (length >>> 8) &&& 0xFF = length / 256 % 256 := by
    rw [Nat.shiftRight_eq_div_pow]
    exact Nat.and_two_pow_sub_one_eq_mod (length / 256) 8
  rw [low, high, UInt8.toNat_ofNat', UInt8.toNat_ofNat']
  omega

/-- A record is read back whole. -/
theorem next_record {packet : List UInt8} (framed : Framed packet) :
    packetScanner.next (record packet) = some ((record packet).length, [packet]) := by
  have short := framed.short
  have small : packet.length < 65536 := Nat.lt_of_le_of_lt short (by decide)
  have nonempty : packet ≠ [] := List.ne_nil_of_length_pos (by have := framed.long; omega)
  have read := nextPacket_packet [] (length_of_bytes small).symm nonempty
  rw [List.append_nil] at read
  rw [length_record]
  exact read

/-- No proper part of a record is read. -/
theorem next_record_take {packet : List UInt8} (framed : Framed packet) {cut : Nat}
    (inside : cut < (record packet).length) :
    packetScanner.next ((record packet).take cut) = none := by
  have small : packet.length < 65536 := Nat.lt_of_le_of_lt framed.short (by decide)
  rw [length_record] at inside
  cases read : packetScanner.next ((record packet).take cut) with
  | none => rfl
  | some found =>
      obtain ⟨low, high, part, rest, same, length, -, -⟩ := nextPacket_cases read
      rw [record] at same
      have header : 2 ≤ cut := by
        have fits := congrArg List.length same
        simp only [List.length_take, List.length_cons] at fits
        omega
      obtain ⟨behind, rfl⟩ := Nat.exists_eq_add_of_le' header
      rw [List.take_succ_cons, List.take_succ_cons] at same
      injection same with sameLow same
      injection same with sameHigh same
      have fits := congrArg List.length same
      rw [← sameLow, ← sameHigh, length_of_bytes small] at length
      rw [List.length_take, List.length_append] at fits
      omega

/-- Reading back a framing that was cut: the packets whose records are whole. -/
theorem scan_framing_take {packets : List (List UInt8)}
    (framed : ∀ packet ∈ packets, Framed packet) (cut : Nat) :
    (packetScanner.scan ((framing packets).take cut)).1 =
      packets.take (Scanner.wholeRecords record cut packets) :=
  packetScanner.scan_take_records (fun packet member => next_record (framed packet member))
    (fun packet member _ inside => next_record_take (framed packet member) inside) cut

/-- What the encoder is promised to return fits its room. -/
def Sized (calls : List EncodeCall) : Prop :=
  ∀ call ∈ calls, ∀ packet, call.outcome.packet = some packet → packet.length ≤ maxPacket

theorem framed_of_kept {calls : List EncodeCall} (sized : Sized calls) {errs : List EspErr} :
    ∀ packet ∈ keptPackets calls errs, Framed packet := by
  intro packet kept
  obtain ⟨⟨call, err⟩, made, found⟩ := List.mem_filterMap.mp kept
  have member := (List.of_mem_zip made).1
  cases result : call.outcome.packet with
  | none =>
      simp only [keptPacket, result] at found
      contradiction
  | some returned =>
      simp only [keptPacket, result, Option.ite_none_right_eq_some, Option.some.injEq] at found
      obtain ⟨⟨-, long⟩, rfl⟩ := found
      exact ⟨long, sized call member returned result⟩

/-- What the writer hands over is the framing of the packets it kept, within its buffer; a
call that fails changes nothing; and the reader, given any first part of it, decodes
the packets whose records that part holds whole. -/
theorem decode_of_encoded {sampleRate : Nat} {calls : List EncodeCall} {errs : List EspErr}
    {stream : OpusStream} (sized : Sized calls)
    (encoded : encodeFrames calls (opusStreamCreate sampleRate) = (errs, stream)) :
    (opusStreamFinalize stream).2 = framing (keptPackets calls errs) ∧
    stream.buf.length ≤ stream.bufCap ∧
    (∀ call : EncodeCall,
      (opusStreamEncodeFrame call.frameSamples call.outcome stream).1 ≠ .ok →
        (opusStreamEncodeFrame call.frameSamples call.outcome stream).2 = stream) ∧
    ∀ cut : Nat, ∃ count, Scanner.LongestWhole record (keptPackets calls errs) cut count ∧
      ((opusStreamFinalize stream).2.length ≤ cut → count = (keptPackets calls errs).length) ∧
      ∀ (library : Opuslib) (rate channels frameMs : Int),
        decodeDwuOpus library ((opusStreamFinalize stream).2.take cut) rate channels frameMs =
          decodePackets library ((keptPackets calls errs).take count) rate channels frameMs := by
  obtain ⟨bounded, buffer⟩ := encodeFrames_spec (bounded_create sampleRate) calls
  rw [encoded, opusStreamCreate, List.nil_append] at buffer
  rw [encoded] at bounded
  have body : (opusStreamFinalize stream).2 = framing (keptPackets calls errs) := buffer
  refine ⟨body, bounded.used, fun call failed => encodeFrame_failed failed, ?_⟩
  intro cut
  have longest := Scanner.longestWhole_wholeRecords record (keptPackets calls errs) cut
  refine ⟨_, longest, ?_, ?_⟩
  · intro uncut
    rw [body] at uncut
    exact longest.eq_length uncut
  · intro library rate channels frameMs
    rw [body, decodeDwuOpus_eq, scan_framing_take (framed_of_kept sized)]

/-- A packet, a DTX frame, an encoder error, and a packet that is cut in its length. -/
def sampleCalls : List EncodeCall :=
  [⟨320, some [1, 2, 3], true⟩, ⟨320, some [9], true⟩, ⟨320, none, true⟩,
    ⟨320, some [4, 5, 6, 7], true⟩]

theorem decode_of_sampleCalls :
    framing [[1, 2, 3], [4, 5, 6, 7]] = [3, 0, 1, 2, 3, 4, 0, 4, 5, 6, 7] ∧
    ∀ (library : Opuslib) (rate channels frameMs : Int),
      decodeDwuOpus library [3, 0, 1, 2, 3, 4] rate channels frameMs =
        decodePackets library [[1, 2, 3]] rate channels frameMs := by
  have sized : Sized sampleCalls := by
    intro call member packet result
    simp only [sampleCalls, List.mem_cons, List.not_mem_nil, or_false] at member
    rcases member with rfl | rfl | rfl | rfl <;> cases result <;> decide
  obtain ⟨-, -, -, cuts⟩ := @decode_of_encoded 16000 sampleCalls [.ok, .ok, .fail, .ok]
    ⟨320, [3, 0, 1, 2, 3, 4, 0, 4, 5, 6, 7], 8192⟩ sized rfl
  obtain ⟨count, longest, -, read⟩ := cuts 6
  have one : count = 1 := by
    apply Nat.le_antisymm
    · by_contra more
      have two : count = 2 := Nat.le_antisymm longest.within (Nat.lt_of_not_le more)
      subst two
      exact absurd longest.whole (by decide)
    · exact longest.longest 1 (by decide) (by decide)
  subst one
  exact ⟨rfl, read⟩

end WallUnit.Wire.OpusFraming
