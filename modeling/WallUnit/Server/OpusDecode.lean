import WallUnit.Firmware.WavUtil
import WallUnit.Foundations.Scanner
import WallUnit.Server.PendingResults

/-!
Owns `_decode_dwu_opus`: the loop over length-prefixed packets, and the WAV around
what they decode to. `packetScanner` is the wire format as a reading rule, and
`decodeLoop_eq` says that the loop decodes exactly the packets this rule finds.

Does not own the decoder of `opuslib`, which is a parameter.
-/

namespace WallUnit.Server.OpusDecode

open WallUnit.Foundations
open WallUnit.Firmware.Wav (littleEndian ascii)

/-- What `_decode_dwu_opus` raises: its own error, one of `opuslib`, or one of `wave`. -/
inductive DecodeError where
  | runtimeError (message : String)
  | opuslib (message : String)
  | wave
deriving DecidableEq, Repr

/-- `opuslib`, if it is installed. A decoder is stateful: `decode` takes it to the next. -/
structure Opuslib where
  Decoder : Type
  installed : Bool
  decoder : Int → Int → Except String Decoder
  decode : Decoder → List UInt8 → Int → Except String (Decoder × List UInt8)

/-- `struct.unpack_from("<H", body, p)[0]`. -/
def unpackFromH (body : List UInt8) (p : Nat) : Nat :=
  (body.getD p 0).toNat + 256 * (body.getD (p + 1) 0).toNat

/-- The loop of `_decode_dwu_opus` at position `p`. -/
def decodeLoop (library : Opuslib) (body : List UInt8) (frameSamples : Int)
    (decoder : library.Decoder) (pcmChunks : List (List UInt8)) (p : Nat) :
    Except DecodeError (List (List UInt8)) :=
  if p + 2 ≤ body.length then
    let plen := unpackFromH body p
    if plen = 0 ∨ body.length < p + 2 + plen then .ok pcmChunks
    else
      match library.decode decoder ((body.drop (p + 2)).take plen) frameSamples with
      | .error message => .error (.opuslib message)
      | .ok (next, pcm) =>
          decodeLoop library body frameSamples next (pcmChunks ++ [pcm]) (p + 2 + plen)
  else .ok pcmChunks
termination_by body.length - p

/-- `_wrap_wav`. `wave` refuses a rate or a channel count below one, and raises when a
field of the header overflows. -/
def wrapWav (pcm : List UInt8) (sampleRate channels : Int) : Except DecodeError (List UInt8) :=
  let rate := sampleRate.toNat
  let width := channels.toNat * 2
  if channels < 1 ∨ sampleRate ≤ 0 ∨ 65536 ≤ width ∨ 4294967296 ≤ rate * width ∨
      4294967296 ≤ 36 + pcm.length then .error .wave
  else
    .ok (ascii "RIFF" ++ littleEndian 4 (36 + pcm.length) ++ ascii "WAVE" ++
      ascii "fmt " ++ littleEndian 4 16 ++ littleEndian 2 1 ++ littleEndian 2 channels.toNat ++
      littleEndian 4 rate ++ littleEndian 4 (rate * width) ++ littleEndian 2 width ++
      littleEndian 2 16 ++ ascii "data" ++ littleEndian 4 pcm.length ++ pcm)

/-- With its default of one channel it is the container of a pending result. -/
theorem wrapWav_one (pcm : List UInt8) (sampleRate : Nat) :
    wrapWav pcm sampleRate 1 = (Pending.wrapWav pcm sampleRate).elim (.error .wave) .ok := by
  have refused : ((1 : Int) < 1 ∨ (sampleRate : Int) ≤ 0 ∨ 65536 ≤ (1 : Int).toNat * 2 ∨
      4294967296 ≤ (sampleRate : Int).toNat * ((1 : Int).toNat * 2) ∨
      4294967296 ≤ 36 + pcm.length) ↔
      (sampleRate = 0 ∨ 4294967296 ≤ sampleRate * 2 ∨ 4294967296 ≤ 36 + pcm.length) := by
    simp only [Int.toNat_natCast, Int.toNat_one, Nat.one_mul]
    omega
  rw [wrapWav, Pending.wrapWav]
  by_cases bad : sampleRate = 0 ∨ 4294967296 ≤ sampleRate * 2 ∨ 4294967296 ≤ 36 + pcm.length
  · rw [if_pos bad]
    exact if_pos (refused.mpr bad)
  · rw [if_neg bad]
    exact if_neg fun other => bad (refused.mp other)

/-- What `_decode_dwu_opus` does around its loop. -/
def decodeWith (library : Opuslib) (sampleRate channels frameMs : Int)
    (loop : Int → library.Decoder → Except DecodeError (List (List UInt8))) :
    Except DecodeError (List UInt8) :=
  if library.installed then
    match library.decoder sampleRate channels with
    | .error message => .error (.opuslib message)
    | .ok decoder =>
        match loop (sampleRate * frameMs / 1000) decoder with
        | .error raised => .error raised
        | .ok pcmChunks => wrapWav pcmChunks.flatten sampleRate channels
  else .error (.runtimeError "opuslib not installed — pip install opuslib")

/-- `_decode_dwu_opus`. -/
def decodeDwuOpus (library : Opuslib) (body : List UInt8) (sampleRate channels frameMs : Int) :
    Except DecodeError (List UInt8) :=
  decodeWith library sampleRate channels frameMs fun frameSamples decoder =>
    decodeLoop library body frameSamples decoder [] 0

/-! ### The packets it reads -/

/-- Packets handed to the decoder one after the other. -/
def decodeEach (library : Opuslib) (frameSamples : Int) :
    library.Decoder → List (List UInt8) → List (List UInt8) →
      Except DecodeError (List (List UInt8))
  | _, pcmChunks, [] => .ok pcmChunks
  | decoder, pcmChunks, packet :: rest =>
      match library.decode decoder packet frameSamples with
      | .error message => .error (.opuslib message)
      | .ok (next, pcm) => decodeEach library frameSamples next (pcmChunks ++ [pcm]) rest

/-- The WAV of a sequence of packets. -/
def decodePackets (library : Opuslib) (packets : List (List UInt8))
    (sampleRate channels frameMs : Int) : Except DecodeError (List UInt8) :=
  decodeWith library sampleRate channels frameMs fun frameSamples decoder =>
    decodeEach library frameSamples decoder [] packets

/-- A length, least significant byte first, and that many bytes. A length of zero is
never got past. -/
def nextPacket : List UInt8 → Option (Nat × List (List UInt8))
  | low :: high :: rest =>
      let plen := low.toNat + 256 * high.toNat
      if plen = 0 ∨ rest.length < plen then none else some (2 + plen, [rest.take plen])
  | _ => none

/-- A packet behind its length is read, whatever follows. -/
theorem nextPacket_packet {low high : UInt8} {packet : List UInt8} (rest : List UInt8)
    (length : packet.length = low.toNat + 256 * high.toNat) (nonempty : packet ≠ []) :
    nextPacket (low :: high :: (packet ++ rest)) = some (2 + packet.length, [packet]) := by
  have positive := List.length_pos_iff.mpr nonempty
  have goes : ¬ (packet.length = 0 ∨ (packet ++ rest).length < packet.length) := by
    rw [List.length_append]
    omega
  simp only [nextPacket, ← length, if_neg goes, List.take_left]

theorem nextPacket_cases {input : List UInt8} {found : Nat × List (List UInt8)}
    (read : nextPacket input = some found) :
    ∃ low high packet rest, input = low :: high :: (packet ++ rest) ∧
      packet.length = low.toNat + 256 * high.toNat ∧ packet ≠ [] ∧
      found = (2 + packet.length, [packet]) := by
  unfold nextPacket at read
  split at read
  · rename_i low high rest
    by_cases stops : low.toNat + 256 * high.toNat = 0 ∨
        rest.length < low.toNat + 256 * high.toNat
    · rw [if_pos stops] at read
      contradiction
    · rw [if_neg stops] at read
      rw [not_or, Nat.not_lt] at stops
      have length := List.length_take_of_le stops.2
      refine ⟨low, high, rest.take (low.toNat + 256 * high.toNat),
        rest.drop (low.toNat + 256 * high.toNat), ?_, length, ?_, ?_⟩
      · rw [List.take_append_drop]
      · apply List.ne_nil_of_length_pos
        omega
      · rw [length]
        exact (Option.some.inj read).symm
  · contradiction

/-- The wire format as a rule on what is still to be read. -/
def packetScanner : Scanner UInt8 (List UInt8) where
  next := nextPacket
  progress := by
    intro input count values read
    obtain ⟨low, high, packet, rest, rfl, -, -, same⟩ := nextPacket_cases read
    cases same
    simp only [List.length_cons, List.length_append]
    omega
  stable := by
    intro input found more read
    obtain ⟨low, high, packet, rest, rfl, length, nonempty, rfl⟩ := nextPacket_cases read
    rw [List.cons_append, List.cons_append, List.append_assoc]
    exact nextPacket_packet (rest ++ more) length nonempty

/-- What the loop looks at from `p` is what the rule sees of the rest of the body. -/
theorem nextPacket_drop (body : List UInt8) (p : Nat) :
    nextPacket (body.drop p) =
      if p + 2 ≤ body.length then
        if unpackFromH body p = 0 ∨ body.length < p + 2 + unpackFromH body p then none
        else some (2 + unpackFromH body p, [(body.drop (p + 2)).take (unpackFromH body p)])
      else none := by
  by_cases header : p + 2 ≤ body.length
  · have first : p < body.length := by omega
    have second : p + 1 < body.length := by omega
    rw [if_pos header, List.drop_eq_getElem_cons first, List.drop_eq_getElem_cons second]
    have plen : unpackFromH body p = body[p].toNat + 256 * body[p + 1].toNat := by
      rw [unpackFromH, List.getD_eq_getElem body 0 first, List.getD_eq_getElem body 0 second]
    have outside : (body.drop (p + 2)).length < unpackFromH body p ↔
        body.length < p + 2 + unpackFromH body p := by
      rw [List.length_drop]
      omega
    simp only [nextPacket, ← plen, ← outside]
  · rw [if_neg header]
    cases read : nextPacket (body.drop p) with
    | none => rfl
    | some found =>
        obtain ⟨low, high, packet, rest, same, -⟩ := nextPacket_cases read
        have length := congrArg List.length same
        simp only [List.length_drop, List.length_cons] at length
        omega

/-- The loop hands the decoder the packets the rule finds. -/
theorem decodeLoop_eq (library : Opuslib) (body : List UInt8) (frameSamples : Int)
    (decoder : library.Decoder) (pcmChunks : List (List UInt8)) (p : Nat) :
    decodeLoop library body frameSamples decoder pcmChunks p =
      decodeEach library frameSamples decoder pcmChunks
        (packetScanner.scan (body.drop p)).1 := by
  have seen := nextPacket_drop body p
  rw [decodeLoop]
  by_cases header : p + 2 ≤ body.length
  · rw [if_pos header] at seen ⊢
    by_cases stops : unpackFromH body p = 0 ∨ body.length < p + 2 + unpackFromH body p
    · rw [if_pos stops] at seen
      simp only [if_pos stops, packetScanner.scan_of_none seen, decodeEach]
    · rw [if_neg stops] at seen
      simp only [if_neg stops, packetScanner.scan_of_some seen, List.singleton_append, decodeEach,
        List.drop_drop, ← Nat.add_assoc]
      cases decoded : library.decode decoder
          ((body.drop (p + 2)).take (unpackFromH body p)) frameSamples with
      | error message => rfl
      | ok result => exact decodeLoop_eq library body frameSamples result.1 _ _
  · rw [if_neg header] at seen ⊢
    rw [packetScanner.scan_of_none seen, decodeEach]
termination_by body.length - p

/-- The body is decoded as the packets the rule finds in it. -/
theorem decodeDwuOpus_eq (library : Opuslib) (body : List UInt8)
    (sampleRate channels frameMs : Int) :
    decodeDwuOpus library body sampleRate channels frameMs =
      decodePackets library (packetScanner.scan body).1 sampleRate channels frameMs := by
  unfold decodeDwuOpus decodePackets
  congr 1
  funext frameSamples decoder
  rw [decodeLoop_eq, List.drop_zero]

end WallUnit.Server.OpusDecode
