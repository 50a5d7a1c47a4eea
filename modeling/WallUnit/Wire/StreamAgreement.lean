import Mathlib.Data.List.Forall2
import WallUnit.Firmware.WsClient.Events
import WallUnit.Server.Streaming

/-!
Owns the agreement between the two ends of a streamed reply: what
`_stream_synthesis_to_ws` sends is what the unit's TTS handler is called with,
through any fragmentation and within both of the unit's buffers.

Does not own the loss of a connection on either side.
-/

namespace WallUnit.Wire.StreamAgreement

open WallUnit.Foundations
open WallUnit.Server.Streaming
open WallUnit.Firmware
open WallUnit.Firmware.WsClient

/-- How cJSON presents a field. -/
def decodeField : JsonField → JsonItem
  | .text value => .string value
  | .number value => .number value

def decodeObject (object : JsonObject) : JsonRoot :=
  object.map fun member => (member.1, decodeField member.2)

/-- The TTS handler is called with these events. -/
def handlerCalls (events : List TtsEvent) : List Output := events.map Output.ttsHandler

/-- JSON decoding inverts the encoding of `frame`. -/
def Parses (library : Library) (frame : JsonObject) : Prop :=
  library.parse (frameBytes frame) = some (decodeObject frame)

/-- Base64 decoding inverts the encoding of whatever fits its buffer. -/
def Decodes (library : Library) : Prop :=
  ∀ (size : Nat) (pcm : List UInt8), pcm.length ≤ size →
    library.base64Decode size (base64Encode pcm) = some pcm

section

variable {library : Library} {session : Session} {requestId : CString}

theorem handle_ttsStartFrame {sampleRate : Nat} (expects : session.Expects requestId)
    (nonempty : requestId ≠ []) (parses : Parses library (ttsStartFrame requestId sampleRate)) :
    handleServerEvent library (frameBytes (ttsStartFrame requestId sampleRate)) session =
      (session, [.ttsHandler (.start requestId sampleRate 1)]) := by
  rw [handleServerEvent_of_expected expects nonempty parses rfl rfl (Or.inl rfl),
    handleTtsEvent_start expects]
  rfl

theorem handle_ttsChunkFrame {seq : Nat} {pcm : List UInt8} (expects : session.Expects requestId)
    (nonempty : requestId ≠ []) (parses : Parses library (ttsChunkFrame requestId seq pcm))
    (decodes : Decodes library) (fits : pcm.length ≤ ttsDecodeBufBytes) :
    handleServerEvent library (frameBytes (ttsChunkFrame requestId seq pcm)) session =
      (session, [.ttsHandler (.chunk requestId pcm seq)]) := by
  rw [handleServerEvent_of_expected expects nonempty parses rfl rfl (Or.inr (Or.inl rfl)),
    handleTtsEvent_chunk expects rfl (decodes _ _ fits)]
  rfl

theorem handle_ttsEndFrame {totalSeq : Nat} (expects : session.Expects requestId)
    (nonempty : requestId ≠ []) (parses : Parses library (ttsEndFrame requestId totalSeq)) :
    handleServerEvent library (frameBytes (ttsEndFrame requestId totalSeq)) session =
      ({ session with ttsEnd := true }, [.ttsHandler (.finish requestId totalSeq)]) := by
  rw [handleServerEvent_of_expected expects nonempty parses rfl rfl (Or.inr (Or.inr rfl)),
    handleTtsEvent_end expects]
  rfl

/-- The chunk frames of a reply, wherever its numbering stands. -/
theorem handle_chunkFrames {first : Nat} {chunks : List (List UInt8)}
    (expects : session.Expects requestId) (nonempty : requestId ≠ [])
    (parses : ∀ frame ∈ chunkFrames requestId first chunks, Parses library frame)
    (decodes : Decodes library) (fits : ∀ chunk ∈ chunks, chunk.length ≤ ttsDecodeBufBytes) :
    handleReceptions library session
        ((chunkFrames requestId first chunks).map fun frame => .frame (frameBytes frame)) =
      (session, handlerCalls (chunkEvents requestId first chunks)) := by
  induction chunks generalizing first with
  | nil => rfl
  | cons chunk rest inductionHypothesis =>
      rw [chunkFrames, List.forall_mem_cons] at parses
      rw [List.forall_mem_cons] at fits
      have head := handle_ttsChunkFrame expects nonempty parses.1 decodes fits.1
      have tail := inductionHypothesis parses.2 fits.2
      rw [chunkFrames, List.map_cons, handleReceptions, handleReception, head]
      dsimp only
      rw [tail]
      rfl

/-- All frames of a reply: the end also sets the bit the turn waits for. -/
theorem handle_streamFrames {sampleRate : Nat} {chunks : List (List UInt8)}
    (expects : session.Expects requestId) (nonempty : requestId ≠ [])
    (parses : ∀ frame ∈ ttsStartFrame requestId sampleRate :: chunkFrames requestId 0 chunks ++
      [ttsEndFrame requestId chunks.length], Parses library frame)
    (decodes : Decodes library) (fits : ∀ chunk ∈ chunks, chunk.length ≤ ttsDecodeBufBytes) :
    handleReceptions library session
        ((ttsStartFrame requestId sampleRate :: chunkFrames requestId 0 chunks ++
          [ttsEndFrame requestId chunks.length]).map fun frame => .frame (frameBytes frame)) =
      ({ session with ttsEnd := true },
        handlerCalls (streamEvents requestId sampleRate chunks)) := by
  rw [List.cons_append, List.forall_mem_cons, List.forall_mem_append, List.forall_mem_singleton]
    at parses
  have start := handle_ttsStartFrame expects nonempty parses.1
  have middle := handle_chunkFrames expects nonempty parses.2.1 decodes fits
  have finish := handle_ttsEndFrame expects nonempty parses.2.2
  rw [List.cons_append, List.map_cons, handleReceptions, handleReception, start]
  dsimp only
  rw [List.map_append, handleReceptions_append, middle]
  rw [List.map_singleton, handleReceptions, handleReception, finish]
  simp [handleReceptions, handlerCalls, streamEvents]

end

/-- Whatever sentences the server streams with no send failing, and however the transport
cuts the frames, the handler of the unit that expects the request is called with the start,
with chunks numbered from zero that make up exactly the sentences, and with the end, and
nothing is dropped on the way. -/
theorem handlerCalls_of_sentStream {library : Library} {requestId : RequestId} {voice : Voice}
    {link : Nat → SendOutcome} {sentences : List (List UInt8)} {state : WsState}
    {deliveries : List (List DataEvent)}
    (sends : ∀ look, link look = .sent)
    (few : (subChunks sentences).length < 2 ^ 31)
    (expects : state.session.Expects (strncpyTerminated expectIdBytes requestId.text))
    (parses : ∀ frame ∈ (streamSynthesisToWs requestId.text voice link sentences).sent,
      Parses library frame)
    (decodes : Decodes library)
    (carried : List.Forall₂ Carries
      ((streamSynthesisToWs requestId.text voice link sentences).sent.map frameBytes)
      deliveries) :
    ∃ chunks : List (List UInt8), chunks.flatten = sentences.flatten ∧
      (handleWsEvents library state (deliveries.flatten.map .data)).2 =
        handlerCalls (streamEvents requestId.text voice.sampleRate chunks) := by
  have nonempty : requestId.text ≠ [] := by
    intro empty
    have twelve := requestId.twelve
    rw [empty] at twelve
    contradiction
  have stored : strncpyTerminated expectIdBytes requestId.text = requestId.text := by
    apply strncpyTerminated_of_fits
    rw [requestId.twelve]
    decide
  have framesFit : ∀ bytes ∈
      (streamSynthesisToWs requestId.text voice link sentences).sent.map frameBytes,
      0 < bytes.length ∧ bytes.length ≤ rxAssemblyBytes := by
    intro bytes member
    obtain ⟨frame, inside, rfl⟩ := List.mem_map.mp member
    have short := length_ttsFrame (ttsFrame_of_mem_sent sends few inside)
    exact ⟨length_frameBytes_pos frame, short.trans (by decide)⟩
  have chunksFit : ∀ chunk ∈ subChunks sentences, chunk.length ≤ ttsDecodeBufBytes :=
    fun chunk member => (length_of_mem_subChunks member).trans (by decide)
  rw [stored] at expects
  rw [sent_streamSynthesisToWs sends] at parses
  refine ⟨subChunks sentences, flatten_subChunks sentences, ?_⟩
  rw [handleWsEvents_data, receive_of_forall₂_carries carried framesFit, List.map_map,
    sent_streamSynthesisToWs sends]
  exact congrArg Prod.snd (handle_streamFrames expects nonempty parses decodes chunksFit)

/-! ### One reply, with every frame cut in two -/

/-- A frame cut at `count` bytes, with a ping in between. -/
def cutDelivery (count : Nat) (bytes : List UInt8) : List DataEvent :=
  [⟨1, 0, bytes.length, bytes.take count⟩, ⟨9, 0, 0, []⟩,
    ⟨0, (bytes.take count).length, bytes.length, bytes.drop count⟩]

theorem carries_cutDelivery (count : Nat) (bytes : List UInt8) :
    Carries bytes (cutDelivery count bytes) := by
  refine ⟨[⟨1, Or.inl rfl, bytes.take count⟩, ⟨0, Or.inr rfl, bytes.drop count⟩], ?_, ?_⟩
  · simp
  · simp [cutDelivery, DataEvent.isText, fragmentEvents]

def sampleId : RequestId where
  text := "0123456789ab".toList
  twelve := by decide
  hex := List.all_iff_forall_prop.mp (by decide)

def sampleVoice : Voice := ⟨22050, by decide⟩

/-- An empty sentence and a short one. -/
def sampleSentences : List (List UInt8) := [[], [1, 2, 3, 4]]

def sampleFrames : List JsonObject :=
  [ttsStartFrame sampleId.text 22050, ttsChunkFrame sampleId.text 0 [1, 2, 3, 4],
    ttsEndFrame sampleId.text 1]

/-- The library on the sample's frames. -/
def sampleLibrary : Library where
  parse bytes := (sampleFrames.find? fun frame => frameBytes frame = bytes).map decodeObject
  base64Decode size source := (base64Decode source).filter fun pcm => pcm.length ≤ size

/-- A session that expects the sample's reply. -/
def sampleState : WsState where
  assembly := .empty
  session := ⟨true, false, false, [], sampleId.text, true⟩

theorem subChunks_sample : subChunks sampleSentences = [[1, 2, 3, 4]] := by
  have only := @pieces_of_ne_nil UInt8 ttsChunkBytes [1, 2, 3, 4] (by decide) (by decide)
  simpa [subChunks, sampleSentences, ttsChunkBytes, ttsChunkSamples] using only

theorem sent_sample :
    (streamSynthesisToWs sampleId.text sampleVoice (fun _ => .sent) sampleSentences).sent =
      sampleFrames := by
  rw [sent_streamSynthesisToWs (fun _ => rfl), subChunks_sample]
  rfl

theorem handlerCalls_of_sample :
    ∃ chunks : List (List UInt8), chunks.flatten = sampleSentences.flatten ∧
      (handleWsEvents sampleLibrary sampleState
        ((((streamSynthesisToWs sampleId.text sampleVoice (fun _ => .sent) sampleSentences).sent.map
          frameBytes).map (cutDelivery 7)).flatten.map .data)).2 =
        handlerCalls (streamEvents sampleId.text sampleVoice.sampleRate chunks) := by
  have few : (subChunks sampleSentences).length < 2 ^ 31 := by
    rw [subChunks_sample]
    decide
  have parses : ∀ frame ∈ sampleFrames,
      sampleLibrary.parse (frameBytes frame) = some (decodeObject frame) := by
    decide +kernel
  apply handlerCalls_of_sentStream (fun _ => rfl) few ⟨rfl, rfl⟩
  · rw [sent_sample]
    exact parses
  · intro size pcm fits
    simp [sampleLibrary, base64Decode_encode, fits]
  · rw [List.forall₂_map_right_iff, List.forall₂_same]
    exact fun bytes _ => carries_cutDelivery 7 bytes

end WallUnit.Wire.StreamAgreement
