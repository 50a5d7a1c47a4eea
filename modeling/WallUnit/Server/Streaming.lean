import Mathlib.Data.Bool.AllAny
import Mathlib.Data.List.TakeDrop
import Mathlib.Data.Nat.Digits.Defs
import WallUnit.Foundations.Bytes

/-!
Owns `_stream_synthesis_to_ws` of `voice_server.py`: the sentence loop, its
sub-chunks, the JSON frames it sends and what it returns. Whether the WebSocket
is closed or a send fails is an input for each frame, in the order the code looks.

Does not own the synthesizer, which is a list of sentences, nor the registry that
picks the WebSocket.
-/

namespace WallUnit.Server.Streaming

open WallUnit.Foundations

/-- `TTS_CHUNK_SAMPLES` and `TTS_CHUNK_BYTES`. -/
def ttsChunkSamples : Nat := 640

def ttsChunkBytes : Nat := ttsChunkSamples * 2

/-! ### JSON text -/

def quote : Char := Char.ofNat 34

def backslash : Char := Char.ofNat 92

/-- Four lower-case hexadecimal digits. -/
def hex4 (code : Nat) : List Char :=
  [code / 4096 % 16, code / 256 % 16, code / 16 % 16, code % 16].map Nat.digitChar

/-- One character inside a string of `json.dumps`, which keeps printable ASCII. -/
def escapeChar (char : Char) : List Char :=
  let code := char.toNat
  if char = quote ∨ char = backslash then [backslash, char]
  else if 32 ≤ code ∧ code ≤ 126 then [char]
  else if code = 10 then [backslash, 'n']
  else if code = 13 then [backslash, 'r']
  else if code = 9 then [backslash, 't']
  else if code = 12 then [backslash, 'f']
  else if code = 8 then [backslash, 'b']
  else if code < 65536 then backslash :: 'u' :: hex4 code
  else
    let offset := code - 65536
    backslash :: 'u' :: hex4 (55296 + offset / 1024) ++
      backslash :: 'u' :: hex4 (56320 + offset % 1024)

inductive JsonField where
  | text (value : List Char)
  | number (value : Nat)
deriving DecidableEq, Repr

/-- A flat object, its keys in insertion order. -/
abbrev JsonObject := List (List Char × JsonField)

def dumpsString (value : List Char) : List Char := quote :: value.flatMap escapeChar ++ [quote]

def dumpsField : JsonField → List Char
  | .text value => dumpsString value
  | .number value => Nat.toDigits 10 value

def dumpsMember (member : List Char × JsonField) : List Char :=
  dumpsString member.1 ++ ": ".toList ++ dumpsField member.2

/-- `json.dumps` with its default separators. -/
def dumps (object : JsonObject) : List Char :=
  "\x7b".toList ++ List.intercalate ", ".toList (object.map dumpsMember) ++ "\x7d".toList

/-- The bytes of a frame. `json.dumps` leaves ASCII only. -/
def frameBytes (frame : JsonObject) : List UInt8 :=
  (dumps frame).map fun char => UInt8.ofNat char.toNat

/-! ### Frames -/

/-- A request id: `uuid.uuid4().hex[:12]`. -/
structure RequestId where
  text : List Char
  twelve : text.length = 12
  hex : ∀ char ∈ text, char ∈ "0123456789abcdef".toList

/-- The configuration of a voice. A sample rate is an `int` on the unit. -/
structure Voice where
  sampleRate : Nat
  bounded : sampleRate < 2 ^ 31

def ttsStartFrame (requestId : List Char) (sampleRate : Nat) : JsonObject :=
  [("type".toList, .text "tts_start".toList), ("request_id".toList, .text requestId),
    ("sample_rate".toList, .number sampleRate), ("channels".toList, .number 1)]

def ttsChunkFrame (requestId : List Char) (seq : Nat) (pcm : List UInt8) : JsonObject :=
  [("type".toList, .text "tts_chunk".toList), ("request_id".toList, .text requestId),
    ("seq".toList, .number seq), ("payload".toList, .text (base64Encode pcm))]

def ttsEndFrame (requestId : List Char) (totalSeq : Nat) : JsonObject :=
  [("type".toList, .text "tts_end".toList), ("request_id".toList, .text requestId),
    ("total_seq".toList, .number totalSeq)]

/-! ### The stream -/

/-- What the WebSocket does for one frame: it is found closed (or absent), the
send raises, or the frame is sent. -/
inductive SendOutcome where
  | closed
  | raised
  | sent
deriving DecidableEq, Repr

/-- The variables of `_stream_synthesis_to_ws`. `attempts` counts the looks at
`ws.closed`, each followed by at most one send, and `sent` is what has gone out. -/
structure Stream where
  wsOk : Bool
  seq : Nat
  sink : List UInt8
  attempts : Nat
  sent : List JsonObject
deriving DecidableEq, Repr

/-- Look at `ws.closed`, then send. -/
def Stream.attempt (stream : Stream) (frame : JsonObject) (outcome : SendOutcome) : Stream :=
  { stream with
    attempts := stream.attempts + 1
    sent := if outcome = .sent then stream.sent ++ [frame] else stream.sent }

/-- The loop over the sub-chunks of a sentence; it is left at the first failure. -/
def sendPieces (requestId : List Char) (link : Nat → SendOutcome) :
    List (List UInt8) → Stream → Stream
  | [], stream => stream
  | piece :: rest, stream =>
      let outcome := link stream.attempts
      let tried := stream.attempt (ttsChunkFrame requestId stream.seq piece) outcome
      if outcome = .sent then sendPieces requestId link rest { tried with seq := stream.seq + 1 }
      else { tried with wsOk := false }

/-- The loop over the sentences. A broken link stops the sending, not the sink. -/
def sendSentences (requestId : List Char) (link : Nat → SendOutcome) :
    List (List UInt8) → Stream → Stream
  | [], stream => stream
  | pcm :: rest, stream =>
      let stream := { stream with sink := stream.sink ++ pcm }
      if stream.wsOk then
        sendSentences requestId link rest
          (sendPieces requestId link (pieces ttsChunkBytes pcm) stream)
      else sendSentences requestId link rest stream

/-- `tts_start`. -/
def startStream (requestId : List Char) (voice : Voice) (link : Nat → SendOutcome) : Stream :=
  let fresh : Stream := ⟨false, 0, [], 0, []⟩
  { fresh.attempt (ttsStartFrame requestId voice.sampleRate) (link 0) with
    wsOk := decide (link 0 = .sent) }

/-- `tts_end`. A WebSocket found closed here leaves `ws_ok` as it is. -/
def finishStream (requestId : List Char) (link : Nat → SendOutcome) (stream : Stream) : Stream :=
  if stream.wsOk then
    let outcome := link stream.attempts
    { stream.attempt (ttsEndFrame requestId stream.seq) outcome with
      wsOk := decide (outcome ≠ .raised) }
  else stream

/-- `_stream_synthesis_to_ws`. It returns `wsOk` and `seq` of the final state. -/
def streamSynthesisToWs (requestId : List Char) (voice : Voice) (link : Nat → SendOutcome)
    (sentences : List (List UInt8)) : Stream :=
  finishStream requestId link
    (sendSentences requestId link sentences (startStream requestId voice link))

/-! ### The sink -/

theorem sink_sendPieces (requestId : List Char) (link : Nat → SendOutcome)
    (chunks : List (List UInt8)) (stream : Stream) :
    (sendPieces requestId link chunks stream).sink = stream.sink := by
  induction chunks generalizing stream with
  | nil => rfl
  | cons chunk rest inductionHypothesis =>
      rw [sendPieces]
      split_ifs
      · rw [inductionHypothesis]
        rfl
      · rfl

theorem sink_sendSentences (requestId : List Char) (link : Nat → SendOutcome)
    (sentences : List (List UInt8)) (stream : Stream) :
    (sendSentences requestId link sentences stream).sink = stream.sink ++ sentences.flatten := by
  induction sentences generalizing stream with
  | nil => simp [sendSentences]
  | cons pcm rest inductionHypothesis =>
      rw [sendSentences]
      split_ifs
      · rw [inductionHypothesis, sink_sendPieces, List.append_assoc, List.flatten_cons]
      · rw [inductionHypothesis, List.append_assoc, List.flatten_cons]

/-- Whatever the link does, the sink receives every sentence. -/
theorem sink_streamSynthesisToWs (requestId : List Char) (voice : Voice)
    (link : Nat → SendOutcome) (sentences : List (List UInt8)) :
    (streamSynthesisToWs requestId voice link sentences).sink = sentences.flatten := by
  have finished : ∀ stream : Stream, (finishStream requestId link stream).sink = stream.sink := by
    intro stream
    unfold finishStream
    split_ifs <;> rfl
  rw [streamSynthesisToWs, finished, sink_sendSentences]
  rfl

/-! ### With every frame sent -/

/-- The sub-chunks of all sentences, in order. -/
def subChunks (sentences : List (List UInt8)) : List (List UInt8) :=
  sentences.flatMap (pieces ttsChunkBytes)

/-- The chunk frames for `chunks`, numbered from `first`. -/
def chunkFrames (requestId : List Char) : Nat → List (List UInt8) → List JsonObject
  | _, [] => []
  | first, chunk :: rest =>
      ttsChunkFrame requestId first chunk :: chunkFrames requestId (first + 1) rest

theorem chunkFrames_append (requestId : List Char) (first : Nat) (left right : List (List UInt8)) :
    chunkFrames requestId first (left ++ right) =
      chunkFrames requestId first left ++ chunkFrames requestId (first + left.length) right := by
  induction left generalizing first with
  | nil => rfl
  | cons chunk rest inductionHypothesis =>
      have shift : first + (chunk :: rest).length = first + 1 + rest.length := by
        rw [List.length_cons]
        omega
      rw [List.cons_append, chunkFrames, chunkFrames, inductionHypothesis, shift, List.cons_append]

/-- The state after the frames for `chunks` have all been sent. -/
def Stream.afterChunks (stream : Stream) (requestId : List Char) (chunks : List (List UInt8)) :
    Stream :=
  { stream with
    seq := stream.seq + chunks.length
    attempts := stream.attempts + chunks.length
    sent := stream.sent ++ chunkFrames requestId stream.seq chunks }

theorem sendPieces_of_sent {requestId : List Char} {link : Nat → SendOutcome}
    (sends : ∀ look, link look = .sent) (chunks : List (List UInt8)) (stream : Stream) :
    sendPieces requestId link chunks stream = stream.afterChunks requestId chunks := by
  induction chunks generalizing stream with
  | nil => simp [sendPieces, Stream.afterChunks, chunkFrames]
  | cons chunk rest inductionHypothesis =>
      have shift : ∀ base : Nat, base + 1 + rest.length = base + (rest.length + 1) := by
        intro base
        omega
      rw [sendPieces]
      simp only [sends, if_true, inductionHypothesis]
      simp [Stream.afterChunks, Stream.attempt, chunkFrames, shift]

theorem sendSentences_of_sent {requestId : List Char} {link : Nat → SendOutcome}
    (sends : ∀ look, link look = .sent) (sentences : List (List UInt8)) {stream : Stream}
    (ok : stream.wsOk = true) :
    sendSentences requestId link sentences stream =
      { stream.afterChunks requestId (subChunks sentences) with
        sink := stream.sink ++ sentences.flatten } := by
  induction sentences generalizing stream with
  | nil => simp [sendSentences, Stream.afterChunks, subChunks, chunkFrames]
  | cons pcm rest inductionHypothesis =>
      rw [sendSentences]
      simp only [ok, if_true, sendPieces_of_sent sends]
      rw [inductionHypothesis rfl]
      simp [Stream.afterChunks, subChunks, chunkFrames_append, Nat.add_assoc, ok]

/-- With every frame sent, the unit is sent a start, the sub-chunks numbered from
zero, and an end with their number. -/
theorem sent_streamSynthesisToWs {requestId : List Char} {voice : Voice} {link : Nat → SendOutcome}
    (sends : ∀ look, link look = .sent) (sentences : List (List UInt8)) :
    (streamSynthesisToWs requestId voice link sentences).sent =
      ttsStartFrame requestId voice.sampleRate ::
        chunkFrames requestId 0 (subChunks sentences) ++
        [ttsEndFrame requestId (subChunks sentences).length] := by
  have started : (startStream requestId voice link).wsOk = true := by
    simp [startStream, sends]
  rw [streamSynthesisToWs, sendSentences_of_sent sends sentences started, finishStream]
  simp [sends, Stream.afterChunks, Stream.attempt, startStream]

theorem flatten_subChunks (sentences : List (List UInt8)) :
    (subChunks sentences).flatten = sentences.flatten := by
  induction sentences with
  | nil => rfl
  | cons pcm rest inductionHypothesis =>
      have whole := flatten_pieces (show 0 < ttsChunkBytes by decide) pcm
      rw [subChunks, List.flatMap_cons, List.flatten_append, whole, List.flatten_cons]
      exact congrArg (pcm ++ ·) inductionHypothesis

theorem length_of_mem_subChunks {sentences : List (List UInt8)} {chunk : List UInt8}
    (member : chunk ∈ subChunks sentences) : chunk.length ≤ ttsChunkBytes := by
  obtain ⟨pcm, -, piece⟩ := List.mem_flatMap.mp member
  exact length_of_mem_pieces piece

/-! ### How long a frame is -/

/-- A character `json.dumps` leaves alone. -/
def Plain (char : Char) : Prop :=
  char ≠ quote ∧ char ≠ backslash ∧ 32 ≤ char.toNat ∧ char.toNat ≤ 126

instance (char : Char) : Decidable (Plain char) := by
  unfold Plain
  infer_instance

theorem escapeChar_of_plain {char : Char} (plain : Plain char) : escapeChar char = [char] := by
  obtain ⟨notQuote, notBackslash, low, high⟩ := plain
  simp [escapeChar, notQuote, notBackslash, low, high]

theorem length_dumpsString {text : List Char} (plain : ∀ char ∈ text, Plain char) :
    (dumpsString text).length = text.length + 2 := by
  have same : text.flatMap escapeChar = text := by
    induction text with
    | nil => rfl
    | cons char rest inductionHypothesis =>
        rw [List.flatMap_cons, escapeChar_of_plain (plain char List.mem_cons_self),
          inductionHypothesis fun other member => plain other (List.mem_cons_of_mem _ member)]
        rfl
  rw [dumpsString, same]
  simp

theorem plain_of_mem_base64Encode {pcm : List UInt8} {char : Char}
    (member : char ∈ base64Encode pcm) : Plain char := by
  have alphabet : ∀ char ∈ base64Alphabet, Plain char :=
    List.all_iff_forall_prop.mp (by decide +kernel)
  rcases mem_base64Encode member with inside | rfl
  · exact alphabet char inside
  · decide

theorem RequestId.plain (requestId : RequestId) : ∀ char ∈ requestId.text, Plain char := by
  have hex : ∀ char ∈ "0123456789abcdef".toList, Plain char :=
    List.all_iff_forall_prop.mp (by decide)
  exact fun char member => hex char (requestId.hex char member)

theorem length_toDigits {value : Nat} (bounded : value < 2 ^ 31) :
    (Nat.toDigits 10 value).length ≤ 10 :=
  Nat.toDigits_length 10 value 10 (by decide) (lt_trans bounded (by decide))

theorem length_intercalate {α : Type} (separator : List α) (texts : List (List α)) :
    (List.intercalate separator texts).length ≤
      (texts.map fun text => text.length + separator.length).sum := by
  induction texts with
  | nil => simp [List.intercalate]
  | cons text rest inductionHypothesis =>
      cases rest with
      | nil => simp [List.intercalate]
      | cons next others =>
          simp only [List.intercalate, List.intersperse, List.flatten_cons, List.length_append,
            List.map_cons, List.sum_cons] at inductionHypothesis ⊢
          omega

theorem length_frameBytes (frame : JsonObject) :
    (frameBytes frame).length ≤
      2 + (frame.map fun member => (dumpsMember member).length + 2).sum := by
  have joined := length_intercalate ", ".toList (frame.map dumpsMember)
  rw [List.map_map] at joined
  have separator : ", ".toList.length = 2 := rfl
  have opening : "\x7b".toList.length = 1 := rfl
  have closing : "\x7d".toList.length = 1 := rfl
  simp only [Function.comp_def, separator] at joined
  simp only [frameBytes, dumps, List.length_map, List.length_append, opening, closing]
  omega

theorem length_frameBytes_pos (frame : JsonObject) : 0 < (frameBytes frame).length := by
  have opening : "\x7b".toList.length = 1 := rfl
  simp only [frameBytes, dumps, List.length_map, List.length_append, opening]
  omega

theorem length_dumpsMember (key : List Char) (field : JsonField) :
    (dumpsMember (key, field)).length =
      (dumpsString key).length + 2 + (dumpsField field).length := by
  have separator : ": ".toList.length = 2 := rfl
  simp only [dumpsMember, List.length_append, separator]

/-- The frames of one request, for sub-chunks of at most `ttsChunkBytes`. -/
inductive TtsFrame (requestId : RequestId) : JsonObject → Prop
  | start {rate : Nat} : rate < 2 ^ 31 → TtsFrame requestId (ttsStartFrame requestId.text rate)
  | chunk {seq : Nat} {pcm : List UInt8} : seq < 2 ^ 31 → pcm.length ≤ ttsChunkBytes →
      TtsFrame requestId (ttsChunkFrame requestId.text seq pcm)
  | finish {total : Nat} : total < 2 ^ 31 → TtsFrame requestId (ttsEndFrame requestId.text total)

/-- The longest frame, a full chunk, stays well below the assembly buffer. -/
theorem length_ttsFrame {requestId : RequestId} {frame : JsonObject}
    (sends : TtsFrame requestId frame) : (frameBytes frame).length ≤ 2000 := by
  have id : (dumpsString requestId.text).length = 14 := by
    rw [length_dumpsString requestId.plain, requestId.twelve]
  have keys : ∀ text ∈ ["type", "tts_start", "tts_chunk", "tts_end", "request_id", "sample_rate",
      "channels", "seq", "payload", "total_seq"], (dumpsString text.toList).length ≤ 13 := by
    decide
  simp only [List.forall_mem_cons] at keys
  cases sends with
  | start bounded =>
      have digits := length_toDigits bounded
      have channels : (Nat.toDigits 10 1).length = 1 := rfl
      refine (length_frameBytes _).trans ?_
      simp only [ttsStartFrame, List.map_cons, List.map_nil, List.sum_cons, List.sum_nil,
        length_dumpsMember, dumpsField]
      omega
  | chunk bounded fits =>
      rename_i seq pcm
      have digits := length_toDigits bounded
      have payload := length_dumpsString fun _ => @plain_of_mem_base64Encode pcm _
      rw [length_base64Encode] at payload
      rw [ttsChunkBytes, ttsChunkSamples] at fits
      refine (length_frameBytes _).trans ?_
      simp only [ttsChunkFrame, List.map_cons, List.map_nil, List.sum_cons, List.sum_nil,
        length_dumpsMember, dumpsField]
      omega
  | finish bounded =>
      have digits := length_toDigits bounded
      refine (length_frameBytes _).trans ?_
      simp only [ttsEndFrame, List.map_cons, List.map_nil, List.sum_cons, List.sum_nil,
        length_dumpsMember, dumpsField]
      omega

theorem ttsFrame_of_mem_chunkFrames {requestId : RequestId} {first : Nat}
    {chunks : List (List UInt8)} {frame : JsonObject}
    (bounded : first + chunks.length < 2 ^ 31)
    (fits : ∀ chunk ∈ chunks, chunk.length ≤ ttsChunkBytes)
    (member : frame ∈ chunkFrames requestId.text first chunks) : TtsFrame requestId frame := by
  induction chunks generalizing first with
  | nil => contradiction
  | cons chunk rest inductionHypothesis =>
      rw [List.length_cons] at bounded
      rcases List.mem_cons.mp member with rfl | later
      · exact TtsFrame.chunk (by omega) (fits chunk List.mem_cons_self)
      · exact inductionHypothesis (by omega)
          (fun other inside => fits other (List.mem_cons_of_mem _ inside)) later

/-- With every frame sent, each is one of the request's frames. -/
theorem ttsFrame_of_mem_sent {requestId : RequestId} {voice : Voice}
    {link : Nat → SendOutcome} {sentences : List (List UInt8)} {frame : JsonObject}
    (sends : ∀ look, link look = .sent) (few : (subChunks sentences).length < 2 ^ 31)
    (member : frame ∈ (streamSynthesisToWs requestId.text voice link sentences).sent) :
    TtsFrame requestId frame := by
  rw [sent_streamSynthesisToWs sends, List.mem_append, List.mem_cons, List.mem_singleton]
    at member
  rcases member with (rfl | chunk) | rfl
  · exact TtsFrame.start voice.bounded
  · exact ttsFrame_of_mem_chunkFrames (by omega) (fun _ => length_of_mem_subChunks) chunk
  · exact TtsFrame.finish few

end WallUnit.Server.Streaming
