import WallUnit.Server.Streaming

/-!
Owns what `_stream_synthesis_to_ws` promises with its result, for every way the
WebSocket can fail: the sink, the chunks that went out, and what `streamed_ok`
means. `truthful_iff` says when the promise is kept.
-/

namespace WallUnit.Server.Streaming

open WallUnit.Foundations

/-! ### What has been sent when the link breaks -/

section

variable {requestId : List Char} {link : Nat → SendOutcome}

/-- The first `count` looks from `first` on find the link open and their sends
succeed. -/
def SendsFrom (link : Nat → SendOutcome) (first count : Nat) : Prop :=
  ∀ index < count, link (first + index) = .sent

theorem sendsFrom_succ {first count : Nat} :
    SendsFrom link first (count + 1) ↔ link first = .sent ∧ SendsFrom link (first + 1) count := by
  constructor
  · intro sends
    refine ⟨sends 0 (by omega), ?_⟩
    intro index below
    have shifted := sends (index + 1) (by omega)
    rwa [Nat.add_comm index 1, ← Nat.add_assoc] at shifted
  · rintro ⟨head, tail⟩ index below
    cases index with
    | zero => exact head
    | succ index =>
        rw [Nat.add_comm index 1, ← Nat.add_assoc]
        exact tail index (by omega)

theorem sendsFrom_add {first left right : Nat} :
    SendsFrom link first (left + right) ↔
      SendsFrom link first left ∧ SendsFrom link (first + left) right := by
  induction left generalizing first with
  | zero => simp [SendsFrom]
  | succ left inductionHypothesis =>
      rw [Nat.add_right_comm, sendsFrom_succ, sendsFrom_succ, inductionHypothesis, and_assoc,
        Nat.add_assoc first, Nat.add_comm 1]

/-- The state after the link broke: a first part of the chunks has gone out. -/
def Broken (requestId : List Char) (chunks : List (List UInt8)) (before after : Stream) : Prop :=
  after.wsOk = false ∧
    ∃ sent, sent <+: chunks ∧
      after.sent = before.sent ++ chunkFrames requestId before.seq sent

theorem afterChunks_append (stream : Stream) (left right : List (List UInt8)) :
    (stream.afterChunks requestId left).afterChunks requestId right =
      stream.afterChunks requestId (left ++ right) := by
  simp [Stream.afterChunks, chunkFrames_append, Nat.add_assoc]

theorem Broken.after {left right : List (List UInt8)} {before after : Stream}
    (broken : Broken requestId right (before.afterChunks requestId left) after) :
    Broken requestId (left ++ right) before after := by
  obtain ⟨off, sent, front, out⟩ := broken
  refine ⟨off, left ++ sent, (List.prefix_append_right_inj left).mpr front, ?_⟩
  rw [out, chunkFrames_append, ← List.append_assoc]
  rfl

theorem Broken.mono {left : List (List UInt8)} {before after : Stream}
    (broken : Broken requestId left before after) (more : List (List UInt8)) :
    Broken requestId (left ++ more) before after := by
  obtain ⟨off, sent, front, out⟩ := broken
  exact ⟨off, sent, front.trans (List.prefix_append left more), out⟩

variable (requestId link)

/-- The sub-chunks of a sentence all go out, or the loop is left at a failure. -/
theorem sendPieces_cases (chunks : List (List UInt8)) (stream : Stream) :
    SendsFrom link stream.attempts chunks.length ∧
        sendPieces requestId link chunks stream = stream.afterChunks requestId chunks ∨
      ¬ SendsFrom link stream.attempts chunks.length ∧
        Broken requestId chunks stream (sendPieces requestId link chunks stream) := by
  induction chunks generalizing stream with
  | nil => exact Or.inl ⟨by simp [SendsFrom], by simp [sendPieces, Stream.afterChunks, chunkFrames]⟩
  | cons chunk rest inductionHypothesis =>
      rw [List.length_cons, sendsFrom_succ, sendPieces]
      by_cases sends : link stream.attempts = .sent
      · have next : { stream.attempt (ttsChunkFrame requestId stream.seq chunk) .sent with
            seq := stream.seq + 1 } = stream.afterChunks requestId [chunk] := rfl
        simp only [sends, if_true, next, true_and]
        rcases inductionHypothesis (stream.afterChunks requestId [chunk]) with
          ⟨all, out⟩ | ⟨stopped, broken⟩
        · exact Or.inl ⟨all, out.trans (afterChunks_append stream [chunk] rest)⟩
        · exact Or.inr ⟨stopped, broken.after⟩
      · right
        rw [if_neg sends]
        refine ⟨fun all => sends all.1, rfl, [], List.nil_prefix, ?_⟩
        simp [Stream.attempt, sends, chunkFrames]

theorem sendSentences_of_on (pcm : List UInt8) (rest : List (List UInt8)) (stream : Stream)
    (on : stream.wsOk = true) :
    sendSentences requestId link (pcm :: rest) stream =
      sendSentences requestId link rest
        (sendPieces requestId link (pieces ttsChunkBytes pcm)
          { stream with sink := stream.sink ++ pcm }) :=
  if_pos on

/-- Once the link is broken the sentences only reach the sink. -/
theorem sendSentences_of_broken (sentences : List (List UInt8)) (stream : Stream)
    (off : stream.wsOk = false) :
    (sendSentences requestId link sentences stream).wsOk = false ∧
      (sendSentences requestId link sentences stream).sent = stream.sent := by
  induction sentences generalizing stream with
  | nil => exact ⟨off, rfl⟩
  | cons pcm rest inductionHypothesis =>
      have skipped : sendSentences requestId link (pcm :: rest) stream =
          sendSentences requestId link rest { stream with sink := stream.sink ++ pcm } :=
        if_neg (Bool.eq_false_iff.mp off)
      rw [skipped]
      exact inductionHypothesis { stream with sink := stream.sink ++ pcm } off

/-- All sub-chunks of all sentences go out, or a first part of them does. -/
theorem sendSentences_cases (sentences : List (List UInt8)) (stream : Stream)
    (on : stream.wsOk = true) :
    SendsFrom link stream.attempts (subChunks sentences).length ∧
        sendSentences requestId link sentences stream =
          { stream.afterChunks requestId (subChunks sentences) with
            sink := stream.sink ++ sentences.flatten } ∨
      ¬ SendsFrom link stream.attempts (subChunks sentences).length ∧
        Broken requestId (subChunks sentences) stream
          (sendSentences requestId link sentences stream) := by
  induction sentences generalizing stream with
  | nil =>
      left
      refine ⟨by simp [SendsFrom, subChunks], ?_⟩
      simp [sendSentences, Stream.afterChunks, subChunks, chunkFrames]
  | cons pcm rest inductionHypothesis =>
      have cut : subChunks (pcm :: rest) = pieces ttsChunkBytes pcm ++ subChunks rest := rfl
      rw [sendSentences_of_on requestId link pcm rest stream on, cut, List.length_append,
        sendsFrom_add]
      rcases sendPieces_cases requestId link (pieces ttsChunkBytes pcm)
        { stream with sink := stream.sink ++ pcm } with ⟨all, out⟩ | ⟨stopped, broken⟩
      · rw [out]
        rcases inductionHypothesis (Stream.afterChunks
          { stream with sink := stream.sink ++ pcm } requestId (pieces ttsChunkBytes pcm)) on with
          ⟨later, ended⟩ | ⟨stopped, broken⟩
        · left
          refine ⟨⟨all, later⟩, ?_⟩
          rw [ended, afterChunks_append]
          simp [Stream.afterChunks, on]
        · exact Or.inr ⟨fun both => stopped both.2, broken.after⟩
      · obtain ⟨off, same⟩ := sendSentences_of_broken requestId link rest _ broken.1
        refine Or.inr ⟨fun both => stopped both.1, off, ?_⟩
        obtain ⟨-, sent, front, gone⟩ := broken.mono (subChunks rest)
        exact ⟨sent, front, same.trans gone⟩

end

/-! ### The promise -/

/-- The frame is a `tts_chunk`. -/
def isChunk (frame : JsonObject) : Bool :=
  decide (frame.head? = some ("type".toList, .text "tts_chunk".toList))

theorem filter_chunkFrames (requestId : List Char) (first : Nat) (chunks : List (List UInt8)) :
    (chunkFrames requestId first chunks).filter isChunk = chunkFrames requestId first chunks := by
  induction chunks generalizing first with
  | nil => rfl
  | cons chunk rest inductionHypothesis =>
      have kept : isChunk (ttsChunkFrame requestId first chunk) = true :=
        decide_eq_true rfl
      rw [chunkFrames, List.filter_cons_of_pos kept, inductionHypothesis]

theorem isChunk_start (requestId : List Char) (sampleRate : Nat) :
    isChunk (ttsStartFrame requestId sampleRate) = false := by
  simp [isChunk, ttsStartFrame]

theorem isChunk_end (requestId : List Char) (totalSeq : Nat) :
    isChunk (ttsEndFrame requestId totalSeq) = false := by
  simp [isChunk, ttsEndFrame]

/-- The sink has everything, the chunks sent are a first part of it in order, and
`streamed_ok` means that the start, all of it and the end were sent. -/
structure Truthful (requestId : List Char) (voice : Voice) (sentences : List (List UInt8))
    (result : Stream) : Prop where
  sink : result.sink = sentences.flatten
  ordered : ∃ chunks, result.sent.filter isChunk = chunkFrames requestId 0 chunks ∧
    chunks.flatten <+: sentences.flatten
  honest : result.wsOk = true → ∃ chunks, chunks.flatten = sentences.flatten ∧
    result.sent = ttsStartFrame requestId voice.sampleRate ::
      chunkFrames requestId 0 chunks ++ [ttsEndFrame requestId chunks.length]

/-- The start and every chunk are sent, and the WebSocket is found closed at the
look that follows. -/
def ClosedBeforeEnd (link : Nat → SendOutcome) (sentences : List (List UInt8)) : Prop :=
  SendsFrom link 0 ((subChunks sentences).length + 1) ∧
    link ((subChunks sentences).length + 1) = .closed

section

variable {requestId : List Char} {voice : Voice} {link : Nat → SendOutcome}
  {sentences : List (List UInt8)} {result : Stream}

theorem flatten_prefix {sent chunks : List (List UInt8)} (front : sent <+: chunks) :
    sent.flatten <+: chunks.flatten := by
  obtain ⟨rest, rfl⟩ := front
  rw [List.flatten_append]
  exact List.prefix_append _ _

/-- A result that reports a failure only has to have sent a first part. -/
theorem truthful_of_failed {sent : List (List UInt8)} (opening : List JsonObject)
    (sink : result.sink = sentences.flatten) (off : result.wsOk = false)
    (silent : opening.filter isChunk = []) (front : sent <+: subChunks sentences)
    (out : result.sent = opening ++ chunkFrames requestId 0 sent) :
    Truthful requestId voice sentences result where
  sink := sink
  ordered := by
    refine ⟨sent, ?_, ?_⟩
    · rw [out, List.filter_append, silent, filter_chunkFrames, List.nil_append]
    · have within := flatten_prefix front
      rwa [flatten_subChunks] at within
  honest := by
    intro on
    rw [off] at on
    contradiction

theorem startStream_of_sent (started : link 0 = .sent) :
    startStream requestId voice link =
      ⟨true, 0, [], 1, [ttsStartFrame requestId voice.sampleRate]⟩ := by
  simp [startStream, Stream.attempt, started]

theorem startStream_of_failed (failed : link 0 ≠ .sent) :
    startStream requestId voice link = ⟨false, 0, [], 1, []⟩ := by
  simp [startStream, Stream.attempt, failed]

theorem finishStream_of_on {stream : Stream} {outcome : SendOutcome} (on : stream.wsOk = true)
    (last : link stream.attempts = outcome) :
    finishStream requestId link stream =
      { stream.attempt (ttsEndFrame requestId stream.seq) outcome with
        wsOk := decide (outcome ≠ .raised) } := by
  subst last
  exact if_pos on

/-- A link that fails before all chunks are out is reported. -/
theorem truthful_of_broken
    (failed : ¬ SendsFrom link 0 ((subChunks sentences).length + 1)) :
    Truthful requestId voice sentences (streamSynthesisToWs requestId voice link sentences) := by
  have sink := sink_streamSynthesisToWs requestId voice link sentences
  have unfinished : ∀ stream : Stream, stream.wsOk = false →
      finishStream requestId link stream = stream :=
    fun stream off => if_neg (Bool.eq_false_iff.mp off)
  rw [sendsFrom_succ] at failed
  unfold streamSynthesisToWs at sink ⊢
  by_cases started : link 0 = .sent
  · rw [startStream_of_sent started] at sink ⊢
    rcases sendSentences_cases requestId link sentences
      ⟨true, 0, [], 1, [ttsStartFrame requestId voice.sampleRate]⟩ rfl with
      ⟨all, -⟩ | ⟨-, off, sent, front, out⟩
    · exact absurd ⟨started, all⟩ failed
    · rw [unfinished _ off] at sink ⊢
      exact truthful_of_failed [_] sink off (by simp [isChunk_start]) front out
  · rw [startStream_of_failed started] at sink ⊢
    obtain ⟨off, same⟩ := sendSentences_of_broken requestId link sentences ⟨false, 0, [], 1, []⟩ rfl
    rw [unfinished _ off] at sink ⊢
    exact truthful_of_failed [] sink off rfl List.nil_prefix same

/-- With the start and all chunks out, the result is what the last look makes of
it. -/
theorem streamSynthesisToWs_of_sends
    (sends : SendsFrom link 0 ((subChunks sentences).length + 1)) :
    streamSynthesisToWs requestId voice link sentences =
      finishStream requestId link
        ⟨true, (subChunks sentences).length, sentences.flatten, (subChunks sentences).length + 1,
          ttsStartFrame requestId voice.sampleRate ::
            chunkFrames requestId 0 (subChunks sentences)⟩ := by
  obtain ⟨started, chunks⟩ := sendsFrom_succ.mp sends
  unfold streamSynthesisToWs
  rw [startStream_of_sent started]
  rcases sendSentences_cases requestId link sentences
    ⟨true, 0, [], 1, [ttsStartFrame requestId voice.sampleRate]⟩ rfl with
    ⟨-, out⟩ | ⟨stopped, -⟩
  · rw [out]
    simp [Stream.afterChunks, Nat.add_comm]
  · exact absurd chunks stopped

/-- A start and chunks contain no end. -/
theorem end_not_sent {sampleRate first total : Nat} (chunks : List (List UInt8))
    {others : List JsonObject}
    (out : ttsStartFrame requestId sampleRate :: chunkFrames requestId first chunks =
      ttsStartFrame requestId sampleRate :: others ++ [ttsEndFrame requestId total]) : False := by
  rw [List.cons_append, List.cons.injEq] at out
  have member : ttsEndFrame requestId total ∈ chunkFrames requestId first chunks := by
    rw [out.2]
    simp
  rw [← filter_chunkFrames] at member
  have chunk := (List.mem_filter.mp member).2
  rw [isChunk_end] at chunk
  contradiction

/-- The promise is kept unless the WebSocket closes between the last chunk and the
look before `tts_end`. -/
theorem truthful_iff (requestId : List Char) (voice : Voice) (link : Nat → SendOutcome)
    (sentences : List (List UInt8)) :
    Truthful requestId voice sentences (streamSynthesisToWs requestId voice link sentences) ↔
      ¬ ClosedBeforeEnd link sentences := by
  by_cases sends : SendsFrom link 0 ((subChunks sentences).length + 1)
  swap
  · exact iff_of_true (truthful_of_broken sends) fun closed => sends closed.1
  have sink := sink_streamSynthesisToWs requestId voice link sentences
  rw [streamSynthesisToWs_of_sends sends] at sink ⊢
  cases last : link ((subChunks sentences).length + 1) with
  | closed =>
      refine iff_of_false ?_ (not_not.mpr ⟨sends, last⟩)
      rintro ⟨-, -, honest⟩
      obtain ⟨chunks, -, out⟩ := honest (by rw [finishStream_of_on rfl last]; rfl)
      rw [finishStream_of_on rfl last] at out
      exact end_not_sent _ out
  | raised =>
      refine iff_of_true ?_ fun closed => ?_
      · exact truthful_of_failed [ttsStartFrame requestId voice.sampleRate] sink
          (by rw [finishStream_of_on rfl last]; rfl) (by simp [isChunk_start])
          (List.prefix_refl _) (by rw [finishStream_of_on rfl last]; rfl)
      · rw [closed.2] at last
        contradiction
  | sent =>
      have out : (finishStream requestId link
          ⟨true, (subChunks sentences).length, sentences.flatten, (subChunks sentences).length + 1,
            ttsStartFrame requestId voice.sampleRate ::
              chunkFrames requestId 0 (subChunks sentences)⟩).sent =
          ttsStartFrame requestId voice.sampleRate ::
            chunkFrames requestId 0 (subChunks sentences) ++
            [ttsEndFrame requestId (subChunks sentences).length] := by
        rw [finishStream_of_on rfl last]
        rfl
      refine iff_of_true ⟨sink, ⟨subChunks sentences, ?_, ?_⟩, fun _ => ?_⟩ fun closed => ?_
      · rw [out, List.cons_append, List.filter_cons_of_neg (by simp [isChunk_start]),
          List.filter_append, filter_chunkFrames]
        simp [isChunk_end]
      · exact (flatten_subChunks sentences).symm ▸ List.prefix_refl _
      · exact ⟨subChunks sentences, flatten_subChunks sentences, out⟩
      · rw [closed.2] at last
        contradiction

/-- One sentence of one chunk; the WebSocket closes after that chunk. -/
theorem truthful_not_of_closedBeforeEnd :
    ¬ ∀ (requestId : List Char) (voice : Voice) (link : Nat → SendOutcome)
      (sentences : List (List UInt8)),
      Truthful requestId voice sentences
        (streamSynthesisToWs requestId voice link sentences) := by
  intro truthful
  let link : Nat → SendOutcome := fun look => if look < 2 then .sent else .closed
  obtain ⟨chunks, -, out⟩ :=
    (truthful [] ⟨22050, by decide⟩ link [[1, 2]]).honest (by decide +kernel)
  have sent : (streamSynthesisToWs [] ⟨22050, by decide⟩ link [[1, 2]]).sent =
      [ttsStartFrame [] 22050, ttsChunkFrame [] 0 [1, 2]] := by
    decide +kernel
  rw [sent] at out
  exact end_not_sent [[1, 2]] out

end

end WallUnit.Server.Streaming
