import Mathlib
import WallUnit.Firmware.VoiceTurn.PlayWav
import WallUnit.Server.PendingResults
import WallUnit.Server.StreamResult

/-!
Owns the two ways the audio of a slow answer reaches the loudspeaker: the chunks streamed over
the WebSocket, and the WAV that `GET /voice_result` hands out when the stream did not complete.
`paths_agree` says that both carry the same PCM, and that a stream which breaks has carried a
first part of it.

Does not own the ring the chunks wait in, nor the transport of either.
-/

namespace WallUnit.Wire.DeliveryPaths

open WallUnit.Firmware
open WallUnit.Firmware.Wav
open WallUnit.Firmware.VoiceTurn
open WallUnit.Server.Pending (wrapWav)
open WallUnit.Server.Streaming

/-! ### The container -/

theorem length_formatId : (ascii "fmt ").length = 4 := rfl

/-- The format chunk of `wave`: PCM, one channel, 16 bits. -/
def waveFormat (sampleRate : Nat) : Chunk where
  id := ascii "fmt "
  body := littleEndian 2 1 ++ littleEndian 2 1 ++ littleEndian 4 sampleRate ++
    littleEndian 4 (sampleRate * 2) ++ littleEndian 2 2 ++ littleEndian 2 16
  id_length := length_formatId

theorem waveFormat_fields {sampleRate : Nat} (below : sampleRate < 4294967296) :
    le32 (waveFormat sampleRate).body 4 = sampleRate ∧ le16 (waveFormat sampleRate).body 2 = 1 ∧
      le16 (waveFormat sampleRate).body 14 = 16 := by
  refine ⟨?_, rfl, rfl⟩
  simp [waveFormat, le32, le16, byteAt, littleEndian]
  omega

theorem length_waveFormat (sampleRate : Nat) : (waveFormat sampleRate).body.length = 16 := rfl

theorem pad_waveFormat (sampleRate : Nat) : (waveFormat sampleRate).pad = [] := by
  rw [Chunk.pad, length_waveFormat]
  rfl

theorem pad_dataChunk {pcm : List UInt8} (even : pcm.length % 2 = 0) : (dataChunk pcm).pad = [] :=
  if_neg (show ¬ pcm.length % 2 = 1 by omega)

/-- `_wrap_wav` writes a format and the samples as chunks. -/
theorem wrapWav_eq {pcm wav : List UInt8} {sampleRate : Nat} (even : pcm.length % 2 = 0)
    (wrapped : wrapWav pcm sampleRate = some wav) :
    wav = riffBytes [waveFormat sampleRate, dataChunk pcm] ∧ wav.length = 44 + pcm.length ∧
      sampleRate ≠ 0 ∧ sampleRate * 2 < 4294967296 := by
  rw [wrapWav] at wrapped
  split_ifs at wrapped with bad
  rw [not_or, not_or] at bad
  obtain rfl := Option.some.inj wrapped
  have format := (waveFormat sampleRate).length_bytes
  have data := (dataChunk pcm).length_bytes
  rw [pad_waveFormat] at format
  rw [pad_dataChunk even] at data
  have size : 4 + ([waveFormat sampleRate, dataChunk pcm].flatMap Chunk.bytes).length =
      36 + pcm.length := by
    rw [List.flatMap_cons, List.flatMap_cons, List.flatMap_nil, List.append_nil,
      List.length_append, format, data]
    show 4 + (8 + 16 + 0 + (8 + pcm.length + 0)) = 36 + pcm.length
    omega
  refine ⟨?_, ?_, bad.1, by omega⟩
  · simp only [riffBytes, size]
    simp only [List.flatMap_cons, List.flatMap_nil, Chunk.bytes, pad_dataChunk even,
      pad_waveFormat, length_waveFormat, List.append_nil]
    simp only [waveFormat, dataChunk, List.append_assoc]
  · simp only [List.length_append, length_littleEndian]
    show 4 + 4 + 4 + 4 + 4 + 2 + 2 + 4 + 4 + 2 + 2 + 4 + 4 + pcm.length = 44 + pcm.length
    omega

theorem formatId_ne_dataId : ascii "fmt " ≠ ascii "data" := by decide

theorem wholeFormat_waveFormat (sampleRate : Nat) : 16 ≤ (waveFormat sampleRate).body.length :=
  Nat.le_refl _

/-- The file of `_wrap_wav`. -/
def serverFile (pcm : List UInt8) (sampleRate : Nat) (nonzero : sampleRate ≠ 0)
    (below : sampleRate < 4294967296)
    (size : (riffBytes [waveFormat sampleRate, dataChunk pcm]).length = 44 + pcm.length)
    (short : 44 + pcm.length < 4294967296) : WaveFile where
  before := [waveFormat sampleRate]
  audio := pcm
  after := []
  format := waveFormat sampleRate
  noData := by
    intro chunk member
    rw [List.mem_singleton.mp member]
    exact formatId_ne_dataId
  oneFormat := rfl
  wholeFormat := wholeFormat_waveFormat sampleRate
  rate := by
    rw [(waveFormat_fields below).1]
    exact nonzero
  long := by
    rw [List.singleton_append, size]
    omega
  short := by
    rw [List.singleton_append, size]
    exact short

/-- The unit accepts what the server wraps, and finds the samples where they are. -/
theorem accepts_wrapWav {pcm wav : List UInt8} {sampleRate : Nat} (even : pcm.length % 2 = 0)
    (wrapped : wrapWav pcm sampleRate = some wav) (short : wav.length < 4294967296) :
    Accepts wav ⟨sampleRate, 1, 16, 44, pcm.length⟩ ∧
      audioBytes wav ⟨sampleRate, 1, 16, 44, pcm.length⟩ = pcm := by
  obtain ⟨layout, length, nonzero, fits⟩ := wrapWav_eq even wrapped
  have below : sampleRate < 4294967296 := by omega
  have size : (riffBytes [waveFormat sampleRate, dataChunk pcm]).length = 44 + pcm.length := by
    rw [← layout, length]
  have room : 44 + pcm.length < 4294967296 := by omega
  have start : (serverFile pcm sampleRate nonzero below size room).dataStart = 36 := by
    have format := (waveFormat sampleRate).length_bytes
    rw [pad_waveFormat, length_waveFormat, List.length_nil] at format
    show 12 + ([waveFormat sampleRate].flatMap Chunk.bytes).length = 36
    rw [List.flatMap_cons, List.flatMap_nil, List.append_nil, format]
  constructor
  · have even : ∀ chunk ∈ (serverFile pcm sampleRate nonzero below size room).before,
        chunk.body.length % 2 = 0 := by
      intro chunk member
      rw [List.mem_singleton.mp member, length_waveFormat]
    obtain ⟨fuel, reads, returned⟩ := findsAudio_of_even _ even ⟨0, 0, 0, 0, 0⟩
    obtain ⟨rate, channels, bits⟩ := waveFormat_fields below
    have found : (serverFile pcm sampleRate nonzero below size room).info =
        ⟨sampleRate, 1, 16, 44, pcm.length⟩ := by
      rw [WaveFile.info, start, Chunk.record, if_pos (WaveFile.isFormat_format _)]
      show (⟨le32 (waveFormat sampleRate).body 4, le16 (waveFormat sampleRate).body 2,
        le16 (waveFormat sampleRate).body 14, 36 + 8, pcm.length⟩ : HeaderInfo) = _
      rw [rate, channels, bits]
    rw [found] at returned
    rw [layout]
    exact ⟨fuel, _, reads, returned⟩
  · have whole : min (44 + pcm.length) wav.length = wav.length := by omega
    rw [audioBytes, whole, List.take_length]
    rw [wrapWav] at wrapped
    split_ifs at wrapped
    obtain rfl := Option.some.inj wrapped
    exact List.drop_left' (by simp only [List.length_append, length_littleEndian]; rfl)

/-! ### The file is played -/

/-- `play_wav` opens I2S as the header says before anything else. -/
theorem opened_of_playWav {driver : I2sDriver} {wav : List UInt8} {found info : HeaderInfo}
    {fuel : Nat} {played : Played} (accepts : Accepts wav found)
    (returned : playWav driver fuel wav info = some played) :
    played.calls.head? =
      some (.init found.sampleRate (found.bitsPerSample % 256) (found.channels % 256)) := by
  obtain ⟨bound, reads, parsed⟩ := wavParse_of_accepts accepts
  obtain ⟨result, now, returned⟩ := Option.bind_eq_some_iff.mp returned
  have same := wavParse_unique now (parsed 0 info)
  subst same
  rw [if_neg (by simp)] at returned
  dsimp only at returned
  split_ifs at returned
  · obtain rfl := Option.some.inj returned
    rfl
  · obtain ⟨handed, -, rfl⟩ := Option.map_eq_some_iff.mp returned
    rfl

/-- A file of the server is played to the end: I2S is opened for it and is handed the samples,
all of them and nothing else. -/
theorem playWav_wrapWav {driver : I2sDriver} {pcm wav : List UInt8} {sampleRate : Nat}
    (accepting : driver.Accepting) (even : pcm.length % 2 = 0)
    (wrapped : wrapWav pcm sampleRate = some wav) (short : wav.length < 4294967296)
    (info : HeaderInfo) :
    ∃ fuel played, playWav driver fuel wav info = some played ∧ played.err = .ok ∧
      played.calls.head? = some (.init sampleRate 16 1) ∧
      played.calls.flatMap OutputCall.handed = pcm := by
  obtain ⟨accepts, audio⟩ := accepts_wrapWav even wrapped short
  obtain ⟨-, length, -, -⟩ := wrapWav_eq even wrapped
  obtain ⟨fuel, played, returned⟩ := playWav_ends accepting accepts short info
  obtain ⟨ok, handed⟩ := handed_of_playWav accepting accepts short returned
  have stop : min (44 + pcm.length) wav.length = 44 + pcm.length := Nat.min_eq_left (by omega)
  have whole : playEnd wav ⟨sampleRate, 1, 16, 44, pcm.length⟩ = 44 + pcm.length := by
    rw [playEnd_eq]
    show min ((44 + pcm.length) % 4294967296) wav.length = 44 + pcm.length
    rw [Nat.mod_eq_of_lt (by omega), stop]
  refine ⟨fuel, played, returned, ok, opened_of_playWav accepts returned, ?_⟩
  rw [handed, whole]
  change (wav.take (min (44 + pcm.length) wav.length)).drop 44 = pcm at audio
  rwa [stop] at audio

/-! ### The stream -/

section

variable {requestId : List Char} {voice : Voice} {link : Nat → SendOutcome}
  {sentences : List (List UInt8)}

/-- No end among a start and chunks. -/
theorem end_notMem {sampleRate first total : Nat} {chunks : List (List UInt8)} :
    ttsEndFrame requestId total ∉
      ttsStartFrame requestId sampleRate :: chunkFrames requestId first chunks := by
  intro member
  rcases List.mem_cons.mp member with start | chunk
  · have types := congrArg List.head? start
    simp [ttsEndFrame, ttsStartFrame] at types
  · rw [← filter_chunkFrames] at chunk
    have type := (List.mem_filter.mp chunk).2
    rw [isChunk_end] at type
    contradiction

/-- A link that fails before all chunks are out has carried a first part of them, and no end. -/
theorem sent_of_broken (failed : ¬ SendsFrom link 0 ((subChunks sentences).length + 1)) :
    (streamSynthesisToWs requestId voice link sentences).sent = [] ∨
      ∃ chunks, chunks <+: subChunks sentences ∧
        (streamSynthesisToWs requestId voice link sentences).sent =
          ttsStartFrame requestId voice.sampleRate :: chunkFrames requestId 0 chunks := by
  have unfinished : ∀ stream : Stream, stream.wsOk = false →
      finishStream requestId link stream = stream :=
    fun stream off => if_neg (Bool.eq_false_iff.mp off)
  rw [sendsFrom_succ] at failed
  unfold streamSynthesisToWs
  by_cases started : link 0 = .sent
  · rw [startStream_of_sent started]
    rcases sendSentences_cases requestId link sentences
      ⟨true, 0, [], 1, [ttsStartFrame requestId voice.sampleRate]⟩ rfl with
      ⟨all, -⟩ | ⟨-, off, sent, front, out⟩
    · exact absurd ⟨started, all⟩ failed
    · rw [unfinished _ off]
      exact Or.inr ⟨sent, front, out⟩
  · rw [startStream_of_failed started]
    obtain ⟨off, same⟩ := sendSentences_of_broken requestId link sentences ⟨false, 0, [], 1, []⟩ rfl
    rw [unfinished _ off]
    exact Or.inl same

/-- With the start and all chunks out, the end is the only frame that may be missing. -/
theorem sent_of_sends (sends : SendsFrom link 0 ((subChunks sentences).length + 1)) :
    ∃ ending, (ending = [] ∨ ending = [ttsEndFrame requestId (subChunks sentences).length]) ∧
      (streamSynthesisToWs requestId voice link sentences).sent =
        ttsStartFrame requestId voice.sampleRate ::
          chunkFrames requestId 0 (subChunks sentences) ++ ending := by
  rw [streamSynthesisToWs_of_sends sends, finishStream_of_on rfl rfl]
  simp only [Stream.attempt]
  split_ifs
  · exact ⟨_, Or.inr rfl, rfl⟩
  · exact ⟨[], Or.inl rfl, (List.append_nil _).symm⟩

/-- Whatever the link does, the chunks that went out are a first part of the reply's, and all of
them if an end went out. -/
theorem sent_chunks :
    ∃ chunks, (streamSynthesisToWs requestId voice link sentences).sent.filter isChunk =
        chunkFrames requestId 0 chunks ∧
      chunks.flatten <+: sentences.flatten ∧
      ∀ total, ttsEndFrame requestId total ∈
          (streamSynthesisToWs requestId voice link sentences).sent →
        chunks.flatten = sentences.flatten := by
  by_cases sends : SendsFrom link 0 ((subChunks sentences).length + 1)
  · obtain ⟨ending, only, sent⟩ := @sent_of_sends requestId voice link sentences sends
    have silent : ending.filter isChunk = [] := by
      rcases only with rfl | rfl
      · rfl
      · exact List.filter_cons_of_neg (by simp [isChunk_end])
    refine ⟨subChunks sentences, ?_, ?_, fun _ _ => flatten_subChunks sentences⟩
    · rw [sent, List.filter_append, List.filter_cons_of_neg (by simp [isChunk_start]),
        filter_chunkFrames, silent, List.append_nil]
    · rw [flatten_subChunks]
  · rcases @sent_of_broken requestId voice link sentences sends with nothing | ⟨chunks, front, sent⟩
    · refine ⟨[], ?_, List.nil_prefix, ?_⟩
      · rw [nothing]
        rfl
      · intro total member
        rw [nothing] at member
        contradiction
    · refine ⟨chunks, ?_, ?_, ?_⟩
      · rw [sent, List.filter_cons_of_neg (by simp [isChunk_start]), filter_chunkFrames]
      · have within := flatten_prefix front
        rwa [flatten_subChunks] at within
      · intro total member
        rw [sent] at member
        exact absurd member end_notMem

end

/-- **One answer, two ways.** The WAV that is kept for a streamed answer plays exactly the PCM
that was synthesized, at its rate; what went out over the WebSocket is a first part of that, and
the whole of it if the end went out. -/
theorem paths_agree {requestId : List Char} {voice : Voice} {link : Nat → SendOutcome}
    {sentences : List (List UInt8)} {driver : I2sDriver} {wav : List UInt8}
    (accepting : driver.Accepting) (samples : ∀ pcm ∈ sentences, pcm.length % 2 = 0)
    (wrapped : wrapWav (streamSynthesisToWs requestId voice link sentences).sink voice.sampleRate =
      some wav) (short : wav.length < 4294967296) (info : HeaderInfo) :
    ∃ fuel played chunks, playWav driver fuel wav info = some played ∧ played.err = .ok ∧
      played.calls.head? = some (.init voice.sampleRate 16 1) ∧
      played.calls.flatMap OutputCall.handed = sentences.flatten ∧
      (streamSynthesisToWs requestId voice link sentences).sent.filter isChunk =
        chunkFrames requestId 0 chunks ∧
      chunks.flatten <+: played.calls.flatMap OutputCall.handed ∧
      ∀ total, ttsEndFrame requestId total ∈
          (streamSynthesisToWs requestId voice link sentences).sent →
        chunks.flatten = played.calls.flatMap OutputCall.handed := by
  have even : sentences.flatten.length % 2 = 0 := by
    clear wrapped
    induction sentences with
    | nil => rfl
    | cons pcm rest inductionHypothesis =>
        have first := samples pcm List.mem_cons_self
        have others := inductionHypothesis fun other member =>
          samples other (List.mem_cons_of_mem _ member)
        rw [List.flatten_cons, List.length_append]
        omega
  rw [sink_streamSynthesisToWs] at wrapped
  obtain ⟨fuel, played, returned, ok, opened, handed⟩ :=
    playWav_wrapWav accepting even wrapped short info
  obtain ⟨chunks, sent, front, whole⟩ := @sent_chunks requestId voice link sentences
  refine ⟨fuel, played, chunks, returned, ok, opened, handed, sent, ?_, ?_⟩
  · rwa [handed]
  · rwa [handed]

/-- A reply of two sentences whose stream breaks between them. -/
theorem paths_agree_broken :
    ∃ fuel played chunks, playWav bytewiseDriver fuel ((wrapWav [1, 2, 3, 4] 22050).getD [])
        ⟨0, 0, 0, 0, 0⟩ = some played ∧ played.err = .ok ∧
      played.calls.head? = some (.init 22050 16 1) ∧
      played.calls.flatMap OutputCall.handed = [1, 2, 3, 4] ∧
      (streamSynthesisToWs ['a'] ⟨22050, by decide⟩
        (fun look => if look < 2 then .sent else .closed) [[1, 2], [3, 4]]).sent.filter isChunk =
          chunkFrames ['a'] 0 chunks ∧
      chunks.flatten <+: played.calls.flatMap OutputCall.handed := by
  obtain ⟨fuel, played, chunks, returned, ok, opened, handed, sent, front, -⟩ :=
    @paths_agree ['a'] ⟨22050, by decide⟩ (fun look => if look < 2 then .sent else .closed)
      [[1, 2], [3, 4]] bytewiseDriver ((wrapWav [1, 2, 3, 4] 22050).getD [])
      bytewiseDriver_accepting (by decide) (by rw [sink_streamSynthesisToWs]; rfl)
      (by decide +kernel) ⟨0, 0, 0, 0, 0⟩
  exact ⟨fuel, played, chunks, returned, ok, opened, handed, sent, front⟩

end WallUnit.Wire.DeliveryPaths
