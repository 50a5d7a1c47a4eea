import WallUnit.Firmware.WavParse

/-!
Owns RIFF files as lists of chunks and what `wav_parse` makes of them: it reads back
what `wav_wrap` writes, and it finds the audio of a file exactly when no chunk before
the data chunk has an odd size, accidents apart. The loop skips a chunk by its size and
not by the byte that pads an odd one.

Does not own the walk itself, which `WavParse` embeds.
-/

namespace WallUnit.Firmware.Wav

open WallUnit.Foundations

/-! ### The loop as a relation -/

/-- One iteration that goes on: where the loop stands and what it has found, before and
after. -/
def Iteration (wav : List UInt8) (before after : Nat × HeaderInfo) : Prop :=
  GoesOn wav before.1 ∧ after = (nextChunk wav before.1, chunkInfo wav before.1 before.2)

/-- Any number of iterations. -/
abbrev Passes (wav : List UInt8) : Nat × HeaderInfo → Nat × HeaderInfo → Prop :=
  Relation.ReflTransGen (Iteration wav)

section

variable {wav : List UInt8}

theorem iteration_unique {before left right : Nat × HeaderInfo} (one : Iteration wav before left)
    (other : Iteration wav before right) : left = right :=
  one.2.trans other.2.symm

/-- At the data chunk the loop ends. -/
theorem eq_of_passes_data {start : Nat} {info : HeaderInfo} {after : Nat × HeaderInfo}
    (data : readsData wav start = true) (passes : Passes wav (start, info) after) :
    after = (start, info) := by
  cases passes.cases_head with
  | inl here => exact here.symm
  | inr later =>
      obtain ⟨next, ⟨goesOn, -⟩, -⟩ := later
      rw [goesOn.2] at data
      contradiction

/-- The loop, from where it comes to the data chunk. -/
theorem chunkWalk_of_passes {start stop : Nat} {info found : HeaderInfo}
    (passes : Passes wav (start, info) (stop, found)) (header : hasHeader wav stop = true)
    (data : readsData wav stop = true) :
    ∃ fuel reads, chunkWalk wav fuel start info = some (chunkInfo wav stop found, reads) := by
  have ends : ∀ at_ : Nat × HeaderInfo, Passes wav at_ (stop, found) →
      ∃ fuel reads, chunkWalk wav fuel at_.1 at_.2 = some (chunkInfo wav stop found, reads) := by
    intro at_ passes
    induction passes using Relation.ReflTransGen.head_induction_on with
    | refl =>
        refine ⟨1, chunkReads wav stop, ?_⟩
        rw [chunkWalk, if_pos header, if_pos data]
    | @head before _ one _ inductionHypothesis =>
        obtain ⟨goesOn, rfl⟩ := one
        obtain ⟨fuel, reads, walked⟩ := inductionHypothesis
        refine ⟨fuel + 1, chunkReads wav before.1 ++ reads, ?_⟩
        rw [chunkWalk, if_pos goesOn.1, if_neg (by simp [goesOn.2]), walked]
        rfl
  exact ends (start, info) passes

/-- Where the loop ends: at the data chunk, or where no header fits. -/
theorem passes_of_chunkWalk {fuel start : Nat} {info : HeaderInfo} {walked : HeaderInfo × List Nat}
    (ended : chunkWalk wav fuel start info = some walked) :
    ∃ stop found, Passes wav (start, info) (stop, found) ∧
      ((hasHeader wav stop = true ∧ readsData wav stop = true ∧
          walked.1 = chunkInfo wav stop found) ∨
        (hasHeader wav stop = false ∧ walked.1 = found)) := by
  induction fuel generalizing start info walked with
  | zero => contradiction
  | succ fuel inductionHypothesis =>
      rw [chunkWalk] at ended
      cases header : hasHeader wav start with
      | false =>
          rw [header, if_neg (by decide)] at ended
          cases ended
          exact ⟨start, info, .refl, Or.inr ⟨header, rfl⟩⟩
      | true =>
          rw [header, if_pos rfl] at ended
          cases data : readsData wav start with
          | true =>
              rw [data, if_pos rfl] at ended
              cases ended
              exact ⟨start, info, .refl, Or.inl ⟨header, data, rfl⟩⟩
          | false =>
              rw [data, if_neg (by decide)] at ended
              obtain ⟨rest, later, rfl⟩ := Option.map_eq_some_iff.mp ended
              obtain ⟨stop, found, passes, outcome⟩ := inductionHypothesis later
              exact ⟨stop, found, .head ⟨⟨header, data⟩, rfl⟩ passes, outcome⟩

/-- Before the data chunk the loop leaves its two fields as they were. -/
theorem dataFields_of_passes {before after : Nat × HeaderInfo} (passes : Passes wav before after) :
    after.2.dataOffset = before.2.dataOffset ∧ after.2.dataSize = before.2.dataSize := by
  induction passes with
  | refl => exact ⟨rfl, rfl⟩
  | tail _ one inductionHypothesis =>
      obtain ⟨goesOn, rfl⟩ := one
      have same : ∀ p info, readsData wav p = false →
          (chunkInfo wav p info).dataOffset = info.dataOffset ∧
            (chunkInfo wav p info).dataSize = info.dataSize := by
        intro p info other
        unfold chunkInfo
        rw [if_neg (show ¬ readsData wav p = true by simp [other])]
        split_ifs <;> exact ⟨rfl, rfl⟩
      obtain ⟨offset, size⟩ := same _ _ goesOn.2
      exact ⟨offset.trans inductionHypothesis.1, size.trans inductionHypothesis.2⟩

/-- More iterations than the loop needs change nothing. -/
theorem chunkWalk_more {fuel start : Nat} {info : HeaderInfo} {walked : HeaderInfo × List Nat}
    (ended : chunkWalk wav fuel start info = some walked) (extra : Nat) :
    chunkWalk wav (fuel + extra) start info = some walked := by
  induction fuel generalizing start info walked with
  | zero => contradiction
  | succ fuel inductionHypothesis =>
      rw [Nat.add_right_comm, chunkWalk]
      rw [chunkWalk] at ended
      split_ifs at ended ⊢ with header data
      · exact ended
      · obtain ⟨rest, later, rfl⟩ := Option.map_eq_some_iff.mp ended
        rw [inductionHypothesis later]
        rfl
      · exact ended

end

theorem chunkInfo_data {wav : List UInt8} {p : Nat} (data : readsData wav p = true)
    (info : HeaderInfo) :
    chunkInfo wav p info =
      { info with dataOffset := add32 p 8, dataSize := chunkSize wav p } := by
  have other : ¬ readsFormat wav p = true := by
    intro format
    simp [readsData, format] at data
  rw [chunkInfo, if_neg other, if_pos data]

/-- What `wav_parse` returns does not depend on the bound of its loop. -/
theorem wavParse_unique {wav : List UInt8} {info : HeaderInfo} {first second : Nat}
    {one other : ParseResult} (returned : wavParse first wav info = some one)
    (again : wavParse second wav info = some other) : one = other := by
  by_cases brief : wav.length < 44
  · rw [wavParse, if_pos brief] at returned again
    exact Option.some.inj (returned.symm.trans again)
  cases wave : isWave wav with
  | false =>
      simp only [wavParse, if_neg brief, wave, Bool.not_false, if_true] at returned again
      exact Option.some.inj (returned.symm.trans again)
  | true =>
      rw [wavParse_of_wave brief wave] at returned again
      obtain ⟨left, ended, rfl⟩ := Option.map_eq_some_iff.mp returned
      obtain ⟨right, endedToo, rfl⟩ := Option.map_eq_some_iff.mp again
      have same : left = right := by
        have more := chunkWalk_more ended second
        rw [Nat.add_comm, chunkWalk_more endedToo first] at more
        exact (Option.some.inj more).symm
      rw [same]

/-- `wav_parse` accepts the file and finds `found` in it. -/
def Accepts (wav : List UInt8) (found : HeaderInfo) : Prop :=
  ∃ fuel info reads, wavParse fuel wav info = some ⟨.ok, found, reads⟩

section

variable {wav : List UInt8} {found : HeaderInfo}

theorem accepts_of_parsed {fuel : Nat} {info : HeaderInfo}
    (parsed : (wavParse fuel wav info).map (fun result => (result.err, result.info)) =
      some (.ok, found)) : Accepts wav found := by
  obtain ⟨result, returned, fields⟩ := Option.map_eq_some_iff.mp parsed
  have err : result.err = .ok := congrArg Prod.fst fields
  have info : result.info = found := congrArg Prod.snd fields
  refine ⟨fuel, _, result.reads, returned.trans ?_⟩
  rw [← err, ← info]

/-- An accepted file passes the checks of the RIFF header, and the loop ends at its data
chunk. -/
theorem walk_of_accepts (accepts : Accepts wav found) :
    ¬ wav.length < 44 ∧ isWave wav = true ∧ found.dataOffset ≠ 0 ∧ found.sampleRate ≠ 0 ∧
      ∃ fuel reads, chunkWalk wav fuel 12 ⟨0, 1, 16, 0, 0⟩ = some (found, reads) := by
  obtain ⟨fuel, info, reads, returned⟩ := accepts
  by_cases brief : wav.length < 44
  · rw [wavParse, if_pos brief] at returned
    cases returned
  cases wave : isWave wav with
  | false =>
      simp only [wavParse, if_neg brief, wave, Bool.not_false, if_true] at returned
      cases returned
  | true =>
      rw [wavParse_of_wave brief wave] at returned
      obtain ⟨walked, ended, result⟩ := Option.map_eq_some_iff.mp returned
      have same : walked.1 = found := congrArg ParseResult.info result
      have err := congrArg ParseResult.err result
      dsimp only at err
      split_ifs at err with missing
      rw [same, not_or] at missing
      exact ⟨brief, rfl, missing.1, missing.2, fuel, walked.2, by rw [ended, ← same]⟩

/-- The answer does not depend on what `info` held, nor on a larger bound. -/
theorem wavParse_of_accepts (accepts : Accepts wav found) :
    ∃ bound reads, ∀ extra info,
      wavParse (bound + extra) wav info = some ⟨.ok, found, reads⟩ := by
  obtain ⟨long, wave, offset, rate, fuel, reads, walked⟩ := walk_of_accepts accepts
  refine ⟨fuel, riffReads wav ++ reads, ?_⟩
  intro extra info
  rw [wavParse_of_wave long wave, chunkWalk_more walked, Option.map_some,
    if_neg (not_or.mpr ⟨offset, rate⟩)]

theorem chunkSize_lt (wav : List UInt8) (p : Nat) : chunkSize wav p < 4294967296 := by
  have bound := fun offset => (wav.getD offset 0).toNat_lt
  have one := bound (p + 4)
  have two := bound (p + 4 + 1)
  have three := bound (p + 4 + 2)
  have four := bound (p + 4 + 2 + 1)
  simp only [chunkSize, le32, le16, byteAt]
  omega

/-- The place found starts in the file, and its size is a 32-bit number. -/
theorem bounds_of_accepts (accepts : Accepts wav found) :
    found.dataOffset ≤ wav.length ∧ found.dataSize < 4294967296 := by
  obtain ⟨-, -, offset, -, fuel, reads, walked⟩ := walk_of_accepts accepts
  obtain ⟨stop, left, passes, outcome⟩ := passes_of_chunkWalk walked
  rcases outcome with ⟨header, data, result⟩ | ⟨-, result⟩
  · rw [chunkInfo_data data] at result
    dsimp only at result
    rw [result]
    exact ⟨of_decide_eq_true header, chunkSize_lt wav stop⟩
  · -- without a data chunk the offset is still 0
    dsimp only at result
    rw [result, (dataFields_of_passes passes).1] at offset
    contradiction

end

/-! ### RIFF files -/

/-- A chunk: four bytes of id, and a body. -/
structure Chunk where
  id : List UInt8
  body : List UInt8
  id_length : id.length = 4
deriving DecidableEq, Repr

/-- The byte that pads a body of odd size. -/
def Chunk.pad (chunk : Chunk) : List UInt8 := if chunk.body.length % 2 = 1 then [0] else []

def Chunk.bytes (chunk : Chunk) : List UInt8 :=
  chunk.id ++ littleEndian 4 chunk.body.length ++ chunk.body ++ chunk.pad

def Chunk.isFormat (chunk : Chunk) : Bool := decide (chunk.id = ascii "fmt ")

/-- What the loop keeps of a chunk in `info`: the fields of a format. -/
def Chunk.record (chunk : Chunk) (info : HeaderInfo) : HeaderInfo :=
  if chunk.isFormat then
    { info with
      channels := le16 chunk.body 2
      sampleRate := le32 chunk.body 4
      bitsPerSample := le16 chunk.body 14 }
  else info

def recordAll (chunks : List Chunk) (info : HeaderInfo) : HeaderInfo :=
  chunks.foldl (fun info chunk => chunk.record info) info

def dataChunk (audio : List UInt8) : Chunk := ⟨ascii "data", audio, rfl⟩

def riffBytes (chunks : List Chunk) : List UInt8 :=
  ascii "RIFF" ++ littleEndian 4 (4 + (chunks.flatMap Chunk.bytes).length) ++ ascii "WAVE" ++
    chunks.flatMap Chunk.bytes

/-- `info` after the `memset` and the two defaults. -/
def blankInfo : HeaderInfo := ⟨0, 1, 16, 0, 0⟩

/-- A well-formed file: chunks before the data chunk, one of them the format, the data
chunk, and chunks behind it. -/
structure WaveFile where
  before : List Chunk
  audio : List UInt8
  after : List Chunk
  format : Chunk
  noData : ∀ chunk ∈ before, chunk.id ≠ ascii "data"
  oneFormat : before.filter Chunk.isFormat = [format]
  wholeFormat : 16 ≤ format.body.length
  rate : le32 format.body 4 ≠ 0
  long : 44 ≤ (riffBytes (before ++ dataChunk audio :: after)).length
  short : (riffBytes (before ++ dataChunk audio :: after)).length < 4294967296

def WaveFile.bytes (file : WaveFile) : List UInt8 :=
  riffBytes (file.before ++ dataChunk file.audio :: file.after)

/-- Where the header of the data chunk stands. -/
def WaveFile.dataStart (file : WaveFile) : Nat := 12 + (file.before.flatMap Chunk.bytes).length

/-- The format's sample rate, channels and bits, and the place of the audio. -/
def WaveFile.info (file : WaveFile) : HeaderInfo :=
  { file.format.record blankInfo with
    dataOffset := file.dataStart + 8
    dataSize := file.audio.length }

/-- `wav_parse` returns `ESP_OK` and finds the audio. -/
def FindsAudio (file : WaveFile) : Prop :=
  ∀ info, ∃ fuel reads, wavParse fuel file.bytes info = some ⟨.ok, file.info, reads⟩

/-! ### Reading at an offset -/

theorem length_littleEndian (width value : Nat) : (littleEndian width value).length = width := by
  induction width generalizing value with
  | zero => rfl
  | succ width inductionHypothesis => rw [littleEndian, List.length_cons, inductionHypothesis]

section

variable (left right : List UInt8)

theorem byteAt_append_right (offset : Nat) :
    byteAt (left ++ right) (left.length + offset) = byteAt right offset := by
  rw [byteAt, byteAt, List.getD_append_right _ _ _ _ (Nat.le_add_right _ _),
    Nat.add_sub_cancel_left]

theorem byteAt_append_left {offset : Nat} (inside : offset < left.length) :
    byteAt (left ++ right) offset = byteAt left offset := by
  rw [byteAt, byteAt, List.getD_append _ _ _ _ inside]

theorem le16_append_right (offset : Nat) :
    le16 (left ++ right) (left.length + offset) = le16 right offset := by
  rw [le16, le16, byteAt_append_right, Nat.add_assoc, byteAt_append_right]

theorem le16_append_left {offset : Nat} (inside : offset + 1 < left.length) :
    le16 (left ++ right) offset = le16 left offset := by
  rw [le16, le16, byteAt_append_left _ _ (by omega), byteAt_append_left _ _ inside]

theorem le32_append_right (offset : Nat) :
    le32 (left ++ right) (left.length + offset) = le32 right offset := by
  rw [le32, le32, le16_append_right, Nat.add_assoc, le16_append_right]

theorem le32_append_left {offset : Nat} (inside : offset + 3 < left.length) :
    le32 (left ++ right) offset = le32 left offset := by
  rw [le32, le32, le16_append_left _ _ (by omega), le16_append_left _ _ (by omega)]

end

theorem le32_littleEndian (value : Nat) : le32 (littleEndian 4 value) 0 = value % 4294967296 := by
  simp [le32, le16, byteAt, littleEndian]
  omega

/-! ### The loop over well-formed chunks -/

theorem Chunk.length_bytes (chunk : Chunk) :
    chunk.bytes.length = 8 + chunk.body.length + chunk.pad.length := by
  simp only [Chunk.bytes, List.length_append, chunk.id_length, length_littleEndian]

section

variable {wav left right : List UInt8} {chunk : Chunk}

/-- The bytes of a chunk in a file, by the header and the rest. -/
theorem Chunk.split (chunk : Chunk) (right : List UInt8) :
    chunk.bytes ++ right =
      (chunk.id ++ littleEndian 4 chunk.body.length) ++ (chunk.body ++ (chunk.pad ++ right)) := by
  simp only [Chunk.bytes, List.append_assoc]

theorem tagAt_chunk (split : wav = left ++ (chunk.bytes ++ right)) (tag : String) :
    tagAt wav left.length tag = decide (chunk.id = ascii tag) := by
  have four : (chunk.bytes ++ right).take 4 = chunk.id := by
    rw [chunk.split, List.append_assoc]
    exact List.take_left' chunk.id_length
  rw [tagAt, split, List.drop_left, four]

theorem chunkSize_chunk (split : wav = left ++ (chunk.bytes ++ right))
    (short : chunk.body.length < 4294967296) :
    chunkSize wav left.length = chunk.body.length := by
  have header : le32 (chunk.bytes ++ right) 4 = chunk.body.length := by
    have field : 0 + 3 < (littleEndian 4 chunk.body.length).length := by
      rw [length_littleEndian]
      decide
    have size := le32_append_right chunk.id
      (littleEndian 4 chunk.body.length ++ (chunk.body ++ (chunk.pad ++ right))) 0
    rw [chunk.id_length, le32_append_left (littleEndian 4 _) _ field, le32_littleEndian,
      Nat.mod_eq_of_lt short] at size
    rw [chunk.split, List.append_assoc]
    exact size
  rw [chunkSize, split, le32_append_right, header]

theorem le16_chunk (split : wav = left ++ (chunk.bytes ++ right)) {offset : Nat}
    (inside : offset + 1 < chunk.body.length) :
    le16 wav (left.length + (8 + offset)) = le16 chunk.body offset := by
  have eight : (chunk.id ++ littleEndian 4 chunk.body.length).length = 8 := by
    rw [List.length_append, chunk.id_length, length_littleEndian]
  have body := le16_append_right (chunk.id ++ littleEndian 4 chunk.body.length)
    (chunk.body ++ (chunk.pad ++ right)) offset
  rw [eight, le16_append_left _ _ inside] at body
  rw [split, le16_append_right, chunk.split, body]

theorem le32_chunk (split : wav = left ++ (chunk.bytes ++ right)) {offset : Nat}
    (inside : offset + 3 < chunk.body.length) :
    le32 wav (left.length + (8 + offset)) = le32 chunk.body offset := by
  rw [le32, le32, le16_chunk split (by omega), Nat.add_assoc, Nat.add_assoc,
    le16_chunk split (by omega)]

theorem length_chunk (split : wav = left ++ (chunk.bytes ++ right)) :
    left.length + 8 + chunk.body.length ≤ wav.length := by
  rw [split, List.length_append, List.length_append, chunk.length_bytes]
  omega

theorem hasHeader_chunk (split : wav = left ++ (chunk.bytes ++ right))
    (short : wav.length < 4294967296) : hasHeader wav left.length = true := by
  have length := length_chunk split
  apply decide_eq_true
  rw [add32, Nat.mod_eq_of_lt (by omega)]
  omega

theorem nextChunk_chunk (split : wav = left ++ (chunk.bytes ++ right))
    (short : wav.length < 4294967296) :
    nextChunk wav left.length = left.length + 8 + chunk.body.length := by
  have length := length_chunk split
  rw [nextChunk, chunkSize_chunk split (by omega), add32, add32, Nat.mod_eq_of_lt (by omega),
    Nat.mod_eq_of_lt (by omega)]
  omega

theorem readsFormat_chunk (split : wav = left ++ (chunk.bytes ++ right))
    (short : wav.length < 4294967296) (whole : chunk.isFormat = true → 16 ≤ chunk.body.length) :
    readsFormat wav left.length = chunk.isFormat := by
  have length := length_chunk split
  rw [readsFormat, tagAt_chunk split, ← Chunk.isFormat]
  cases format : chunk.isFormat with
  | false => rfl
  | true =>
      have long := whole format
      rw [Bool.true_and]
      apply decide_eq_true
      rw [add32, add32, Nat.mod_eq_of_lt (by omega), Nat.mod_eq_of_lt (by omega)]
      omega

/-- An iteration at a chunk that is not the data keeps what it should of it and moves
on by its size. -/
theorem iteration_chunk (split : wav = left ++ (chunk.bytes ++ right))
    (short : wav.length < 4294967296) (other : chunk.id ≠ ascii "data")
    (whole : chunk.isFormat = true → 16 ≤ chunk.body.length) (info : HeaderInfo) :
    Iteration wav (left.length, info)
      (left.length + 8 + chunk.body.length, chunk.record info) := by
  have format := readsFormat_chunk split short whole
  have data : readsData wav left.length = false := by
    rw [readsData, tagAt_chunk split, decide_eq_false other, Bool.and_false]
  refine ⟨⟨hasHeader_chunk split short, data⟩, ?_⟩
  rw [nextChunk_chunk split short]
  congr 1
  rw [chunkInfo, format, Chunk.record]
  cases marked : chunk.isFormat with
  | false => simp [data]
  | true =>
      have long := whole marked
      rw [if_pos rfl, if_pos rfl, ← le16_chunk split (by omega), ← le16_chunk split (by omega),
        ← le32_chunk split (by omega)]

end

/-- Over chunks of even size the loop goes from header to header. -/
theorem passes_chunks {wav left right : List UInt8} {chunks : List Chunk}
    (split : wav = left ++ (chunks.flatMap Chunk.bytes ++ right)) (short : wav.length < 4294967296)
    (other : ∀ chunk ∈ chunks, chunk.id ≠ ascii "data")
    (whole : ∀ chunk ∈ chunks, chunk.isFormat = true → 16 ≤ chunk.body.length)
    (even : ∀ chunk ∈ chunks, chunk.body.length % 2 = 0) (info : HeaderInfo) :
    Passes wav (left.length, info)
      (left.length + (chunks.flatMap Chunk.bytes).length, recordAll chunks info) := by
  induction chunks generalizing left info with
  | nil => exact .refl
  | cons chunk rest inductionHypothesis =>
      rw [List.forall_mem_cons] at other whole even
      rw [List.flatMap_cons, List.append_assoc] at split
      have one := iteration_chunk split short other.1 whole.1 info
      have unpadded : chunk.pad = [] := if_neg (by omega)
      have length : (left ++ chunk.bytes).length = left.length + 8 + chunk.body.length := by
        rw [List.length_append, chunk.length_bytes, unpadded, List.length_nil]
        omega
      have later := inductionHypothesis ((List.append_assoc _ _ _).symm ▸ split) other.2 whole.2
        even.2 (chunk.record info)
      have far : left.length + ((chunk :: rest).flatMap Chunk.bytes).length =
          (left ++ chunk.bytes).length + (rest.flatMap Chunk.bytes).length := by
        rw [List.flatMap_cons, List.length_append, List.length_append]
        omega
      rw [far]
      rw [length] at later ⊢
      exact .head one later

theorem recordAll_append (first second : List Chunk) (info : HeaderInfo) :
    recordAll (first ++ second) info = recordAll second (recordAll first info) :=
  List.foldl_append

/-- Only the formats among the chunks leave a trace. -/
theorem recordAll_filter (chunks : List Chunk) (info : HeaderInfo) :
    recordAll (chunks.filter Chunk.isFormat) info = recordAll chunks info := by
  induction chunks generalizing info with
  | nil => rfl
  | cons chunk rest inductionHypothesis =>
      cases marked : chunk.isFormat with
      | true =>
          rw [List.filter_cons_of_pos marked]
          exact inductionHypothesis (chunk.record info)
      | false =>
          have same : chunk.record info = info := by simp [Chunk.record, marked]
          rw [List.filter_cons_of_neg (by simp [marked]), inductionHypothesis]
          show recordAll rest info = recordAll rest (chunk.record info)
          rw [same]

/-! ### Well-formed files -/

namespace WaveFile

variable (file : WaveFile)

/-- The RIFF header of the file. -/
def head : List UInt8 :=
  ascii "RIFF" ++ littleEndian 4
    (4 + ((file.before ++ dataChunk file.audio :: file.after).flatMap Chunk.bytes).length) ++
    ascii "WAVE"

theorem length_head : file.head.length = 12 := rfl

theorem split : file.bytes = file.head ++ (file.before.flatMap Chunk.bytes ++
    ((dataChunk file.audio).bytes ++ file.after.flatMap Chunk.bytes)) := by
  rw [bytes, riffBytes, ← head, List.flatMap_append, List.flatMap_cons]

theorem split_data : file.bytes = (file.head ++ file.before.flatMap Chunk.bytes) ++
    ((dataChunk file.audio).bytes ++ file.after.flatMap Chunk.bytes) := by
  rw [split, List.append_assoc]

theorem length_beforeData :
    (file.head ++ file.before.flatMap Chunk.bytes).length = file.dataStart := by
  rw [List.length_append, length_head, dataStart]

theorem isWave_bytes : isWave file.bytes = true := by
  rw [isWave, tagAt, tagAt, split]
  rfl

theorem hasHeader_data : hasHeader file.bytes file.dataStart = true := by
  rw [← length_beforeData]
  exact hasHeader_chunk file.split_data file.short

theorem readsData_data : readsData file.bytes file.dataStart = true := by
  rw [← length_beforeData, readsData, readsFormat, tagAt_chunk file.split_data,
    tagAt_chunk file.split_data]
  rfl

theorem length_data : file.dataStart + 8 + file.audio.length ≤ file.bytes.length := by
  rw [← length_beforeData]
  exact length_chunk file.split_data

theorem chunkInfo_dataStart (info : HeaderInfo) :
    chunkInfo file.bytes file.dataStart info =
      { info with dataOffset := file.dataStart + 8, dataSize := file.audio.length } := by
  have length := file.length_data
  have short : file.bytes.length < 4294967296 := file.short
  have size := chunkSize_chunk file.split_data (show file.audio.length < 4294967296 by omega)
  rw [file.length_beforeData] at size
  rw [chunkInfo_data file.readsData_data, size, add32, Nat.mod_eq_of_lt (by omega)]
  rfl

theorem whole : ∀ chunk ∈ file.before, chunk.isFormat = true → 16 ≤ chunk.body.length := by
  intro chunk member marked
  have found : chunk ∈ file.before.filter Chunk.isFormat := List.mem_filter.mpr ⟨member, marked⟩
  rw [file.oneFormat, List.mem_singleton] at found
  rw [found]
  exact file.wholeFormat

theorem isFormat_format : file.format.isFormat = true := by
  have found : file.format ∈ file.before.filter Chunk.isFormat := by
    rw [file.oneFormat]
    exact List.mem_cons_self
  exact (List.mem_filter.mp found).2

theorem recordAll_before : recordAll file.before blankInfo = file.format.record blankInfo := by
  rw [← recordAll_filter, file.oneFormat]
  rfl

end WaveFile

/-- The loop stays below 2^32. -/
theorem passes_lt {wav : List UInt8} {before after : Nat × HeaderInfo}
    (below : before.1 < 4294967296) (passes : Passes wav before after) :
    after.1 < 4294967296 := by
  induction passes with
  | refl => exact below
  | tail _ one _ =>
      obtain ⟨-, rfl⟩ := one
      exact Nat.mod_lt _ (by decide)

/-- A format chunk says nothing of the data. -/
theorem record_blank (chunk : Chunk) :
    (chunk.record blankInfo).dataOffset = 0 ∧ (chunk.record blankInfo).dataSize = 0 := by
  unfold Chunk.record
  split_ifs <;> exact ⟨rfl, rfl⟩

/-- An answer with the right fields was read at the data chunk, with the fields of the
format. -/
theorem eq_of_info {file : WaveFile} {stop size : Nat} {found : HeaderInfo}
    (offset : found.dataOffset = 0) (noSize : found.dataSize = 0) (below : stop < 4294967296)
    (info : { found with dataOffset := add32 stop 8, dataSize := size } = file.info) :
    stop = file.dataStart ∧ found = file.format.record blankInfo := by
  constructor
  · have position : add32 stop 8 = file.dataStart + 8 := congrArg HeaderInfo.dataOffset info
    have inside := file.length_data
    have short : file.bytes.length < 4294967296 := file.short
    unfold add32 at position
    omega
  · obtain ⟨formatOffset, formatSize⟩ := record_blank file.format
    have rate := congrArg HeaderInfo.sampleRate info
    have channels := congrArg HeaderInfo.channels info
    have bits := congrArg HeaderInfo.bitsPerSample info
    rw [HeaderInfo.mk.injEq]
    exact ⟨rate, channels, bits, offset.trans formatOffset.symm, noSize.trans formatSize.symm⟩

theorem WaveFile.rate_info (file : WaveFile) : file.info.sampleRate ≠ 0 := by
  have recorded : file.info.sampleRate = le32 file.format.body 4 := by
    simp [WaveFile.info, Chunk.record, file.isFormat_format]
  rw [recorded]
  exact file.rate

/-- `wav_parse` finds the audio exactly when its loop comes to the data chunk with the
fields of the format. -/
theorem findsAudio_iff_passes (file : WaveFile) :
    FindsAudio file ↔
      Passes file.bytes (12, blankInfo) (file.dataStart, file.format.record blankInfo) := by
  have long : ¬ file.bytes.length < 44 := Nat.not_lt_of_le file.long
  have parse := fun fuel info => wavParse_of_wave long file.isWave_bytes fuel info
  constructor
  · intro finds
    obtain ⟨fuel, reads, returned⟩ := finds blankInfo
    rw [parse] at returned
    obtain ⟨walked, ended, result⟩ := Option.map_eq_some_iff.mp returned
    have info : walked.1 = file.info := congrArg ParseResult.info result
    obtain ⟨stop, found, passes, outcome⟩ := passes_of_chunkWalk ended
    obtain ⟨offset, size⟩ := dataFields_of_passes passes
    rcases outcome with ⟨-, data, left⟩ | ⟨-, left⟩
    · have below : stop < 4294967296 := passes_lt (by decide : 12 < 4294967296) passes
      rw [left, chunkInfo_data data] at info
      obtain ⟨here, kept⟩ := @eq_of_info file stop _ found offset size below info
      rwa [here, kept] at passes
    · -- no data chunk: `data_offset` is still 0
      have position : found.dataOffset = file.dataStart + 8 :=
        (congrArg HeaderInfo.dataOffset (left.symm.trans info))
      rw [offset] at position
      contradiction
  · intro passes info
    obtain ⟨fuel, reads, walked⟩ :=
      chunkWalk_of_passes passes file.hasHeader_data file.readsData_data
    refine ⟨fuel, riffReads file.bytes ++ reads, ?_⟩
    rw [parse, show (⟨0, 1, 16, 0, 0⟩ : HeaderInfo) = blankInfo from rfl, walked,
      file.chunkInfo_dataStart, ← WaveFile.info]
    have offset : file.info.dataOffset ≠ 0 := Nat.succ_ne_zero _
    rw [Option.map_some, if_neg (not_or.mpr ⟨offset, file.rate_info⟩)]

/-! ### Odd sizes -/

/-- The pad byte behind the first chunk of odd size. -/
def padPosition (evens : List Chunk) (odd : Chunk) : Nat :=
  12 + (evens.flatMap Chunk.bytes).length + 8 + odd.body.length

/-- The loop takes the pad byte behind the first chunk of odd size for the start of a
header. By accident the sizes it misreads from there on lead it to the data chunk, with
the fields of the format. -/
def LedByAccident (file : WaveFile) : Prop :=
  ∃ evens odd rest, file.before = evens ++ odd :: rest ∧
    (∀ chunk ∈ evens, chunk.body.length % 2 = 0) ∧ odd.body.length % 2 = 1 ∧
    Passes file.bytes (padPosition evens odd, recordAll (evens ++ [odd]) blankInfo)
      (file.dataStart, file.format.record blankInfo)

/-- The loop does come to that pad byte. -/
theorem passes_pad {file : WaveFile} {evens rest : List Chunk} {odd : Chunk}
    (split : file.before = evens ++ odd :: rest)
    (even : ∀ chunk ∈ evens, chunk.body.length % 2 = 0) :
    Passes file.bytes (12, blankInfo)
      (padPosition evens odd, recordAll (evens ++ [odd]) blankInfo) := by
  have evensSplit : file.bytes = file.head ++ (evens.flatMap Chunk.bytes ++ (odd.bytes ++
      (rest.flatMap Chunk.bytes ++ ((dataChunk file.audio).bytes ++
        file.after.flatMap Chunk.bytes)))) := by
    rw [file.split, split, List.flatMap_append, List.flatMap_cons]
    simp only [List.append_assoc]
  have inside : ∀ chunk ∈ evens, chunk ∈ file.before := by
    intro chunk member
    rw [split]
    exact List.mem_append_left _ member
  have oddInside : odd ∈ file.before := by
    rw [split]
    exact List.mem_append_right _ List.mem_cons_self
  have upToOdd := passes_chunks evensSplit file.short
    (fun chunk member => file.noData chunk (inside chunk member))
    (fun chunk member => file.whole chunk (inside chunk member)) even blankInfo
  have atOdd := iteration_chunk ((List.append_assoc _ _ _).symm ▸ evensSplit) file.short
    (file.noData odd oddInside) (file.whole odd oddInside) (recordAll evens blankInfo)
  rw [file.length_head] at upToOdd
  rw [List.length_append, file.length_head] at atOdd
  rw [recordAll_append]
  exact upToOdd.tail atOdd

theorem first_odd {chunks : List Chunk} (someOdd : ¬ ∀ chunk ∈ chunks, chunk.body.length % 2 = 0) :
    ∃ evens odd rest, chunks = evens ++ odd :: rest ∧
      (∀ chunk ∈ evens, chunk.body.length % 2 = 0) ∧ odd.body.length % 2 = 1 := by
  induction chunks with
  | nil => simp at someOdd
  | cons chunk rest inductionHypothesis =>
      by_cases even : chunk.body.length % 2 = 0
      · have later : ¬ ∀ chunk ∈ rest, chunk.body.length % 2 = 0 := by
          intro allEven
          exact someOdd (List.forall_mem_cons.mpr ⟨even, allEven⟩)
        obtain ⟨evens, odd, behind, split, evenBefore, isOdd⟩ := inductionHypothesis later
        refine ⟨chunk :: evens, odd, behind, ?_, List.forall_mem_cons.mpr ⟨even, evenBefore⟩, isOdd⟩
        rw [split, List.cons_append]
      · exact ⟨[], chunk, rest, rfl, by simp, by omega⟩

/-- Sizes that are all even lead from header to header, to the data chunk. -/
theorem findsAudio_of_even (file : WaveFile)
    (even : ∀ chunk ∈ file.before, chunk.body.length % 2 = 0) : FindsAudio file := by
  rw [findsAudio_iff_passes, ← file.recordAll_before]
  exact passes_chunks file.split file.short file.noData file.whole even blankInfo

/-- `wav_parse` finds the audio of a well-formed file exactly when every chunk before
the data has an even size, or an accident leads its loop there. -/
theorem findsAudio_iff (file : WaveFile) :
    FindsAudio file ↔
      (∀ chunk ∈ file.before, chunk.body.length % 2 = 0) ∨ LedByAccident file := by
  constructor
  · intro finds
    by_cases even : ∀ chunk ∈ file.before, chunk.body.length % 2 = 0
    · exact Or.inl even
    · right
      obtain ⟨evens, odd, rest, split, evenBefore, isOdd⟩ := first_odd even
      refine ⟨evens, odd, rest, split, evenBefore, isOdd, ?_⟩
      have toPad := passes_pad split evenBefore
      have toData := (findsAudio_iff_passes file).mp finds
      have unique : Relator.RightUnique (Iteration file.bytes) := fun _ _ _ => iteration_unique
      rcases Relation.ReflTransGen.total_of_right_unique unique toPad toData with onward | back
      · exact onward
      · -- the pad byte lies before the data chunk, where the loop ends
        have same := congrArg Prod.fst (eq_of_passes_data file.readsData_data back)
        have before : padPosition evens odd < file.dataStart := by
          rw [WaveFile.dataStart, split, List.flatMap_append, List.flatMap_cons,
            List.length_append, List.length_append, odd.length_bytes, Chunk.pad, if_pos isOdd]
          simp only [padPosition, List.length_singleton]
          omega
        exact absurd same (Nat.ne_of_lt before)
  · rintro (even | ⟨evens, odd, rest, split, evenBefore, -, onward⟩)
    · exact findsAudio_of_even file even
    · exact (findsAudio_iff_passes file).mpr ((passes_pad split evenBefore).trans onward)

/-- PCM at 16 kHz, one channel, 16 bits. -/
def pcmFormat (sampleRate : Nat) : Chunk where
  id := ascii "fmt "
  body := littleEndian 2 1 ++ littleEndian 2 1 ++ littleEndian 4 sampleRate ++
    littleEndian 4 (sampleRate * 16 % 2 ^ 32 / 8) ++ littleEndian 2 2 ++ littleEndian 2 16
  id_length := rfl

/-- A file with a list of one byte, padded, before its data. -/
def oddFile : WaveFile where
  before := [pcmFormat 16000, ⟨ascii "LIST", [0x00], rfl⟩]
  audio := []
  after := []
  format := pcmFormat 16000
  noData := by decide
  oneFormat := by decide
  wholeFormat := by decide
  rate := by decide
  long := by decide +kernel
  short := by decide +kernel

theorem findsAudio_not_of_oddFile : ¬ ∀ file : WaveFile, FindsAudio file := by
  intro finds
  obtain ⟨fuel, reads, returned⟩ := finds oddFile ⟨0, 0, 0, 0, 0⟩
  have misses : (wavParse 4 oddFile.bytes ⟨0, 0, 0, 0, 0⟩).map ParseResult.err =
      some .notFound := by decide +kernel
  obtain ⟨result, missed, err⟩ := Option.map_eq_some_iff.mp misses
  rw [wavParse_unique missed returned] at err
  contradiction

/-! ### What the unit writes -/

theorem length_pcmBytes (pcm : List Int) : (pcmBytes pcm).length = 2 * pcm.length := by
  induction pcm with
  | nil => rfl
  | cons sample rest inductionHypothesis =>
      rw [pcmBytes, List.flatMap_cons, ← pcmBytes, List.length_append, inductionHypothesis,
        sampleBytes, length_littleEndian, List.length_cons]
      omega

theorem pcmFormat_fields {sampleRate : Nat} (below : sampleRate < 4294967296) :
    le32 (pcmFormat sampleRate).body 4 = sampleRate ∧ le16 (pcmFormat sampleRate).body 2 = 1 ∧
      le16 (pcmFormat sampleRate).body 14 = 16 := by
  refine ⟨?_, rfl, rfl⟩
  simp [pcmFormat, le32, le16, byteAt, littleEndian]
  omega

theorem length_pcmFormat (sampleRate : Nat) : (pcmFormat sampleRate).body.length = 16 := rfl

theorem pad_pcmFormat (sampleRate : Nat) : (pcmFormat sampleRate).pad = [] := by
  rw [Chunk.pad, length_pcmFormat]
  rfl

/-- `wav_wrap` writes a format and the samples as chunks. -/
theorem wavWrap_eq {pcm : List Int} {sampleRate : Nat}
    (fits : 44 + 2 * pcm.length < 4294967296) :
    wavWrap pcm sampleRate = riffBytes [pcmFormat sampleRate, dataChunk (pcmBytes pcm)] := by
  have length := length_pcmBytes pcm
  have unpadded : (dataChunk (pcmBytes pcm)).pad = [] := by
    apply if_neg
    show ¬ (pcmBytes pcm).length % 2 = 1
    omega
  have dataSize : pcm.length * (1 * 16 / 8) % 2 ^ 32 = (pcmBytes pcm).length := by omega
  have wavSize : (44 + (pcmBytes pcm).length) % 2 ^ 32 - 8 =
      4 + ([pcmFormat sampleRate, dataChunk (pcmBytes pcm)].flatMap Chunk.bytes).length := by
    have format := (pcmFormat sampleRate).length_bytes
    rw [pad_pcmFormat, length_pcmFormat, List.length_nil] at format
    have data := (dataChunk (pcmBytes pcm)).length_bytes
    rw [unpadded, List.length_nil] at data
    rw [List.flatMap_cons, List.flatMap_cons, List.flatMap_nil, List.append_nil,
      List.length_append, format, data]
    show (44 + (pcmBytes pcm).length) % 2 ^ 32 - 8 =
      4 + (8 + 16 + 0 + (8 + (pcmBytes pcm).length + 0))
    omega
  simp only [wavWrap, dataSize, wavSize, List.take_length, riffBytes]
  simp only [List.flatMap_cons, List.flatMap_nil, Chunk.bytes, unpadded, pad_pcmFormat,
    length_pcmFormat, List.append_nil]
  simp only [pcmFormat, dataChunk, List.append_assoc, Nat.mul_one, Nat.one_mul, Nat.reduceDiv]

theorem length_wavWrap {pcm : List Int} (sampleRate : Nat)
    (fits : 44 + 2 * pcm.length < 4294967296) :
    (wavWrap pcm sampleRate).length = 44 + 2 * pcm.length := by
  have length := length_pcmBytes pcm
  have samples : ((pcmBytes pcm).take (pcm.length * (1 * 16 / 8) % 2 ^ 32)).length =
      2 * pcm.length := by
    rw [List.length_take]
    omega
  simp only [wavWrap, List.length_append, length_littleEndian, samples]
  show 4 + 4 + 4 + 4 + 4 + 2 + 2 + 4 + 4 + 2 + 2 + 4 + 4 + 2 * pcm.length = 44 + 2 * pcm.length
  omega

/-- The file of `wav_wrap`. -/
def wrappedFile (pcm : List Int) (sampleRate : Nat) (nonzero : sampleRate ≠ 0)
    (below : sampleRate < 4294967296) (fits : 44 + 2 * pcm.length < 4294967296) : WaveFile where
  before := [pcmFormat sampleRate]
  audio := pcmBytes pcm
  after := []
  format := pcmFormat sampleRate
  noData := by
    intro chunk member
    rw [List.mem_singleton.mp member]
    show ascii "fmt " ≠ ascii "data"
    decide
  oneFormat := rfl
  wholeFormat := Nat.le_refl _
  rate := by
    rw [(pcmFormat_fields below).1]
    exact nonzero
  long := by
    rw [List.singleton_append, ← wavWrap_eq fits, length_wavWrap sampleRate fits]
    omega
  short := by
    rw [List.singleton_append, ← wavWrap_eq fits, length_wavWrap sampleRate fits]
    exact fits

/-- `wav_parse` reads back what `wav_wrap` writes: the rate, one channel of 16 bits, and
the samples, little-endian, where it says they are. -/
theorem wavParse_wavWrap (pcm : List Int) (sampleRate : Nat) (nonzero : sampleRate ≠ 0)
    (below : sampleRate < 4294967296) (fits : 44 + 2 * pcm.length < 4294967296)
    (info : HeaderInfo) :
    (∃ fuel reads, wavParse fuel (wavWrap pcm sampleRate) info =
        some ⟨.ok, ⟨sampleRate, 1, 16, 44, 2 * pcm.length⟩, reads⟩) ∧
      ((wavWrap pcm sampleRate).drop 44).take (2 * pcm.length) = pcmBytes pcm := by
  have length := length_pcmBytes pcm
  constructor
  · have even : ∀ chunk ∈ (wrappedFile pcm sampleRate nonzero below fits).before,
        chunk.body.length % 2 = 0 := by
      intro chunk member
      rw [List.mem_singleton.mp member, length_pcmFormat]
    obtain ⟨fuel, reads, returned⟩ := findsAudio_of_even _ even info
    obtain ⟨rate, channels, bits⟩ := pcmFormat_fields below
    have found : (wrappedFile pcm sampleRate nonzero below fits).info =
        ⟨sampleRate, 1, 16, 44, 2 * pcm.length⟩ := by
      have start : (wrappedFile pcm sampleRate nonzero below fits).dataStart = 36 := by
        have format := (pcmFormat sampleRate).length_bytes
        rw [pad_pcmFormat, length_pcmFormat, List.length_nil] at format
        show 12 + ([pcmFormat sampleRate].flatMap Chunk.bytes).length = 36
        rw [List.flatMap_cons, List.flatMap_nil, List.append_nil, format]
      rw [WaveFile.info, start, Chunk.record, if_pos (WaveFile.isFormat_format _)]
      show (⟨le32 (pcmFormat sampleRate).body 4, le16 (pcmFormat sampleRate).body 2,
        le16 (pcmFormat sampleRate).body 14, 36 + 8, (pcmBytes pcm).length⟩ : HeaderInfo) = _
      rw [rate, channels, bits, length]
    rw [found] at returned
    rw [wavWrap_eq fits]
    exact ⟨fuel, reads, returned⟩
  · have dataSize : pcm.length * (1 * 16 / 8) % 2 ^ 32 = (pcmBytes pcm).length := by omega
    simp only [wavWrap, dataSize, List.take_length]
    rw [List.drop_left' (by simp only [List.length_append, length_littleEndian]; rfl), ← length,
      List.take_length]

/-- Three samples at a rate whose byte rate does not fit in 32 bits. -/
theorem wavParse_wavWrap_sample :
    ∃ fuel reads, wavParse fuel (wavWrap [0, -1, 32767] 4294967295) ⟨0, 0, 0, 0, 0⟩ =
      some ⟨.ok, ⟨4294967295, 1, 16, 44, 6⟩, reads⟩ :=
  (wavParse_wavWrap [0, -1, 32767] 4294967295 (by decide) (by decide) (by decide) _).1

end WallUnit.Firmware.Wav
