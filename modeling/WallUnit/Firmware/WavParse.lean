import Mathlib
import WallUnit.Firmware.WavUtil
import WallUnit.Foundations.Walk

/-!
Owns `wav_parse` of `wav_util.c` in the 32-bit arithmetic of the unit: the checks of
the RIFF header, the chunk walk, what it writes to the caller's info, and the offset
of every byte it reads. `safe_iff` says for which files the walk ends and stays
inside the file.

An offset is what is added to the pointer, which does not wrap round the buffer; a
byte read outside the file has no particular value.
-/

namespace WallUnit.Firmware.Wav

open WallUnit.Foundations

/-- Addition of `size_t` and `uint32_t`. -/
def add32 (left right : Nat) : Nat := (left + right) % 4294967296

/-- `wav_header_info_t`. -/
structure HeaderInfo where
  sampleRate : Nat
  channels : Nat
  bitsPerSample : Nat
  dataOffset : Nat
  dataSize : Nat
deriving DecidableEq, Repr

def byteAt (wav : List UInt8) (offset : Nat) : Nat := (wav.getD offset 0).toNat

/-- A `uint16_t` copied from the file. -/
def le16 (wav : List UInt8) (offset : Nat) : Nat :=
  byteAt wav offset + 256 * byteAt wav (offset + 1)

/-- A `uint32_t` copied from the file. -/
def le32 (wav : List UInt8) (offset : Nat) : Nat :=
  le16 wav offset + 65536 * le16 wav (offset + 2)

/-- `memcmp(wav + offset, tag, 4) == 0`. -/
def tagAt (wav : List UInt8) (offset : Nat) (tag : String) : Bool :=
  decide ((wav.drop offset).take 4 = ascii tag)

/-! ### The chunk walk -/

/-- `chunk_size` of the chunk at `p`. -/
def chunkSize (wav : List UInt8) (p : Nat) : Nat := le32 wav (p + 4)

/-- `p += 8 + chunk_size`. -/
def nextChunk (wav : List UInt8) (p : Nat) : Nat := add32 p (add32 8 (chunkSize wav p))

/-- The test of the loop. -/
def hasHeader (wav : List UInt8) (p : Nat) : Bool := decide (add32 p 8 ≤ wav.length)

/-- The test of the first branch. -/
def readsFormat (wav : List UInt8) (p : Nat) : Bool :=
  tagAt wav p "fmt " && decide (add32 (add32 p 8) 16 ≤ wav.length)

/-- The test of the branch that leaves the loop. -/
def readsData (wav : List UInt8) (p : Nat) : Bool := !readsFormat wav p && tagAt wav p "data"

/-- The offsets read in one iteration at `p`. -/
def chunkReads (wav : List UInt8) (p : Nat) : List Nat :=
  List.range' (p + 4) 4 ++ List.range' p 4 ++
    if readsFormat wav p then
      [p + 10, p + 11] ++ List.range' (p + 12) 4 ++ [p + 22, p + 23]
    else List.range' p 4

/-- What one iteration at `p` writes. -/
def chunkInfo (wav : List UInt8) (p : Nat) (info : HeaderInfo) : HeaderInfo :=
  if readsFormat wav p then
    { info with
      channels := le16 wav (p + 10)
      sampleRate := le32 wav (p + 12)
      bitsPerSample := le16 wav (p + 22) }
  else if readsData wav p then
    { info with dataOffset := add32 p 8, dataSize := chunkSize wav p }
  else info

/-- The `while` loop with a bound on its iterations; `none` when the bound is used
up. -/
def chunkWalk (wav : List UInt8) : Nat → Nat → HeaderInfo → Option (HeaderInfo × List Nat)
  | 0, _, _ => none
  | fuel + 1, p, info =>
      if hasHeader wav p then
        if readsData wav p then some (chunkInfo wav p info, chunkReads wav p)
        else
          (chunkWalk wav fuel (nextChunk wav p) (chunkInfo wav p info)).map fun rest =>
            (rest.1, chunkReads wav p ++ rest.2)
      else some (info, [])

/-- What `wav_parse` returns, leaves in `info`, and has read. -/
structure ParseResult where
  err : EspErr
  info : HeaderInfo
  reads : List Nat
deriving DecidableEq, Repr

/-- The two comparisons of the RIFF header; the second one is made when the first
one holds. -/
def isWave (wav : List UInt8) : Bool := tagAt wav 0 "RIFF" && tagAt wav 8 "WAVE"

def riffReads (wav : List UInt8) : List Nat :=
  List.range' 0 4 ++ if tagAt wav 0 "RIFF" then List.range' 8 4 else []

/-- `wav_parse`, with a bound on the iterations of its loop. -/
def wavParse (fuel : Nat) (wav : List UInt8) (info : HeaderInfo) : Option ParseResult :=
  if wav.length < 44 then some ⟨.invalidSize, info, []⟩
  else if !isWave wav then some ⟨.invalidArg, info, riffReads wav⟩
  else
    (chunkWalk wav fuel 12 ⟨0, 1, 16, 0, 0⟩).map fun walked =>
      let found := walked.1
      let err := if found.dataOffset = 0 ∨ found.sampleRate = 0 then EspErr.notFound else .ok
      ⟨err, found, riffReads wav ++ walked.2⟩

/-- The function returns, and every byte it has read lies inside the file. -/
def Safe (wav : List UInt8) (info : HeaderInfo) : Prop :=
  ∃ fuel result, wavParse fuel wav info = some result ∧ ∀ offset ∈ result.reads, offset < wav.length

/-! ### When it is safe -/

/-- The walk goes on past the chunk at `p`. -/
def GoesOn (wav : List UInt8) (p : Nat) : Prop :=
  hasHeader wav p = true ∧ readsData wav p = false

/-- The chunk walk of the file comes to a header at its `count`-th chunk. -/
def ComesTo (wav : List UInt8) (start count : Nat) : Prop :=
  Walks (nextChunk wav) (GoesOn wav) start count ∧
    hasHeader wav ((nextChunk wav)^[count] start) = true

/-- The header at `p`, and the format it may hold, end below 2^32. -/
def BelowWrap (wav : List UInt8) (p : Nat) : Prop :=
  p + 8 < 4294967296 ∧ (tagAt wav p "fmt " = true → p + 24 < 4294967296)

/-- The chunks of the file never lead back to a header already passed, and no header
the walk comes to is so close to 2^32 that its end wraps. -/
structure Sane (wav : List UInt8) : Prop where
  neverReturns : NeverReturns (nextChunk wav) (GoesOn wav) 12
  belowWrap : ∀ count, ComesTo wav 12 count → BelowWrap wav ((nextChunk wav)^[count] 12)

section

variable {wav : List UInt8}

theorem comesTo_zero {start : Nat} : ComesTo wav start 0 ↔ hasHeader wav start = true := by
  simp [ComesTo, walks_zero]

theorem comesTo_succ {start count : Nat} :
    ComesTo wav start (count + 1) ↔
      GoesOn wav start ∧ ComesTo wav (nextChunk wav start) count := by
  rw [ComesTo, walks_succ, and_assoc, Function.iterate_succ_apply, ComesTo]

/-- The loop is cut off exactly when it would go on. -/
theorem chunkWalk_eq_none {fuel start : Nat} {info : HeaderInfo} :
    chunkWalk wav fuel start info = none ↔
      Walks (nextChunk wav) (GoesOn wav) start fuel := by
  induction fuel generalizing start info with
  | zero => simp [chunkWalk, walks_zero]
  | succ fuel inductionHypothesis =>
      rw [chunkWalk, walks_succ]
      by_cases header : hasHeader wav start = true
      · by_cases data : readsData wav start = true
        · simp [header, data, GoesOn]
        · have goesOn : GoesOn wav start := ⟨header, by simpa using data⟩
          simp [header, data, goesOn, inductionHypothesis]
      · simp [header, GoesOn]

/-- The loop reads what it reads at the headers it comes to. -/
theorem mem_chunkWalk {fuel start : Nat} {info : HeaderInfo} {walked : HeaderInfo × List Nat}
    (ended : chunkWalk wav fuel start info = some walked) (offset : Nat) :
    offset ∈ walked.2 ↔
      ∃ count, ComesTo wav start count ∧
        offset ∈ chunkReads wav ((nextChunk wav)^[count] start) := by
  induction fuel generalizing start info walked with
  | zero => contradiction
  | succ fuel inductionHypothesis =>
      rw [chunkWalk] at ended
      by_cases header : hasHeader wav start = true
      swap
      · rw [if_neg header] at ended
        obtain rfl := Option.some.inj ended
        constructor
        · intro member
          contradiction
        · rintro ⟨count, comes, -⟩
          cases count with
          | zero => exact absurd (comesTo_zero.mp comes) header
          | succ count => exact absurd (comesTo_succ.mp comes).1.1 header
      rw [if_pos header] at ended
      by_cases data : readsData wav start = true
      · rw [if_pos data] at ended
        obtain rfl := Option.some.inj ended
        constructor
        · intro member
          exact ⟨0, comesTo_zero.mpr header, member⟩
        · rintro ⟨count, comes, member⟩
          cases count with
          | zero => exact member
          | succ count =>
              have goesOn := (comesTo_succ.mp comes).1.2
              rw [data] at goesOn
              contradiction
      · rw [if_neg data] at ended
        obtain ⟨rest, later, rfl⟩ := Option.map_eq_some_iff.mp ended
        have goesOn : GoesOn wav start := ⟨header, by simpa using data⟩
        rw [List.mem_append, inductionHypothesis later]
        constructor
        · rintro (here | ⟨count, comes, member⟩)
          · exact ⟨0, comesTo_zero.mpr header, here⟩
          · exact ⟨count + 1, comesTo_succ.mpr ⟨goesOn, comes⟩, member⟩
        · rintro ⟨count, comes, member⟩
          cases count with
          | zero => exact Or.inl member
          | succ count => exact Or.inr ⟨count, (comesTo_succ.mp comes).2, member⟩

/-- An iteration stays inside the file exactly when its header does not wrap. -/
theorem chunkReads_inside {p : Nat} (long : 44 ≤ wav.length) (short : wav.length < 4294967296)
    (header : hasHeader wav p = true) :
    (∀ offset ∈ chunkReads wav p, offset < wav.length) ↔ BelowWrap wav p := by
  have guard : add32 p 8 ≤ wav.length := by simpa [hasHeader] using header
  constructor
  · intro inside
    have size := inside (p + 7) (by simp [chunkReads, List.mem_range'_1])
    refine ⟨by omega, fun format => ?_⟩
    by_contra wraps
    have reads : readsFormat wav p = true := by
      rw [readsFormat, format, Bool.true_and]
      apply decide_eq_true
      unfold add32
      omega
    have last := inside (p + 23) (by simp [chunkReads, reads])
    omega
  · rintro ⟨below, format⟩ offset member
    have whole : p + 8 ≤ wav.length := by
      rwa [add32, Nat.mod_eq_of_lt below] at guard
    by_cases reads : readsFormat wav p = true
    · have both := reads
      simp only [readsFormat, Bool.and_eq_true, decide_eq_true_eq] at both
      have top := format both.1
      have room : p + 24 ≤ wav.length := by
        have end_ := both.2
        rw [add32, add32, Nat.mod_eq_of_lt below, Nat.mod_eq_of_lt (by omega)] at end_
        omega
      simp [chunkReads, reads, List.mem_range'_1] at member
      omega
    · simp [chunkReads, reads, List.mem_range'_1] at member
      omega

theorem finite_walk : (Set.range fun count => (nextChunk wav)^[count] 12).Finite := by
  apply (Set.finite_lt_nat 4294967296).subset
  rintro p ⟨count, rfl⟩
  cases count with
  | zero =>
      show 12 < 4294967296
      decide
  | succ count =>
      show (nextChunk wav)^[count + 1] 12 < 4294967296
      rw [Function.iterate_succ_apply']
      exact Nat.mod_lt _ (by decide)

theorem riffReads_inside (long : 44 ≤ wav.length) :
    ∀ offset ∈ riffReads wav, offset < wav.length := by
  intro offset member
  unfold riffReads at member
  split_ifs at member <;> simp [List.mem_range'_1] at member <;> omega

/-- The chunk walk ends and stays inside the file exactly when its chunks are
sane. -/
theorem walk_safe_iff (long : 44 ≤ wav.length) (short : wav.length < 4294967296)
    (info : HeaderInfo) :
    (∃ fuel walked, chunkWalk wav fuel 12 info = some walked ∧
      ∀ offset ∈ walked.2, offset < wav.length) ↔ Sane wav := by
  constructor
  · rintro ⟨fuel, walked, ended, inside⟩
    constructor
    · apply (ends_iff_neverReturns finite_walk).mp
      by_contra endless
      have walks : Walks (nextChunk wav) (GoesOn wav) 12 fuel := by
        intro move _
        by_contra ends
        exact endless ⟨move, ends⟩
      rw [chunkWalk_eq_none.mpr walks] at ended
      contradiction
    · intro count comes
      apply (chunkReads_inside long short comes.2).mp
      intro offset member
      exact inside offset ((mem_chunkWalk ended offset).mpr ⟨count, comes, member⟩)
  · rintro ⟨never, below⟩
    obtain ⟨move, ends⟩ := (ends_iff_neverReturns finite_walk).mpr never
    cases ended : chunkWalk wav (move + 1) 12 info with
    | none => exact absurd (chunkWalk_eq_none.mp ended move (Nat.lt_succ_self move)) ends
    | some walked =>
        refine ⟨move + 1, walked, ended, fun offset member => ?_⟩
        obtain ⟨count, comes, reads⟩ := (mem_chunkWalk ended offset).mp member
        exact (chunkReads_inside long short comes.2).mpr (below count comes) offset reads

end

theorem wavParse_of_wave {wav : List UInt8} (long : ¬ wav.length < 44) (wave : isWave wav = true)
    (fuel : Nat) (info : HeaderInfo) :
    wavParse fuel wav info = (chunkWalk wav fuel 12 ⟨0, 1, 16, 0, 0⟩).map fun walked =>
      ⟨if walked.1.dataOffset = 0 ∨ walked.1.sampleRate = 0 then .notFound else .ok, walked.1,
        riffReads wav ++ walked.2⟩ := by
  simp [wavParse, long, wave]

/-- `wav_parse` returns and stays inside the file exactly when it rejects the RIFF
header or the chunks are sane. -/
theorem safe_iff (wav : List UInt8) (info : HeaderInfo) (short : wav.length < 4294967296) :
    Safe wav info ↔ wav.length < 44 ∨ isWave wav = false ∨ Sane wav := by
  by_cases brief : wav.length < 44
  · exact iff_of_true ⟨0, _, if_pos brief, by simp⟩ (Or.inl brief)
  have long : 44 ≤ wav.length := by omega
  cases wave : isWave wav with
  | false =>
      refine iff_of_true ⟨0, ⟨.invalidArg, info, riffReads wav⟩, ?_, riffReads_inside long⟩
        (Or.inr (Or.inl rfl))
      simp [wavParse, brief, wave]
  | true =>
      have walks := walk_safe_iff long short ⟨0, 1, 16, 0, 0⟩
      have parse := fun fuel => wavParse_of_wave brief wave fuel info
      constructor
      · rintro ⟨fuel, result, returned, inside⟩
        rw [parse] at returned
        obtain ⟨walked, ended, rfl⟩ := Option.map_eq_some_iff.mp returned
        exact Or.inr (Or.inr (walks.mp ⟨fuel, walked, ended,
          fun offset member => inside offset (List.mem_append_right _ member)⟩))
      · intro sane
        have chunks : Sane wav := by
          rcases sane with less | bad | chunks
          · omega
          · contradiction
          · exact chunks
        obtain ⟨fuel, walked, ended, inside⟩ := walks.mpr chunks
        refine ⟨fuel, _, (parse fuel).trans (congrArg _ ended), fun offset member => ?_⟩
        rcases List.mem_append.mp member with header | walk
        · exact riffReads_inside long offset header
        · exact inside offset walk

/-- A file whose only chunk claims 0xFFFFFFF8 bytes. -/
def stuckFile : List UInt8 :=
  ascii "RIFF" ++ littleEndian 4 36 ++ ascii "WAVE" ++ ascii "LIST" ++
    littleEndian 4 4294967288 ++ List.replicate 24 0

/-- An empty file of PCM at 16 kHz. -/
def emptyFile : List UInt8 := wavWrap [] 16000

theorem sane_emptyFile : Sane emptyFile := by
  have parsed : Safe emptyFile ⟨0, 0, 0, 0, 0⟩ :=
    ⟨3, ⟨.ok, ⟨16000, 1, 16, 44, 0⟩, _⟩, rfl, by decide +kernel⟩
  rcases (safe_iff emptyFile ⟨0, 0, 0, 0, 0⟩ (by decide +kernel)).mp parsed with
    short | bad | sane
  · exact absurd short (by decide +kernel)
  · exact absurd bad (by decide +kernel)
  · exact sane

theorem safe_not_of_stuckFile :
    ¬ ∀ (wav : List UInt8) (info : HeaderInfo), wav.length < 4294967296 → Safe wav info := by
  intro safe
  obtain ⟨fuel, result, returned, -⟩ := safe stuckFile ⟨0, 0, 0, 0, 0⟩ (by decide +kernel)
  have stays : nextChunk stuckFile 12 = 12 := by decide +kernel
  have endless : Walks (nextChunk stuckFile) (GoesOn stuckFile) 12 fuel := by
    intro move _
    rw [Function.iterate_fixed stays]
    exact ⟨by decide +kernel, by decide +kernel⟩
  rw [wavParse_of_wave (by decide +kernel) (by decide +kernel),
    chunkWalk_eq_none.mpr endless] at returned
  contradiction

end WallUnit.Firmware.Wav
