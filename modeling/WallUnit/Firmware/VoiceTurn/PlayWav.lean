import WallUnit.Firmware.WavChunks

/-!
Owns `play_wav` of `voice_turn.c`: the range it plays, in the 32-bit arithmetic of the
unit, and the loop that hands it to I2S. It plays exactly the audio of the file unless
the end of the data lies at 2^32 or beyond: `playsAudio_iff`.

Does not own the I2S driver: how much a write accepts is an input.
-/

namespace WallUnit.Firmware.VoiceTurn

open WallUnit.Firmware.Wav

/-- `PLAYBACK_CHUNK`. -/
def playbackChunk : Nat := 4096

/-- What `audio_out_init` answers, and how many bytes of a chunk each write accepts,
by its number. -/
structure I2sDriver where
  init : Nat → Nat → Nat → EspErr
  accepts : Nat → List UInt8 → Nat

/-- What `play_wav` asks of the audio output. -/
inductive OutputCall where
  | init (sampleRate bitsPerSample channels : Nat)
  | unmute
  | write (accepted : List UInt8)
  | mute
  | deinit
deriving DecidableEq, Repr

/-- The bytes handed to I2S. -/
def OutputCall.handed : OutputCall → List UInt8
  | .write accepted => accepted
  | _ => []

/-- The chunk of the next write. -/
def nextWrite (wav : List UInt8) (stop pos : Nat) : List UInt8 :=
  (wav.drop pos).take (if playbackChunk < stop - pos then playbackChunk else stop - pos)

/-- The `while` loop with a bound on its iterations: what each write hands over. -/
def playLoop (driver : I2sDriver) (wav : List UInt8) (stop : Nat) :
    Nat → Nat → Nat → Option (List (List UInt8))
  | 0, _, _ => none
  | fuel + 1, call, pos =>
      if pos < stop then
        let chunk := nextWrite wav stop pos
        let written := driver.accepts call chunk
        (playLoop driver wav stop fuel (call + 1) (add32 pos written)).map fun rest =>
          chunk.take written :: rest
      else some []

structure Played where
  err : EspErr
  calls : List OutputCall
deriving DecidableEq, Repr

/-- `end`, clamped to the file. -/
def playEnd (wav : List UInt8) (info : HeaderInfo) : Nat :=
  let stop := add32 info.dataOffset info.dataSize
  if wav.length < stop then wav.length else stop

/-- `play_wav`. `info` is the local before `wav_parse` writes it; `audio_out_init` takes
two of its arguments as `uint8_t`. -/
def playWav (driver : I2sDriver) (fuel : Nat) (wav : List UInt8) (info : HeaderInfo) :
    Option Played :=
  (wavParse fuel wav info).bind fun parsed =>
    if parsed.err ≠ .ok then some ⟨parsed.err, []⟩
    else
      let found := parsed.info
      let bits := found.bitsPerSample % 256
      let channels := found.channels % 256
      let err := driver.init found.sampleRate bits channels
      let opened := OutputCall.init found.sampleRate bits channels
      if err ≠ .ok then some ⟨err, [opened]⟩
      else
        (playLoop driver wav (playEnd wav found) fuel 0 found.dataOffset).map fun handed =>
          ⟨.ok, opened :: .unmute :: handed.map OutputCall.write ++ [.mute, .deinit]⟩

/-- The driver opens, and every write of something accepts at least one byte and no
more than it is given. -/
structure I2sDriver.Accepting (driver : I2sDriver) : Prop where
  opens : ∀ sampleRate bits channels, driver.init sampleRate bits channels = .ok
  progress : ∀ call chunk, chunk ≠ [] → 1 ≤ driver.accepts call chunk
  bounded : ∀ call chunk, driver.accepts call chunk ≤ chunk.length

/-- `wav[data_offset .. min(data_offset + data_size, wav_len))`, the sum unbounded. -/
def audioBytes (wav : List UInt8) (info : HeaderInfo) : List UInt8 :=
  (wav.take (min (info.dataOffset + info.dataSize) wav.length)).drop info.dataOffset

/-- `play_wav` ends, and what it has handed to I2S is the audio. -/
def PlaysAudio (driver : I2sDriver) (wav : List UInt8) (found : HeaderInfo) : Prop :=
  ∀ info, ∃ fuel played, playWav driver fuel wav info = some played ∧ played.err = .ok ∧
    played.calls.flatMap OutputCall.handed = audioBytes wav found

section

variable {driver : I2sDriver} {wav : List UInt8} {stop : Nat}

theorem length_nextWrite {pos : Nat} (inside : stop ≤ wav.length) (before : pos < stop) :
    0 < (nextWrite wav stop pos).length ∧ pos + (nextWrite wav stop pos).length ≤ stop := by
  have size : playbackChunk = 4096 := rfl
  rw [nextWrite, List.length_take, List.length_drop]
  split_ifs <;> omega

/-- A write hands over the next bytes of the range. -/
theorem take_nextWrite {pos written : Nat} (inside : stop ≤ wav.length) (before : pos < stop)
    (bounded : written ≤ (nextWrite wav stop pos).length) :
    (nextWrite wav stop pos).take written ++ (wav.take stop).drop (pos + written) =
      (wav.take stop).drop pos := by
  have room := (length_nextWrite inside before).2
  have same : (nextWrite wav stop pos).take written = ((wav.take stop).drop pos).take written := by
    rw [nextWrite, List.length_take] at bounded
    rw [nextWrite, List.take_take, List.drop_take, List.take_take]
    congr 1
    split_ifs at bounded ⊢ <;> omega
  rw [same, ← List.drop_drop, List.take_append_drop]

/-- Whenever the loop ends, it has handed over its range, once and in order. -/
theorem flatten_playLoop (accepting : driver.Accepting) (inside : stop ≤ wav.length)
    (short : wav.length < 4294967296) {fuel call pos : Nat} {handed : List (List UInt8)}
    (ended : playLoop driver wav stop fuel call pos = some handed) :
    handed.flatten = (wav.take stop).drop pos := by
  induction fuel generalizing call pos handed with
  | zero => contradiction
  | succ fuel inductionHypothesis =>
      rw [playLoop] at ended
      split_ifs at ended with before
      · have bounded := accepting.bounded call (nextWrite wav stop pos)
        have room := (length_nextWrite inside before).2
        have moved : add32 pos (driver.accepts call (nextWrite wav stop pos)) =
            pos + driver.accepts call (nextWrite wav stop pos) := Nat.mod_eq_of_lt (by omega)
        obtain ⟨rest, later, rfl⟩ := Option.map_eq_some_iff.mp ended
        rw [moved] at later
        rw [List.flatten_cons, inductionHypothesis later]
        exact take_nextWrite inside before bounded
      · obtain rfl := Option.some.inj ended
        rw [List.drop_eq_nil_of_le (by rw [List.length_take]; omega)]
        rfl

/-- Every write advances, so the loop ends. -/
theorem playLoop_ends (accepting : driver.Accepting) (inside : stop ≤ wav.length)
    (short : wav.length < 4294967296) {fuel call pos : Nat} (enough : stop - pos < fuel) :
    ∃ handed, playLoop driver wav stop fuel call pos = some handed := by
  induction fuel generalizing call pos with
  | zero => omega
  | succ fuel inductionHypothesis =>
      rw [playLoop]
      split_ifs with before
      · have room := length_nextWrite inside before
        have bounded := accepting.bounded call (nextWrite wav stop pos)
        have progress := accepting.progress call (nextWrite wav stop pos)
          (List.length_pos_iff.mp room.1)
        have moved : add32 pos (driver.accepts call (nextWrite wav stop pos)) =
            pos + driver.accepts call (nextWrite wav stop pos) := Nat.mod_eq_of_lt (by omega)
        obtain ⟨rest, later⟩ := @inductionHypothesis (call + 1)
          (pos + driver.accepts call (nextWrite wav stop pos)) (by omega)
        refine ⟨(nextWrite wav stop pos).take
          (driver.accepts call (nextWrite wav stop pos)) :: rest, ?_⟩
        dsimp only
        rw [moved, later, Option.map_some]
      · exact ⟨[], rfl⟩

end

theorem flatMap_handed (handed : List (List UInt8)) :
    (handed.map OutputCall.write).flatMap OutputCall.handed = handed.flatten := by
  induction handed with
  | nil => rfl
  | cons first rest inductionHypothesis =>
      rw [List.map_cons, List.flatMap_cons, inductionHypothesis, List.flatten_cons]
      rfl

section

variable {driver : I2sDriver} {wav : List UInt8} {found : HeaderInfo}

theorem playEnd_eq (wav : List UInt8) (found : HeaderInfo) :
    playEnd wav found = min (add32 found.dataOffset found.dataSize) wav.length := by
  simp only [playEnd]
  split_ifs <;> omega

theorem playEnd_le (wav : List UInt8) (found : HeaderInfo) : playEnd wav found ≤ wav.length := by
  rw [playEnd_eq]
  exact Nat.min_le_right _ _

/-- Whenever `play_wav` returns from an accepted file, it has handed over the range it
computed. -/
theorem handed_of_playWav (accepting : driver.Accepting) (accepts : Accepts wav found)
    (short : wav.length < 4294967296) {fuel : Nat} {info : HeaderInfo} {played : Played}
    (returned : playWav driver fuel wav info = some played) :
    played.err = .ok ∧ played.calls.flatMap OutputCall.handed =
      (wav.take (playEnd wav found)).drop found.dataOffset := by
  obtain ⟨bound, reads, parsed⟩ := wavParse_of_accepts accepts
  obtain ⟨result, now, returned⟩ := Option.bind_eq_some_iff.mp returned
  have same := wavParse_unique now (parsed 0 info)
  subst same
  simp only [ne_eq, not_true, if_false, accepting.opens] at returned
  obtain ⟨handed, ended, rfl⟩ := Option.map_eq_some_iff.mp returned
  refine ⟨rfl, ?_⟩
  have range := flatten_playLoop accepting (playEnd_le wav found) short ended
  rw [← range, ← flatMap_handed]
  show [] ++ ([] ++ (handed.map OutputCall.write ++ [OutputCall.mute, .deinit]).flatMap
    OutputCall.handed) = _
  rw [List.flatMap_append]
  exact List.append_nil _

/-- `play_wav` returns from an accepted file. -/
theorem playWav_ends (accepting : driver.Accepting) (accepts : Accepts wav found)
    (short : wav.length < 4294967296) (info : HeaderInfo) :
    ∃ fuel played, playWav driver fuel wav info = some played := by
  obtain ⟨bound, reads, parsed⟩ := wavParse_of_accepts accepts
  have inside := playEnd_le wav found
  obtain ⟨handed, ended⟩ := @playLoop_ends driver wav (playEnd wav found) accepting inside short
    (bound + (wav.length + 1)) 0 found.dataOffset (by omega)
  refine ⟨bound + (wav.length + 1), ?_⟩
  rw [playWav, parsed, Option.bind_some]
  simp only [ne_eq, not_true, if_false, accepting.opens, ended, Option.map_some]
  exact ⟨_, rfl⟩

theorem playsAudio_iff_range (accepting : driver.Accepting) (accepts : Accepts wav found)
    (short : wav.length < 4294967296) :
    PlaysAudio driver wav found ↔
      (wav.take (playEnd wav found)).drop found.dataOffset = audioBytes wav found := by
  constructor
  · intro plays
    obtain ⟨fuel, played, returned, -, handed⟩ := plays found
    rw [← handed, (handed_of_playWav accepting accepts short returned).2]
  · intro same info
    obtain ⟨fuel, played, returned⟩ := playWav_ends accepting accepts short info
    obtain ⟨ok, handed⟩ := handed_of_playWav accepting accepts short returned
    exact ⟨fuel, played, returned, ok, handed.trans same⟩

/-- `play_wav` plays exactly the audio of a file exactly when the end of the data, as
the header gives it, fits in 32 bits, or there is nothing to play. -/
theorem playsAudio_iff (accepting : driver.Accepting) (accepts : Accepts wav found)
    (short : wav.length < 4294967296) :
    PlaysAudio driver wav found ↔
      found.dataOffset + found.dataSize < 4294967296 ∨ found.dataOffset = wav.length := by
  obtain ⟨inside, size⟩ := bounds_of_accepts accepts
  rw [playsAudio_iff_range accepting accepts short, audioBytes]
  by_cases fits : found.dataOffset + found.dataSize < 4294967296
  · have whole : playEnd wav found = min (found.dataOffset + found.dataSize) wav.length := by
      simp only [playEnd, add32, Nat.mod_eq_of_lt fits]
      split_ifs <;> omega
    rw [whole]
    exact iff_of_true rfl (Or.inl fits)
  · -- the sum wraps to a place before the audio, and nothing is played
    have wrapped : playEnd wav found ≤ found.dataOffset := by
      rw [playEnd_eq, add32]
      omega
    have whole : min (found.dataOffset + found.dataSize) wav.length = wav.length := by omega
    rw [List.drop_eq_nil_of_le ((List.length_take_le _ _).trans wrapped), whole, List.take_length]
    constructor
    · intro nothing
      have empty := List.drop_eq_nil_iff.mp nothing.symm
      exact Or.inr (Nat.le_antisymm inside empty)
    · rintro (less | none)
      · exact absurd less fits
      · rw [none, List.drop_length]

end

/-- A driver that accepts one byte of every chunk. -/
def bytewiseDriver : I2sDriver where
  init := fun _ _ _ => .ok
  accepts := fun _ chunk => min 1 chunk.length

theorem bytewiseDriver_accepting : bytewiseDriver.Accepting where
  opens := fun _ _ _ => rfl
  progress := by
    intro call chunk nonempty
    have positive := List.length_pos_iff.mpr nonempty
    exact Nat.le_min.mpr ⟨Nat.le_refl 1, positive⟩
  bounded := fun _ chunk => Nat.min_le_right 1 chunk.length

/-- A file of one sample whose data chunk gives its size as `claimed`. -/
def claimingFile (claimed : Nat) : List UInt8 :=
  ascii "RIFF" ++ littleEndian 4 38 ++ ascii "WAVE" ++ (pcmFormat 16000).bytes ++
    ascii "data" ++ littleEndian 4 claimed ++ [0x34, 0x12]

theorem playsAudio_iff_claimingFile :
    PlaysAudio bytewiseDriver (claimingFile 2) ⟨16000, 1, 16, 44, 2⟩ := by
  have accepts : Accepts (claimingFile 2) ⟨16000, 1, 16, 44, 2⟩ :=
    @accepts_of_parsed _ _ 3 ⟨0, 0, 0, 0, 0⟩ (by decide +kernel)
  exact (playsAudio_iff bytewiseDriver_accepting accepts (by decide +kernel)).mpr
    (Or.inl (by decide))

/-- A size left at its largest value, as a writer that streams its file leaves it, and
nothing is played. -/
theorem playsAudio_not_of_claimingFile :
    ¬ ∀ (driver : I2sDriver) (wav : List UInt8) (found : HeaderInfo), driver.Accepting →
      Accepts wav found → wav.length < 4294967296 → PlaysAudio driver wav found := by
  intro plays
  have accepts : Accepts (claimingFile 4294967295) ⟨16000, 1, 16, 44, 4294967295⟩ :=
    @accepts_of_parsed _ _ 3 ⟨0, 0, 0, 0, 0⟩ (by decide +kernel)
  have short : (claimingFile 4294967295).length < 4294967296 := by decide +kernel
  have same := (playsAudio_iff_range bytewiseDriver_accepting accepts short).mp
    (plays _ _ _ bytewiseDriver_accepting accepts short)
  exact absurd same (by decide +kernel)

end WallUnit.Firmware.VoiceTurn
