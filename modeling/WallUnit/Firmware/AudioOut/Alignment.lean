import WallUnit.Firmware.AudioOut.Lifecycle

/-!
Owns the sample alignment of the streaming ring: the sessions that the TTS handler
of `voice_turn.c` opens and feeds, with chunks of whole 16-bit samples, over every
interleaving with the writer. `aligned_iff_fits` says that the ring stays aligned
exactly as long as no push is cut short.

Does not own the silence the writer pads with, which is whole samples.
-/

namespace WallUnit.Firmware.AudioOut

open WallUnit.Foundations

variable {α : Type}

/-! ### Samples -/

/-- The two bytes of each 16-bit sample, in order. -/
def pcmOf (samples : List (α × α)) : List α := samples.flatMap fun sample => [sample.1, sample.2]

/-- The 16-bit words in a run of bytes; an odd last byte makes none. -/
def wordsOf : List α → List (α × α)
  | low :: high :: rest => (low, high) :: wordsOf rest
  | _ => []

theorem length_pcmOf (samples : List (α × α)) : (pcmOf samples).length = 2 * samples.length := by
  simp [pcmOf, Nat.mul_comm]

theorem wordsOf_pcmOf (samples : List (α × α)) : wordsOf (pcmOf samples) = samples := by
  induction samples with
  | nil => rfl
  | cons sample rest inductionHypothesis =>
      exact congrArg (sample :: ·) inductionHypothesis

/-- Words do not straddle an even cut. -/
theorem wordsOf_append {left : List α} (even : left.length % 2 = 0) (right : List α) :
    wordsOf (left ++ right) = wordsOf left ++ wordsOf right := by
  induction left using wordsOf.induct with
  | case1 low high rest inductionHypothesis =>
      have shorter : rest.length % 2 = 0 := by
        simp only [List.length_cons] at even
        omega
      exact congrArg ((low, high) :: ·) (inductionHypothesis shorter)
  | case2 left short =>
      match left with
      | [] => rfl
      | [_] => simp at even
      | low :: high :: rest => exact absurd rfl (short low high rest)

/-! ### The sessions of the TTS handler -/

/-- A step of some task, where the handler begins sessions and pushes chunks. -/
inductive PlaybackLabel (α : Type) where
  | start (alloc : BeginAlloc) (sampleRate channels ringKb : Nat)
  | chunk (samples : List (α × α))
  | activate (i2s : I2sOutcome) (taskCreated : Bool)
  | endCall
  | endReturn (waiter : Nat) (timedOut : Bool)
  | writer (index : Nat) (allocated : Bool)

/-- `_tts_stream_handler` asks for `CONFIG_DWU_TTS_RING_KB * 1024` bytes and 16-bit
samples. -/
def PlaybackLabel.session : PlaybackLabel α → SessionLabel α
  | .start alloc sampleRate channels ringKb =>
      .streamBegin alloc sampleRate 16 channels (ringKb * 1024)
  | .chunk samples => .push (pcmOf samples)
  | .activate i2s taskCreated => .activate i2s taskCreated
  | .endCall => .endCall
  | .endReturn waiter timedOut => .endReturn waiter timedOut
  | .writer index allocated => .writer index allocated

/-- The sessions and, of the current one, the samples pushed, the number of bytes
the ring has accepted, and how much had been played before it. -/
structure Playback (α : Type) where
  sessions : Sessions α
  sent : List (α × α)
  accepted : Nat
  mark : Nat

/-- The bytes handed to I2S in the current session. -/
def Playback.played (playback : Playback α) : List α :=
  playback.sessions.audio.played.drop playback.mark

/-- How many bytes of `pcm` a push stores. -/
def acceptedBy (pcm : List α) (state : State α) : Nat :=
  if state.streamActive then
    match state.stream with
    | none => 0
    | some buffer => buffer.fifo.accepted pcm
  else 0

/-- What is recorded of a step. -/
def record (playback : Playback α) (sessions : Sessions α) : PlaybackLabel α → Playback α
  | .start alloc sampleRate channels ringKb =>
      let audio := playback.sessions.audio
      let begun := audioOutStreamBegin alloc sampleRate 16 channels (ringKb * 1024) audio
      if begun.1 = .ok then ⟨sessions, [], 0, audio.played.length⟩
      else { playback with sessions := sessions }
  | .chunk samples =>
      { playback with
        sessions := sessions
        sent := playback.sent ++ samples
        accepted := playback.accepted + acceptedBy (pcmOf samples) playback.sessions.audio }
  | _ => { playback with sessions := sessions }

def playbackStep (playback : Playback α) (label : PlaybackLabel α) : Option (Playback α) :=
  (sessionStep playback.sessions label.session).map fun sessions => record playback sessions label

def playbackMachine (α : Type) : Machine (Playback α) (PlaybackLabel α) where
  init := ⟨⟨.boot, []⟩, [], 0, 0⟩
  step := playbackStep

/-- The ring has accepted whole samples, and the words handed to I2S are samples
that were pushed. -/
structure Aligned (playback : Playback α) : Prop where
  accepted : playback.accepted % 2 = 0
  even : playback.played.length % 2 = 0
  words : ∀ word ∈ wordsOf playback.played, word ∈ playback.sent

/-- A push finds room for the whole chunk. -/
def Fits (playback : Playback α) : PlaybackLabel α → Prop
  | .chunk samples => ∀ buffer, playback.sessions.audio.stream = some buffer →
      playback.sessions.audio.streamActive = true → (pcmOf samples).length ≤ buffer.fifo.free
  | _ => True

/-! ### The invariant -/

/-- What waits in a ring is whole samples that were pushed, and its capacity is
one byte less than an even number. -/
structure RingAligned (sent : List (α × α)) (buffer : StreamBuffer α) : Prop where
  capacity : buffer.fifo.capacity % 2 = 1
  even : buffer.fifo.queued.length % 2 = 0
  words : ∀ word ∈ wordsOf buffer.fifo.queued, word ∈ sent

structure InStep (playback : Playback α) : Prop where
  aligned : Aligned playback
  mark : playback.mark ≤ playback.sessions.audio.played.length
  ring : ∀ buffer, playback.sessions.audio.stream = some buffer → RingAligned playback.sent buffer

section

variable {playback : Playback α}

/-- A step that plays nothing and touches no ring, except to drop it. -/
theorem InStep.of_same (inStep : InStep playback) {sessions : Sessions α}
    (played : sessions.audio.played = playback.sessions.audio.played)
    (stream : ∀ buffer, sessions.audio.stream = some buffer →
      playback.sessions.audio.stream = some buffer) :
    InStep { playback with sessions := sessions } := by
  have same : Playback.played { playback with sessions := sessions } = playback.played := by
    simp only [Playback.played, played]
  refine ⟨⟨inStep.aligned.accepted, ?_, ?_⟩, ?_, fun buffer found => ?_⟩
  · rw [same]
    exact inStep.aligned.even
  · rw [same]
    exact inStep.aligned.words
  · simp only [played]
    exact inStep.mark
  · exact inStep.ring buffer (stream buffer found)

/-- A begin that fails plays nothing and makes no ring. -/
theorem begin_frame (alloc : BeginAlloc) (sampleRate bits channels ringBytes : Nat)
    (state : State α) :
    (audioOutStreamBegin alloc sampleRate bits channels ringBytes state).1 ≠ .ok ∧
        (audioOutStreamBegin alloc sampleRate bits channels ringBytes state).2.played =
          state.played ∧
        (∀ buffer, (audioOutStreamBegin alloc sampleRate bits channels ringBytes state).2.stream =
          some buffer → state.stream = some buffer) ∨
      audioOutStreamBegin alloc sampleRate bits channels ringBytes state =
        (.ok, openSession sampleRate bits channels (max 1024 ringBytes) state) := by
  have size : (if ringBytes < 1024 then 1024 else ringBytes) = max 1024 ringBytes := by
    split <;> omega
  unfold audioOutStreamBegin
  simp only [size]
  split_ifs
  · exact Or.inl ⟨by simp, rfl, fun _ found => found⟩
  · exact Or.inl ⟨by simp, rfl, fun _ found => found⟩
  · exact Or.inl ⟨by simp, rfl, by simp⟩
  · exact Or.inl ⟨by simp, rfl, by simp⟩
  · exact Or.inr rfl

theorem inStep_start (inStep : InStep playback) (alloc : BeginAlloc)
    (sampleRate channels ringKb : Nat) {sessions : Sessions α}
    (stepped : sessionStep playback.sessions
      (.streamBegin alloc sampleRate 16 channels (ringKb * 1024)) = some sessions) :
    InStep (record playback sessions (.start alloc sampleRate channels ringKb)) := by
  obtain rfl := Option.some.inj stepped
  rcases begin_frame alloc sampleRate 16 channels (ringKb * 1024) playback.sessions.audio with
    ⟨failed, played, stream⟩ | opened
  · simp only [record, if_neg failed]
    exact inStep.of_same played stream
  · simp only [record, opened, if_true]
    refine ⟨⟨rfl, ?_, ?_⟩, Nat.le_refl _, ?_⟩
    · simp [Playback.played, openSession]
    · simp [Playback.played, openSession, wordsOf]
    · intro buffer found
      cases found
      refine ⟨?_, rfl, by simp [xStreamBufferCreateStatic, BoundedFifo.empty, wordsOf]⟩
      simp only [xStreamBufferCreateStatic, BoundedFifo.empty]
      omega

theorem push_accepts (pcm : List α) (state : State α) :
    (audioOutStreamPush pcm state).2.stream = state.stream ∧ acceptedBy pcm state = 0 ∨
      ∃ buffer, state.stream = some buffer ∧ state.streamActive = true ∧
        (audioOutStreamPush pcm state).2.stream =
          some { buffer with fifo := buffer.fifo.offer pcm } ∧
        acceptedBy pcm state = buffer.fifo.accepted pcm := by
  by_cases active : state.streamActive = true
  swap
  · exact Or.inl (by simp [audioOutStreamPush, acceptedBy, active])
  cases ring : state.stream with
  | none => exact Or.inl (by simp [audioOutStreamPush, acceptedBy, active, ring])
  | some buffer =>
      refine Or.inr ⟨buffer, rfl, active, ?_, by simp [acceptedBy, active, ring]⟩
      simp only [audioOutStreamPush, active, ring, Bool.not_true, Bool.false_eq_true, if_false]
      split <;> rfl

/-- A whole chunk keeps the ring in step. -/
theorem RingAligned.offer {sent samples : List (α × α)} {buffer : StreamBuffer α}
    (aligned : RingAligned sent buffer) (fits : (pcmOf samples).length ≤ buffer.fifo.free) :
    RingAligned (sent ++ samples) { buffer with fifo := buffer.fifo.offer (pcmOf samples) } := by
  have queued := BoundedFifo.offer_queued_of_fits fits
  have whole := length_pcmOf samples
  have even := aligned.even
  refine ⟨aligned.capacity, ?_, ?_⟩
  · simp only [queued, List.length_append]
    omega
  · simp only [queued, wordsOf_append even, wordsOf_pcmOf]
    intro word member
    rcases List.mem_append.mp member with waiting | pushed
    · exact List.mem_append_left _ (aligned.words word waiting)
    · exact List.mem_append_right _ pushed

theorem RingAligned.mono {sent : List (α × α)} {buffer : StreamBuffer α}
    (aligned : RingAligned sent buffer) (samples : List (α × α)) :
    RingAligned (sent ++ samples) buffer :=
  ⟨aligned.capacity, aligned.even,
    fun word member => List.mem_append_left _ (aligned.words word member)⟩

theorem inStep_chunk (inStep : InStep playback) {samples : List (α × α)} {sessions : Sessions α}
    (fits : Fits playback (.chunk samples))
    (stepped : sessionStep playback.sessions (.push (pcmOf samples)) = some sessions) :
    InStep (record playback sessions (.chunk samples)) := by
  obtain rfl := Option.some.inj stepped
  have played := (push_same (pcmOf samples) playback.sessions.audio).2
  have whole := length_pcmOf samples
  have even := inStep.aligned.accepted
  have sofar : (record playback
      { playback.sessions with
        audio := (audioOutStreamPush (pcmOf samples) playback.sessions.audio).2 }
      (.chunk samples)).played = playback.played := by
    simp only [record, Playback.played, played]
  refine ⟨⟨?_, ?_, ?_⟩, ?_, ?_⟩
  · rcases push_accepts (pcmOf samples) playback.sessions.audio with
      ⟨-, none⟩ | ⟨buffer, ring, active, -, some⟩
    · simp only [record, none]
      exact even
    · have all := BoundedFifo.accepted_eq_length_iff.mpr (fits buffer ring active)
      simp only [record, some, all]
      omega
  · rw [sofar]
    exact inStep.aligned.even
  · rw [sofar]
    exact fun word member => List.mem_append_left _ (inStep.aligned.words word member)
  · simp only [record, played]
    exact inStep.mark
  · intro buffer found
    simp only [record] at found
    rcases push_accepts (pcmOf samples) playback.sessions.audio with
      ⟨same, -⟩ | ⟨before, ring, active, stored, -⟩
    · rw [same] at found
      exact (inStep.ring buffer found).mono samples
    · rw [stored] at found
      cases found
      exact (inStep.ring before ring).offer (fits before ring active)

/-- A receive takes whole samples off an aligned ring. -/
theorem RingAligned.poll {sent : List (α × α)} {buffer : StreamBuffer α}
    (aligned : RingAligned sent buffer) :
    RingAligned sent { buffer with fifo := buffer.fifo.poll readChunk } ∧
      (buffer.fifo.queued.take readChunk).length % 2 = 0 ∧
      ∀ word ∈ wordsOf (buffer.fifo.queued.take readChunk), word ∈ sent := by
  have even := aligned.even
  have size : readChunk = 2048 := rfl
  have front : (buffer.fifo.queued.take readChunk).length % 2 = 0 := by
    rw [List.length_take]
    omega
  have cut : wordsOf buffer.fifo.queued =
      wordsOf (buffer.fifo.queued.take readChunk) ++
        wordsOf (buffer.fifo.poll readChunk).queued := by
    rw [← wordsOf_append front, buffer.fifo.take_append_poll]
  have words := aligned.words
  rw [cut] at words
  refine ⟨⟨aligned.capacity, ?_, fun word member => words word (List.mem_append_right _ member)⟩,
    front, fun word member => words word (List.mem_append_left _ member)⟩
  simp only [BoundedFifo.poll, List.length_drop]
  omega

theorem inStep_writer (inStep : InStep playback) {index : Nat} {allocated : Bool}
    {audio : State α} (moved : writerStep index allocated playback.sessions.audio = some audio) :
    InStep { playback with sessions := { playback.sessions with audio := audio } } := by
  obtain ⟨writer, -, move⟩ := writerStep_cases moved
  cases move with
  | phase phase underruns => exact inStep.of_same rfl fun _ found => found
  | exit drain semaphore reason => exact inStep.of_same rfl fun _ found => found
  | receive buffer ring =>
      obtain ⟨rest, even, words⟩ := (inStep.ring buffer ring).poll
      have mark := inStep.mark
      have before := inStep.aligned.even
      generalize handed : (if playback.sessions.audio.txChan.isSome
        then buffer.fifo.queued.take readChunk else []) = got
      have whole : got.length % 2 = 0 ∧ ∀ word ∈ wordsOf got, word ∈ playback.sent := by
        rw [← handed]
        split_ifs
        · exact ⟨even, words⟩
        · exact ⟨rfl, by simp [wordsOf]⟩
      refine ⟨⟨inStep.aligned.accepted, ?_, ?_⟩, ?_, ?_⟩
      · simp only [Playback.played, List.drop_append_of_le_length mark, List.length_append]
          at before ⊢
        omega
      · simp only [Playback.played, List.drop_append_of_le_length mark] at before ⊢
        rw [wordsOf_append before]
        intro word member
        rcases List.mem_append.mp member with earlier | now
        · exact inStep.aligned.words word earlier
        · exact whole.2 word now
      · simp only [List.length_append]
        omega
      · rintro other ⟨⟩
        exact rest

theorem inStep_step (inStep : InStep playback) {label : PlaybackLabel α} {next : Playback α}
    (fits : Fits playback label) (stepped : playbackStep playback label = some next) :
    InStep next := by
  obtain ⟨sessions, moved, rfl⟩ := Option.map_eq_some_iff.mp stepped
  cases label with
  | start alloc sampleRate channels ringKb =>
      exact inStep_start inStep alloc sampleRate channels ringKb moved
  | chunk samples => exact inStep_chunk inStep fits moved
  | activate i2s taskCreated =>
      obtain rfl := Option.some.inj moved
      rcases activate_cases i2s taskCreated playback.sessions.audio with
        ⟨-, same | ⟨-, handle, closed⟩⟩ | ⟨-, -, started⟩
      · exact inStep.of_same (by simp only [same]) (by simp only [same]; exact fun _ found => found)
      · exact inStep.of_same (by simp only [closed])
          (by simp only [closed]; exact fun _ found => found)
      · exact inStep.of_same (by simp only [started, startWriter])
          (by simp only [started, startWriter]; exact fun _ found => found)
  | endCall =>
      simp only [PlaybackLabel.session, sessionStep, audioOutStreamEnd] at moved
      split_ifs at moved
      · obtain rfl := Option.some.inj moved
        exact inStep.of_same rfl fun _ found => found
      · obtain rfl := Option.some.inj moved
        exact inStep.of_same rfl fun _ found => found
      · obtain rfl := Option.some.inj moved
        exact inStep.of_same rfl (by simp [releaseStream])
  | endReturn waiter timedOut =>
      simp only [PlaybackLabel.session, sessionStep] at moved
      split at moved
      · contradiction
      · obtain ⟨audio, returned, rfl⟩ := Option.map_eq_some_iff.mp moved
        obtain ⟨rfl, -⟩ := endReturn_cases returned
        exact inStep.of_same rfl (by simp [releaseStream])
  | writer index allocated =>
      obtain ⟨audio, ran, rfl⟩ := Option.map_eq_some_iff.mp moved
      exact inStep_writer inStep ran

/-- A push that is cut short stores an odd number of bytes: the room left in an
aligned ring is odd. -/
theorem misaligned_step (inStep : InStep playback) {label : PlaybackLabel α}
    {next : Playback α} (short : ¬ Fits playback label)
    (stepped : playbackStep playback label = some next) : ¬ Aligned next := by
  obtain ⟨sessions, moved, rfl⟩ := Option.map_eq_some_iff.mp stepped
  cases label with
  | chunk samples =>
      simp only [Fits, not_forall, Nat.not_le] at short
      obtain ⟨buffer, ring, active, overfull⟩ := short
      obtain ⟨capacity, even, -⟩ := inStep.ring buffer ring
      have before := inStep.aligned.accepted
      have stored : acceptedBy (pcmOf samples) playback.sessions.audio = buffer.fifo.free := by
        simp only [acceptedBy, active, ring, if_true, BoundedFifo.accepted]
        omega
      have bounded := buffer.fifo.bounded
      intro aligned
      have after := aligned.accepted
      simp only [record, stored, BoundedFifo.free] at after
      omega
  | start | activate | endCall | endReturn | writer => exact absurd trivial short

end

theorem inStep_boot : InStep (playbackMachine α).init where
  aligned := ⟨rfl, rfl, by simp [playbackMachine, Playback.played, State.boot, wordsOf]⟩
  mark := Nat.le_refl _
  ring := by simp [playbackMachine, State.boot]

/-- A run stays aligned in every state it visits exactly when every push of it
finds room for its whole chunk. -/
theorem aligned_iff_fits {labels : List (PlaybackLabel α)} {final : Playback α}
    (ran : (playbackMachine α).run labels = some final) :
    (playbackMachine α).Always Aligned (playbackMachine α).init labels ↔
      (playbackMachine α).Along Fits (playbackMachine α).init labels :=
  Machine.always_iff_along InStep (fun _ inStep => inStep.aligned)
    (fun _ _ _ inStep fits stepped => inStep_step inStep fits stepped)
    (fun _ _ _ inStep short stepped => misaligned_step inStep short stepped) inStep_boot ran

/-- Two samples, pushed and played. -/
def fittingRun : List (PlaybackLabel UInt8) :=
  [.start ⟨true, true, true⟩ 16000 1 128, .chunk [(1, 2), (3, 4)], .activate .opened true,
    .writer 0 true, .writer 0 true]

/-- A chunk of the server's size into the smallest ring. -/
def overfullRun : List (PlaybackLabel UInt8) :=
  [.start ⟨true, true, true⟩ 16000 1 1, .chunk (List.replicate 640 (1, 2))]

theorem aligned_of_fittingRun :
    (playbackMachine UInt8).Always Aligned (playbackMachine UInt8).init fittingRun := by
  apply (@aligned_iff_fits UInt8 fittingRun _ rfl).mpr
  refine ⟨trivial, ?_, trivial, trivial, trivial, trivial⟩
  rintro buffer ⟨⟩ -
  decide

theorem aligned_not_of_overfullRun :
    ¬ ∀ (labels : List (PlaybackLabel UInt8)) (final : Playback UInt8),
      (playbackMachine UInt8).run labels = some final → Aligned final := by
  intro always
  have counted : ((playbackMachine UInt8).run overfullRun).map Playback.accepted = some 1023 := by
    decide +kernel
  obtain ⟨final, ran, accepted⟩ := Option.map_eq_some_iff.mp counted
  have even := (always overfullRun final ran).accepted
  omega

end WallUnit.Firmware.AudioOut
