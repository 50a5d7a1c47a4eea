import WallUnit.Firmware.AudioOut.Stream
import WallUnit.Foundations.Machine

/-!
Owns the lifecycle invariant of a streaming session: the session is active
exactly when its ring, storage and semaphore exist, draining needs an open I2S
channel, and a live writer still has the ring and channel it was started for and
is the only writer. Each operation of `Stream` keeps it, except the exit of
`audio_out_stream_end` taken when the wait for a live writer times out.

Owns also the machine of every interleaving of those operations by any number of
tasks, where `audio_out_stream_end` is two steps, before and after its wait.
-/

namespace WallUnit.Firmware.AudioOut

open WallUnit.Foundations

variable {α : Type}

/-! ### What one step of a writer can do -/

/-- The three shapes of a step of writer number `index`. -/
inductive WriterMove (state : State α) (index : Nat) (allocated : Bool) (writer : Writer) :
    State α → Prop where
  | phase (phase : WriterPhase) (underruns : Nat) :
      WriterMove state index allocated writer { state with
        writers := state.writers.set index { writer with phase := phase }
        underrunCount := underruns }
  | receive (buffer : StreamBuffer α) (ring : state.stream = some buffer) :
      WriterMove state index allocated writer { state with
        stream := some { buffer with fifo := buffer.fifo.poll readChunk }
        played := state.played ++
          (if state.txChan.isSome then buffer.fifo.queued.take readChunk else []) }
  | exit (drain : DrainSemaphore) (semaphore : state.drainDone = some drain)
      (reason : allocated = false ∨ (state.streamStopRequest = true ∧ state.ringBytes = [])) :
      WriterMove state index allocated writer { state with
        drainDone := some { drain with given := true }
        writers := state.writers.eraseIdx index }

private theorem writerExit_move {state next : State α} {index : Nat} {allocated : Bool}
    {writer : Writer} (exited : writerExit index state = some next)
    (reason : allocated = false ∨ (state.streamStopRequest = true ∧ state.ringBytes = [])) :
    WriterMove state index allocated writer next := by
  unfold writerExit at exited
  split at exited
  · contradiction
  · next drain semaphore =>
      obtain rfl := Option.some.inj exited
      exact .exit drain semaphore reason

theorem writerStep_cases {state next : State α} {index : Nat} {allocated : Bool}
    (stepped : writerStep index allocated state = some next) :
    ∃ writer, state.writers[index]? = some writer ∧
      WriterMove state index allocated writer next := by
  unfold writerStep at stepped
  split at stepped
  · contradiction
  · next writer found =>
      refine ⟨writer, found, ?_⟩
      cases phase : writer.phase with
      | starting =>
          simp only [phase] at stepped
          cases allocated with
          | false => exact writerExit_move stepped (Or.inl rfl)
          | true =>
              obtain rfl := Option.some.inj stepped
              exact .phase .receiving state.underrunCount
      | receiving =>
          simp only [phase] at stepped
          split at stepped
          · contradiction
          · next buffer ring =>
              split at stepped <;> obtain rfl := Option.some.inj stepped
              · exact .phase .starved state.underrunCount
              · exact .receive buffer ring
      | starved =>
          simp only [phase] at stepped
          split at stepped
          · contradiction
          · next buffer ring =>
              split at stepped
              · next stop =>
                  refine writerExit_move stepped (Or.inr ⟨stop.1, ?_⟩)
                  simpa [State.ringBytes, ring] using stop.2
              · obtain rfl := Option.some.inj stepped
                exact .phase .receiving (state.underrunCount + 1)

/-- As long as I2S is open, what a writer takes from the ring it plays. -/
theorem WriterMove.plays {state next : State α} {index : Nat} {allocated : Bool} {writer : Writer}
    (move : WriterMove state index allocated writer next) (opened : state.txChan.isSome = true) :
    ∃ got, next.played = state.played ++ got ∧ state.ringBytes = got ++ next.ringBytes := by
  cases move with
  | phase phase underruns => exact ⟨[], (List.append_nil _).symm, rfl⟩
  | receive buffer ring =>
      refine ⟨buffer.fifo.queued.take readChunk, by rw [if_pos opened], ?_⟩
      rw [State.ringBytes, ring]
      exact (buffer.fifo.take_append_poll readChunk).symm
  | exit drain semaphore reason => exact ⟨[], (List.append_nil _).symm, rfl⟩

/-! ### What the session operations can do -/

theorem push_cases (pcm : List α) (state : State α) :
    audioOutStreamPush pcm state = (.invalidState, state) ∨
    ∃ buffer, state.stream = some buffer ∧ state.streamActive = true ∧
      (audioOutStreamPush pcm state).2 =
        { state with stream := some { buffer with fifo := buffer.fifo.offer pcm } } ∧
      ((audioOutStreamPush pcm state).1 = .ok ↔ pcm.length ≤ buffer.fifo.free) := by
  unfold audioOutStreamPush
  by_cases active : state.streamActive = true
  · cases ring : state.stream with
    | none => exact Or.inl (by simp [active])
    | some buffer =>
        refine Or.inr ⟨buffer, rfl, active, ?_, ?_⟩
        · simp only [active, Bool.not_true, Bool.false_eq_true, if_false]
          split <;> rfl
        · simp only [active, Bool.not_true, Bool.false_eq_true, if_false]
          rw [← BoundedFifo.accepted_eq_length_iff]
          by_cases short : buffer.fifo.accepted pcm ≠ pcm.length
          · rw [if_pos short]
            exact ⟨nofun, fun whole => absurd whole short⟩
          · rw [if_neg short]
            exact ⟨fun _ => not_not.mp short, fun _ => rfl⟩
  · exact Or.inl (by simp [active])

theorem push_same (pcm : List α) (state : State α) :
    (audioOutStreamPush pcm state).2.streamActive = state.streamActive ∧
      (audioOutStreamPush pcm state).2.played = state.played := by
  rcases push_cases pcm state with same | ⟨buffer, -, -, pushed, -⟩
  · rw [same]
    exact ⟨rfl, rfl⟩
  · rw [pushed]
    exact ⟨rfl, rfl⟩

/-- A push that finds room stores everything. -/
theorem ringBytes_push {pcm : List α} {state : State α} {buffer : StreamBuffer α}
    (active : state.streamActive = true) (ring : state.stream = some buffer)
    (room : pcm.length ≤ buffer.fifo.free) :
    (audioOutStreamPush pcm state).2.ringBytes = state.ringBytes ++ pcm := by
  have stored : (audioOutStreamPush pcm state).2.stream =
      some { buffer with fifo := buffer.fifo.offer pcm } := by
    simp only [audioOutStreamPush, active, ring, Bool.not_true, Bool.false_eq_true, if_false]
    split <;> rfl
  rw [State.ringBytes, stored, State.ringBytes, ring]
  exact BoundedFifo.offer_queued_of_fits room

/-- The session after `audio_out_stream_activate` opened I2S and started the
writer. -/
def startWriter (state : State α) : State α :=
  { state with
    txChan := some state.nextHandle
    nextHandle := state.nextHandle + 1
    streamDraining := true
    writers := state.writers ++
      [⟨state.stream.map StreamBuffer.handle, some state.nextHandle, .starting⟩] }

theorem activate_cases (i2s : I2sOutcome) (taskCreated : Bool) (state : State α) :
    ((audioOutStreamActivate i2s taskCreated state).1 ≠ .ok ∧
      ((audioOutStreamActivate i2s taskCreated state).2 = state ∨
        (state.streamDraining = false ∧ ∃ handle,
          (audioOutStreamActivate i2s taskCreated state).2 =
            { state with txChan := none, nextHandle := handle }))) ∨
    (state.streamActive = true ∧ state.streamDraining = false ∧
      audioOutStreamActivate i2s taskCreated state = (.ok, startWriter state)) := by
  unfold audioOutStreamActivate
  by_cases active : state.streamActive = true
  · by_cases draining : state.streamDraining = true
    · exact Or.inl ⟨by simp [active, draining], Or.inl (by simp [active, draining])⟩
    · have idle : state.streamDraining = false := by simpa using draining
      cases i2s with
      | noChannel =>
          exact Or.inl ⟨by simp [active, idle, audioOutInit],
            Or.inl (by simp [active, idle, audioOutInit])⟩
      | notConfigured =>
          exact Or.inl ⟨by simp [active, idle, audioOutInit],
            Or.inr ⟨idle, state.nextHandle, by simp [active, idle, audioOutInit]⟩⟩
      | opened =>
          cases taskCreated with
          | false =>
              refine Or.inl ⟨by simp [active, idle, audioOutInit],
                Or.inr ⟨idle, state.nextHandle + 1, ?_⟩⟩
              simp [active, idle, audioOutInit, audioOutDeinit]
          | true =>
              exact Or.inr ⟨active, idle, by simp [active, idle, audioOutInit, startWriter]⟩
  · exact Or.inl ⟨by simp [active], Or.inl (by simp [active])⟩

theorem endReturn_cases {state next : State α} {semaphore : Option Nat} {timedOut : Bool}
    (returned : audioOutStreamEndReturn semaphore timedOut state = some next) :
    next = releaseStream { audioOutDeinit state with streamDraining := false } ∧
      (timedOut = true ∨ ∃ drain, state.drainDone = some drain ∧ drain.given = true) := by
  unfold audioOutStreamEndReturn at returned
  cases timedOut with
  | true =>
      obtain rfl := Option.some.inj returned
      exact ⟨rfl, Or.inl rfl⟩
  | false =>
      simp only [Bool.false_eq_true, if_false] at returned
      split at returned
      · contradiction
      · next drain semaphore =>
          split at returned
          · next given =>
              obtain rfl := Option.some.inj returned
              exact ⟨rfl, Or.inr ⟨drain, semaphore, given.1⟩⟩
          · contradiction

/-! ### The shape of the session variables -/

/-- What the session variables look like between any two atomic steps. -/
structure SessionShape (state : State α) : Prop where
  closed : state.streamActive = false →
    state.stream = none ∧ state.streamStorage = none ∧ state.drainDone = none
  opened : state.streamActive = true →
    state.stream.isSome ∧ state.streamStorage.isSome ∧ state.drainDone.isSome
  draining : state.streamDraining = true → state.streamActive = true ∧ state.txChan.isSome

theorem sessionShape_boot : SessionShape (State.boot : State α) := by
  constructor <;> simp [State.boot]

namespace SessionShape

variable {state next : State α}

theorem idle_of_inactive (shape : SessionShape state) (inactive : state.streamActive = false) :
    state.streamDraining = false := by
  by_contra draining
  have active := (shape.draining (by simpa using draining)).1
  rw [inactive] at active
  contradiction

theorem clear_of_inactive (shape : SessionShape state) (inactive : state.streamActive = false) :
    { state with stream := none, streamStorage := none, drainDone := none } = state := by
  obtain ⟨noStream, noStorage, noDrain⟩ := shape.closed inactive
  rw [← noStream, ← noStorage, ← noDrain]

/-- A begin either changes nothing or opens a fresh, empty session. -/
theorem begin_cases (shape : SessionShape state) (alloc : BeginAlloc)
    (sampleRate bits channels ringBytes : Nat) :
    (∃ err, err ≠ .ok ∧
      audioOutStreamBegin alloc sampleRate bits channels ringBytes state = (err, state)) ∨
    (state.streamActive = false ∧
      audioOutStreamBegin alloc sampleRate bits channels ringBytes state =
        (.ok, openSession sampleRate bits channels (max 1024 ringBytes) state)) := by
  unfold audioOutStreamBegin
  by_cases active : state.streamActive = true
  · exact Or.inl ⟨.invalidState, by decide, by rw [if_pos active]⟩
  · have inactive : state.streamActive = false := by simpa using active
    obtain ⟨noStream, noStorage, noDrain⟩ := shape.closed inactive
    have size : (if ringBytes < 1024 then 1024 else ringBytes) = max 1024 ringBytes := by
      split <;> omega
    rw [if_neg active]
    simp only [size]
    split_ifs
    · exact Or.inl ⟨.noMem, by decide, by rw [← noStorage]⟩
    · exact Or.inl ⟨.noMem, by decide, by rw [← noStorage, ← noStream]⟩
    · exact Or.inl ⟨.noMem, by decide, by rw [shape.clear_of_inactive inactive]⟩
    · exact Or.inr ⟨inactive, rfl⟩

theorem openSession (sampleRate bits channels ringBytes : Nat) (state : State α) :
    SessionShape (openSession sampleRate bits channels ringBytes state) := by
  constructor <;> simp [AudioOut.openSession]

theorem audioOutStreamBegin (shape : SessionShape state) (alloc : BeginAlloc)
    (sampleRate bits channels ringBytes : Nat) :
    SessionShape (audioOutStreamBegin alloc sampleRate bits channels ringBytes state).2 := by
  rcases shape.begin_cases alloc sampleRate bits channels ringBytes with
    ⟨err, -, same⟩ | ⟨-, opened⟩
  · rw [same]
    exact shape
  · rw [opened]
    exact openSession ..

theorem audioOutStreamPush (shape : SessionShape state) (pcm : List α) :
    SessionShape (audioOutStreamPush pcm state).2 := by
  rcases push_cases pcm state with same | ⟨buffer, ring, active, pushed, -⟩
  · rw [same]
    exact shape
  · rw [pushed]
    refine ⟨fun inactive => ?_, fun _ => ?_, shape.draining⟩
    · rw [active] at inactive
      contradiction
    · exact ⟨rfl, (shape.opened active).2⟩

theorem audioOutStreamActivate (shape : SessionShape state) (i2s : I2sOutcome)
    (taskCreated : Bool) : SessionShape (audioOutStreamActivate i2s taskCreated state).2 := by
  rcases activate_cases i2s taskCreated state with
    ⟨-, same | ⟨idle, handle, closed⟩⟩ | ⟨active, -, started⟩
  · rw [same]
    exact shape
  · rw [closed]
    exact ⟨shape.closed, shape.opened,
      fun draining => absurd (idle.symm.trans draining) Bool.false_ne_true⟩
  · rw [started]
    exact ⟨shape.closed, shape.opened, fun _ => ⟨active, rfl⟩⟩

theorem releaseStream (idle : state.streamDraining = false) :
    SessionShape (releaseStream state) := by
  constructor <;> simp [AudioOut.releaseStream, idle]

theorem stopping (shape : SessionShape state) :
    SessionShape { state with streamStopRequest := true } :=
  ⟨shape.closed, shape.opened, shape.draining⟩

theorem audioOutStreamEndReturn {semaphore : Option Nat} {timedOut : Bool}
    (returned : audioOutStreamEndReturn semaphore timedOut state = some next) :
    SessionShape next := by
  obtain ⟨rfl, -⟩ := endReturn_cases returned
  exact releaseStream rfl

theorem writerMove {index : Nat} {allocated : Bool} {writer : Writer}
    (shape : SessionShape state) (move : WriterMove state index allocated writer next) :
    SessionShape next := by
  cases move with
  | phase phase underruns => exact ⟨shape.closed, shape.opened, shape.draining⟩
  | receive buffer ring =>
      refine ⟨fun inactive => ?_, fun active => ⟨rfl, (shape.opened active).2⟩, shape.draining⟩
      rw [(shape.closed inactive).1] at ring
      contradiction
  | exit drain semaphore reason =>
      refine ⟨fun inactive => ?_, fun active => ?_, shape.draining⟩
      · rw [(shape.closed inactive).2.2] at semaphore
        contradiction
      · exact ⟨(shape.opened active).1, (shape.opened active).2.1, rfl⟩

end SessionShape

/-! ### Ownership of the writer -/

/-- The live writer is the only one, and its ring and channel are the current
session's; a given semaphore means it is gone. -/
structure WriterOwned (state : State α) : Prop where
  writer : ∀ writer ∈ state.writers, state.streamDraining = true ∧
    writer.ring = state.stream.map StreamBuffer.handle ∧ writer.channel = state.txChan
  single : state.writers.length ≤ 1
  given : ∀ drain, state.drainDone = some drain → drain.given = true →
    state.streamDraining = true ∧ state.writers = []

theorem writerOwned_boot : WriterOwned (State.boot : State α) := by
  constructor <;> simp [State.boot]

namespace WriterOwned

variable {state next : State α}

theorem writers_nil (owned : WriterOwned state) (idle : state.streamDraining = false) :
    state.writers = [] := by
  rw [List.eq_nil_iff_forall_not_mem]
  intro writer member
  have live := (owned.writer writer member).1
  rw [idle] at live
  contradiction

/-- The semaphore is not given while the session is not draining. -/
theorem not_given (owned : WriterOwned state) (idle : state.streamDraining = false)
    {drain : DrainSemaphore} (semaphore : state.drainDone = some drain) : drain.given = false := by
  by_contra given
  have draining := (owned.given drain semaphore (by simpa using given)).1
  rw [idle] at draining
  contradiction

theorem openSession (noWriter : state.writers = []) (sampleRate bits channels ringBytes : Nat) :
    WriterOwned (openSession sampleRate bits channels ringBytes state) := by
  constructor <;> simp [AudioOut.openSession, noWriter]

theorem startWriter (owned : WriterOwned state) (idle : state.streamDraining = false) :
    WriterOwned (startWriter state) := by
  have noWriter := owned.writers_nil idle
  refine ⟨fun writer member => ?_, by simp [AudioOut.startWriter, noWriter],
    fun drain semaphore given => ?_⟩
  · simp only [AudioOut.startWriter, noWriter, List.nil_append, List.mem_singleton] at member
    subst member
    exact ⟨rfl, rfl, rfl⟩
  · rw [owned.not_given idle semaphore] at given
    contradiction

/-- Without a writer the I2S channel is nobody's. -/
theorem channel (owned : WriterOwned state) (idle : state.streamDraining = false)
    (txChan : Option Nat) (handle : Nat) :
    WriterOwned { state with txChan := txChan, nextHandle := handle } := by
  have noWriter := owned.writers_nil idle
  exact ⟨by simp [noWriter], owned.single, owned.given⟩

theorem audioOutStreamBegin (owned : WriterOwned state) (shape : SessionShape state)
    (alloc : BeginAlloc) (sampleRate bits channels ringBytes : Nat) :
    WriterOwned (audioOutStreamBegin alloc sampleRate bits channels ringBytes state).2 := by
  rcases shape.begin_cases alloc sampleRate bits channels ringBytes with
    ⟨err, -, same⟩ | ⟨inactive, opened⟩
  · rw [same]
    exact owned
  · rw [opened]
    exact openSession (owned.writers_nil (shape.idle_of_inactive inactive)) ..

theorem audioOutStreamPush (owned : WriterOwned state) (pcm : List α) :
    WriterOwned (audioOutStreamPush pcm state).2 := by
  rcases push_cases pcm state with same | ⟨buffer, ring, -, pushed, -⟩
  · rw [same]
    exact owned
  · rw [pushed]
    refine ⟨fun writer member => ?_, owned.single, owned.given⟩
    have before := owned.writer writer member
    rw [ring] at before
    exact before

theorem audioOutStreamActivate (owned : WriterOwned state) (i2s : I2sOutcome)
    (taskCreated : Bool) : WriterOwned (audioOutStreamActivate i2s taskCreated state).2 := by
  rcases activate_cases i2s taskCreated state with
    ⟨-, same | ⟨idle, handle, closed⟩⟩ | ⟨-, idle, started⟩
  · rw [same]
    exact owned
  · rw [closed]
    exact owned.channel idle none handle
  · rw [started]
    exact owned.startWriter idle

theorem stopping (owned : WriterOwned state) :
    WriterOwned { state with streamStopRequest := true } :=
  ⟨owned.writer, owned.single, owned.given⟩

theorem releaseStream (noWriter : state.writers = []) : WriterOwned (releaseStream state) := by
  constructor <;> simp [AudioOut.releaseStream, noWriter]

/-- The return of a wait that did not give up on a live writer. -/
theorem audioOutStreamEndReturn (owned : WriterOwned state) {semaphore : Option Nat}
    {timedOut : Bool} (patient : timedOut = true → state.writers = [])
    (returned : audioOutStreamEndReturn semaphore timedOut state = some next) :
    state.writers = [] ∧ WriterOwned next := by
  obtain ⟨rfl, reason⟩ := endReturn_cases returned
  have noWriter : state.writers = [] := by
    rcases reason with late | ⟨drain, semaphore, given⟩
    · exact patient late
    · exact (owned.given drain semaphore given).2
  exact ⟨noWriter, releaseStream noWriter⟩

theorem writerMove {index : Nat} {allocated : Bool} {writer : Writer}
    (owned : WriterOwned state) (found : state.writers[index]? = some writer)
    (move : WriterMove state index allocated writer next) : WriterOwned next := by
  have member : writer ∈ state.writers := List.mem_of_getElem? found
  obtain ⟨draining, ring, channel⟩ := owned.writer writer member
  have alone : state.writers = [writer] ∧ index = 0 := by
    have single := owned.single
    obtain ⟨below, here⟩ := List.getElem?_eq_some_iff.mp found
    have zero : index = 0 := by omega
    subst zero
    match state.writers, single, found with
    | [only], _, found =>
        simp only [List.getElem?_cons_zero, Option.some.injEq] at found
        exact ⟨by rw [found], rfl⟩
  obtain ⟨alone, rfl⟩ := alone
  cases move with
  | phase phase underruns =>
      refine ⟨fun other among => ?_, by simp [alone], fun drain semaphore given => ?_⟩
      · simp only [alone, List.set_cons_zero, List.mem_singleton] at among
        subst among
        exact ⟨draining, ring, channel⟩
      · have gone := (owned.given drain semaphore given).2
        rw [alone] at gone
        contradiction
  | receive buffer current =>
      refine ⟨fun other among => ?_, owned.single, owned.given⟩
      have before := owned.writer other among
      rw [current] at before
      exact before
  | exit drain semaphore reason =>
      have gone : state.writers.eraseIdx 0 = [] := by rw [alone]; rfl
      refine ⟨by simp [gone], by simp [gone], fun _ _ _ => ⟨draining, gone⟩⟩

end WriterOwned

/-! ### Every interleaving of the operations -/

/-- The session variables and, for each `audio_out_stream_end` that is waiting,
the semaphore it waits on. -/
structure Sessions (α : Type) where
  audio : State α
  waiters : List (Option Nat)

/-- One atomic step of some task, with the answers of its environment. -/
inductive SessionLabel (α : Type) where
  | streamBegin (alloc : BeginAlloc) (sampleRate bits channels ringBytes : Nat)
  | push (pcm : List α)
  | activate (i2s : I2sOutcome) (taskCreated : Bool)
  | endCall
  | endReturn (waiter : Nat) (timedOut : Bool)
  | writer (index : Nat) (allocated : Bool)

def sessionStep (sessions : Sessions α) : SessionLabel α → Option (Sessions α)
  | .streamBegin alloc sampleRate bits channels ringBytes =>
      some { sessions with audio :=
        (audioOutStreamBegin alloc sampleRate bits channels ringBytes sessions.audio).2 }
  | .push pcm => some { sessions with audio := (audioOutStreamPush pcm sessions.audio).2 }
  | .activate i2s taskCreated =>
      some { sessions with audio := (audioOutStreamActivate i2s taskCreated sessions.audio).2 }
  | .endCall =>
      match audioOutStreamEnd sessions.audio with
      | .returned _ audio => some { sessions with audio := audio }
      | .blocked semaphore audio => some ⟨audio, sessions.waiters ++ [semaphore]⟩
  | .endReturn waiter timedOut =>
      match sessions.waiters[waiter]? with
      | none => none
      | some semaphore =>
          (audioOutStreamEndReturn semaphore timedOut sessions.audio).map fun audio =>
            ⟨audio, sessions.waiters.eraseIdx waiter⟩
  | .writer index allocated =>
      (writerStep index allocated sessions.audio).map fun audio => { sessions with audio := audio }

/-- All interleavings, from boot. -/
def sessionMachine (α : Type) : Machine (Sessions α) (SessionLabel α) where
  init := ⟨.boot, []⟩
  step := sessionStep

/-- The lifecycle rules of a session. -/
structure Lifecycle (state : State α) : Prop where
  active_iff : state.streamActive = true ↔
    state.stream.isSome ∧ state.streamStorage.isSome ∧ state.drainDone.isSome
  draining : state.streamDraining = true → state.streamActive = true ∧ state.txChan.isSome
  writer : ∀ writer ∈ state.writers,
    (∃ ring, state.stream = some ring ∧ writer.ring = some ring.handle) ∧
    (∃ channel, state.txChan = some channel ∧ writer.channel = some channel)
  single : state.writers.length ≤ 1

/-- No `audio_out_stream_end` gives up waiting while a writer is alive. -/
def WaitsForWriter (sessions : Sessions α) : SessionLabel α → Prop
  | .endReturn _ timedOut => timedOut = true → sessions.audio.writers = []
  | _ => True

instance (sessions : Sessions α) (label : SessionLabel α) :
    Decidable (WaitsForWriter sessions label) := by
  cases label <;> unfold WaitsForWriter <;> infer_instance

theorem lifecycle_of_shape {state : State α} (shape : SessionShape state)
    (owned : WriterOwned state) : Lifecycle state where
  active_iff := by
    constructor
    · exact shape.opened
    · intro present
      by_contra inactive
      have closed := shape.closed (by simpa using inactive)
      rw [closed.1] at present
      exact absurd present.1 (by simp)
  draining := shape.draining
  writer := by
    intro writer member
    obtain ⟨draining, ring, channel⟩ := owned.writer writer member
    obtain ⟨active, opened⟩ := shape.draining draining
    obtain ⟨buffer, stream⟩ := Option.isSome_iff_exists.mp (shape.opened active).1
    obtain ⟨chan, open_⟩ := Option.isSome_iff_exists.mp opened
    refine ⟨⟨buffer, stream, ?_⟩, chan, open_, ?_⟩
    · rw [ring, stream]
      rfl
    · rw [channel, open_]
  single := owned.single

theorem sessionStep_preserves {sessions next : Sessions α} {label : SessionLabel α}
    (shape : SessionShape sessions.audio) (owned : WriterOwned sessions.audio)
    (waits : WaitsForWriter sessions label) (stepped : sessionStep sessions label = some next) :
    SessionShape next.audio ∧ WriterOwned next.audio := by
  cases label with
  | streamBegin alloc sampleRate bits channels ringBytes =>
      obtain rfl := Option.some.inj stepped
      exact ⟨shape.audioOutStreamBegin .., owned.audioOutStreamBegin shape ..⟩
  | push pcm =>
      obtain rfl := Option.some.inj stepped
      exact ⟨shape.audioOutStreamPush pcm, owned.audioOutStreamPush pcm⟩
  | activate i2s taskCreated =>
      obtain rfl := Option.some.inj stepped
      exact ⟨shape.audioOutStreamActivate .., owned.audioOutStreamActivate ..⟩
  | endCall =>
      simp only [sessionStep, audioOutStreamEnd] at stepped
      split_ifs at stepped with inactive draining
      · obtain rfl := Option.some.inj stepped
        exact ⟨shape, owned⟩
      · obtain rfl := Option.some.inj stepped
        exact ⟨shape.stopping, owned.stopping⟩
      · obtain rfl := Option.some.inj stepped
        have idle : sessions.audio.streamDraining = false := by simpa using draining
        exact ⟨SessionShape.releaseStream idle,
          WriterOwned.releaseStream (owned.writers_nil idle)⟩
  | endReturn waiter timedOut =>
      simp only [sessionStep] at stepped
      split at stepped
      · contradiction
      · obtain ⟨audio, returned, rfl⟩ := Option.map_eq_some_iff.mp stepped
        exact ⟨SessionShape.audioOutStreamEndReturn returned,
          (owned.audioOutStreamEndReturn waits returned).2⟩
  | writer index allocated =>
      obtain ⟨audio, moved, rfl⟩ := Option.map_eq_some_iff.mp stepped
      obtain ⟨writer, found, move⟩ := writerStep_cases moved
      exact ⟨shape.writerMove move, owned.writerMove found move⟩

/-- Giving up on a live writer breaks the lifecycle at once: its ring is gone. -/
theorem lifecycle_broken {sessions next : Sessions α} {label : SessionLabel α}
    (abandons : ¬ WaitsForWriter sessions label)
    (stepped : sessionStep sessions label = some next) : ¬ Lifecycle next.audio := by
  intro lifecycle
  cases label with
  | endReturn waiter timedOut =>
      simp only [WaitsForWriter, Classical.not_imp] at abandons
      simp only [sessionStep] at stepped
      split at stepped
      · contradiction
      · obtain ⟨audio, returned, rfl⟩ := Option.map_eq_some_iff.mp stepped
        obtain ⟨rfl, -⟩ := endReturn_cases returned
        obtain ⟨writer, member⟩ := List.exists_mem_of_ne_nil _ abandons.2
        obtain ⟨⟨ring, gone, -⟩, -⟩ := lifecycle.writer writer member
        contradiction
  | _ => exact abandons trivial

/-- A run keeps the lifecycle in every state it visits exactly when no
`audio_out_stream_end` of it gives up on a live writer. -/
theorem lifecycle_iff_waitsForWriter {labels : List (SessionLabel α)} {final : Sessions α}
    (ran : (sessionMachine α).run labels = some final) :
    (sessionMachine α).Always (fun sessions => Lifecycle sessions.audio)
        (sessionMachine α).init labels ↔
      (sessionMachine α).Along WaitsForWriter (sessionMachine α).init labels :=
  Machine.always_iff_along
    (fun sessions : Sessions α => SessionShape sessions.audio ∧ WriterOwned sessions.audio)
    (fun _ kept => lifecycle_of_shape kept.1 kept.2)
    (fun _ _ _ kept waits stepped => sessionStep_preserves kept.1 kept.2 waits stepped)
    (fun _ _ _ _ abandons stepped => lifecycle_broken abandons stepped)
    ⟨sessionShape_boot, writerOwned_boot⟩ ran

/-- A session that plays two bytes and is ended after its writer has exited. -/
def drainedRun : List (SessionLabel UInt8) :=
  [.streamBegin ⟨true, true, true⟩ 16000 16 1 1024, .push [7, 9], .activate .opened true,
    .writer 0 true, .writer 0 true, .endCall, .writer 0 true, .writer 0 true, .endReturn 0 false]

/-- A session whose end times out before its writer has received anything. -/
def abandonedRun : List (SessionLabel UInt8) :=
  [.streamBegin ⟨true, true, true⟩ 16000 16 1 1024, .activate .opened true,
    .writer 0 true, .endCall, .endReturn 0 true]

theorem lifecycle_of_drainedRun :
    (sessionMachine UInt8).Always (fun sessions => Lifecycle sessions.audio)
      (sessionMachine UInt8).init drainedRun :=
  (@lifecycle_iff_waitsForWriter UInt8 drainedRun _ rfl).mpr (by decide)

theorem lifecycle_not_of_abandonedRun :
    ¬ ∀ (labels : List (SessionLabel UInt8)) (final : Sessions UInt8),
      (sessionMachine UInt8).run labels = some final → Lifecycle final.audio := by
  intro always
  have lifecycle := always abandonedRun _ rfl
  obtain ⟨⟨ring, gone, -⟩, -⟩ := lifecycle.writer ⟨some 1, some 3, .receiving⟩ (by decide)
  contradiction

end WallUnit.Firmware.AudioOut
