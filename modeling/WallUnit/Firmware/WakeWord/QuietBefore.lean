import WallUnit.Firmware.WakeWord.Pause
import WallUnit.Foundations.Window

/-!
Owns the age of the audio behind `pre_avg_meansq`: the tasks of `Pause` with a record
of the samples received and of the chunk each slot of the rings was computed from.
`looksBack_iff` says when the quiet-before gate looks only at audio that is a second
old: the rings count chunks, and a chunk may be short.

Does not own whether the gate accepts.
-/

namespace WallUnit.Firmware.WakeWord

open WallUnit.Foundations

/-- `QUIET_PRE_OFFSET`. -/
def quietPreOffset : Nat := 100

/-! ### The record -/

/-- What one `audio_in_consume_wake` returned, and how many samples came before it. -/
structure Chunk where
  start : Nat
  pcm : List Int
deriving DecidableEq, Repr

def Chunk.stop (chunk : Chunk) : Nat := chunk.start + chunk.pcm.length

/-- The two tasks, how many samples have been received, the chunks recorded in the
rings, newest first, and the chunk behind each slot. -/
structure Taped where
  state : State
  received : Nat
  recorded : List Chunk
  origins : Nat → Option Chunk

/-- One step of `wake_word_task_fn`. A chunk is recorded when the room is found
occupied. -/
def tape (input : Iteration) (taped : Taped) : Taped :=
  let next := wakeStep input taped.state
  if taped.state.wakePc = .consume then
    let received := taped.received + input.pcm.length
    if next.wakePc = .loadPaused then
      let chunk := ⟨taped.received, input.pcm⟩
      { state := next
        received := received
        recorded := chunk :: taped.recorded
        origins := Function.update taped.origins taped.state.vars.satRingIdx (some chunk) }
    else { taped with state := next, received := received }
  else { taped with state := next }

def tapedStep (taped : Taped) : Label → Option Taped
  | .wake input => some (tape input taped)
  | .main input => (mainStep input taped.state).map fun state => { taped with state := state }

def tapeMachine (now : Int) : Machine Taped Label where
  init := ⟨.boot now, 0, [], fun _ => none⟩
  step := tapedStep

/-- The record does not change what the tasks do. -/
theorem tapedStep_state (taped : Taped) (label : Label) :
    (tapedStep taped label).map Taped.state = step taped.state label := by
  cases label with
  | wake input =>
      simp only [tapedStep, tape, step, Option.map_some]
      split_ifs <;> rfl
  | main input =>
      simp only [tapedStep, step, Option.map_map]
      exact Option.map_id'

/-- The room is occupied at every read, and no read returns more than it asked for. -/
def Listening (taped : Taped) : Label → Prop
  | .wake input =>
      taped.state.wakePc = .consume → input.pcm.length ≤ chunkSamples ∧
        (input.pcm ≠ [] → (checkRoomOccupied input taped.state.vars.lastPresenceUs).1 = true)
  | .main _ => True

/-! ### What the gate looks at -/

/-- Sample number `sample` is one that `pre_avg_meansq` is computed from. -/
def Contributes (taped : Taped) (sample : Nat) : Prop :=
  ∃ i < quietPreSpan, ∃ chunk,
    taped.origins ((taped.state.vars.satRingIdx + i) % satWindowChunks) = some chunk ∧
      chunk.start ≤ sample ∧ sample < chunk.stop

/-- Every sample behind `pre_avg_meansq` precedes the newest sample received, which is
number `received - 1`, by at least 1000 ms. -/
def LooksBack (taped : Taped) : Prop :=
  ∀ sample, Contributes taped sample →
    sample + quietPreOffset * chunkSamples ≤ taped.received - 1

/-- The chunks, newest first, follow one another up to sample number `stop`. -/
def Consecutive : Nat → List Chunk → Prop
  | stop, [] => stop = 0
  | stop, chunk :: older => chunk.stop = stop ∧ Consecutive chunk.start older

/-- The samples in a list of chunks. -/
def samplesIn (chunks : List Chunk) : Nat := (chunks.map fun chunk => chunk.pcm.length).sum

/-- What the record says of the rings. -/
structure Recorded (taped : Taped) : Prop where
  window : Window satWindowChunks none taped.origins taped.state.vars.satRingIdx
    (taped.recorded.map some)
  meansq : ∀ slot, taped.state.vars.meansqRing slot =
    (taped.origins slot).elim 0 fun chunk => chunkMeansq chunk.pcm
  consecutive : Consecutive taped.received taped.recorded
  sized : ∀ chunk ∈ taped.recorded, 0 < chunk.pcm.length ∧ chunk.pcm.length ≤ chunkSamples

/-! ### One step -/

/-- The gates do not write the rings. -/
theorem decideFire_rings (input : Iteration) (vars : LoopVars) :
    (decideFire input vars).2.meansqRing = vars.meansqRing ∧
      (decideFire input vars).2.satRingIdx = vars.satRingIdx := by
  simp only [decideFire]
  split_ifs <;> exact ⟨rfl, rfl⟩

/-- Past the read of an iteration the rings are not written. -/
theorem wakeStep_rings {input : Iteration} {state : State} (past : state.wakePc ≠ .consume) :
    (wakeStep input state).vars.meansqRing = state.vars.meansqRing ∧
      (wakeStep input state).vars.satRingIdx = state.vars.satRingIdx := by
  unfold wakeStep
  cases pc : state.wakePc with
  | consume => exact absurd pc past
  | gates => exact decideFire_rings input state.vars
  | loadWarmup steps =>
      simp only
      split_ifs <;> exact ⟨rfl, rfl⟩
  | _ => exact ⟨rfl, rfl⟩

theorem mainStep_vars {input : MainInput} {state next : State}
    (moved : mainStep input state = some next) : next.vars = state.vars := by
  unfold mainStep at moved
  cases pc : state.mainPc with
  | waitBits =>
      simp only [pc] at moved
      split_ifs at moved
      cases moved
      rfl
  | _ =>
      simp only [pc] at moved
      cases moved
      rfl

/-- A read that returned nothing leaves the tasks alone. -/
theorem wakeStep_unread {input : Iteration} {state : State} (reading : state.wakePc = .consume)
    (unread : input.pcm = []) : wakeStep input state = state := by
  simp only [wakeStep, reading, consume, if_pos unread]

/-- What an occupied room brings goes into the rings. -/
theorem wakeStep_heard {input : Iteration} {state : State} (reading : state.wakePc = .consume)
    (read : input.pcm ≠ [])
    (occupied : (checkRoomOccupied input state.vars.lastPresenceUs).1 = true) :
    (wakeStep input state).wakePc = .loadPaused ∧
      (wakeStep input state).vars.meansqRing =
        Function.update state.vars.meansqRing state.vars.satRingIdx (chunkMeansq input.pcm) ∧
      (wakeStep input state).vars.satRingIdx =
        (state.vars.satRingIdx + 1) % satWindowChunks := by
  simp only [wakeStep, reading, consume, if_neg read, occupied]
  exact ⟨rfl, rfl, rfl⟩

/-- A step that leaves the rings and the record alone. -/
theorem Recorded.of_same {taped : Taped} (kept : Recorded taped) {state : State}
    (meansq : state.vars.meansqRing = taped.state.vars.meansqRing)
    (index : state.vars.satRingIdx = taped.state.vars.satRingIdx) :
    Recorded { taped with state := state } where
  window := by
    show Window _ _ _ state.vars.satRingIdx _
    rw [index]
    exact kept.window
  meansq := by
    show ∀ slot, state.vars.meansqRing slot = _
    rw [meansq]
    exact kept.meansq
  consecutive := kept.consecutive
  sized := kept.sized

/-- A chunk that is recorded becomes the newest. -/
theorem Recorded.hear {taped : Taped} (kept : Recorded taped) {input : Iteration}
    (reading : taped.state.wakePc = .consume) (read : input.pcm ≠ [])
    (occupied : (checkRoomOccupied input taped.state.vars.lastPresenceUs).1 = true)
    (short : input.pcm.length ≤ chunkSamples) : Recorded (tape input taped) := by
  obtain ⟨pc, meansq, index⟩ := wakeStep_heard reading read occupied
  simp only [tape, if_pos reading, if_pos pc]
  constructor
  · show Window _ _ _ (wakeStep input taped.state).vars.satRingIdx _
    rw [index]
    exact kept.window.push (some ⟨taped.received, input.pcm⟩)
  · intro slot
    dsimp only
    rw [meansq]
    by_cases here : slot = taped.state.vars.satRingIdx
    · rw [here, Function.update_self, Function.update_self]
      rfl
    · rw [Function.update_of_ne here, Function.update_of_ne here]
      exact kept.meansq slot
  · exact ⟨rfl, kept.consecutive⟩
  · exact List.forall_mem_cons.mpr ⟨⟨List.length_pos_iff.mpr read, short⟩, kept.sized⟩

theorem recorded_step {taped next : Taped} {label : Label} (kept : Recorded taped)
    (listening : Listening taped label) (stepped : tapedStep taped label = some next) :
    Recorded next := by
  cases label with
  | main input =>
      obtain ⟨state, moved, rfl⟩ := Option.map_eq_some_iff.mp stepped
      have same := mainStep_vars moved
      exact kept.of_same (by rw [same]) (by rw [same])
  | wake input =>
      obtain rfl := Option.some.inj stepped
      by_cases reading : taped.state.wakePc = .consume
      · obtain ⟨short, occupied⟩ := listening reading
        by_cases read : input.pcm = []
        · have idle := wakeStep_unread reading read
          have notRecorded : taped.state.wakePc ≠ .loadPaused := by
            rw [reading]
            decide
          simp only [tape, idle, if_pos reading, if_neg notRecorded, read, List.length_nil,
            Nat.add_zero]
          exact kept
        · exact kept.hear reading read (occupied read) short
      · obtain ⟨meansq, index⟩ := @wakeStep_rings input taped.state reading
        simp only [tape, if_neg reading]
        exact kept.of_same meansq index

theorem recorded_boot (now : Int) : Recorded (tapeMachine now).init where
  window := Window.blank_start (by decide)
  meansq := fun _ => rfl
  consecutive := rfl
  sized := List.forall_mem_nil _

theorem recorded_of_run {now : Int} {labels : List Label} {final : Taped}
    (listening : (tapeMachine now).Along Listening (tapeMachine now).init labels)
    (ran : (tapeMachine now).run labels = some final) : Recorded final :=
  Machine.invariant_along (recorded_boot now)
    (fun _ _ _ kept listening stepped => recorded_step kept listening stepped) listening ran

/-! ### The window -/

/-- The slots the gate reads hold the chunks of age 100 to 149. -/
theorem origin_of_span {taped : Taped} (kept : Recorded taped) {i : Nat}
    (inside : i < quietPreSpan) :
    taped.origins ((taped.state.vars.satRingIdx + i) % satWindowChunks) =
      taped.recorded[satWindowChunks - 1 - i]? := by
  have within : i < satWindowChunks := Nat.lt_trans inside (by decide)
  rw [kept.window.oldest within, List.getD_eq_getElem?_getD, List.getElem?_map]
  cases taped.recorded[satWindowChunks - 1 - i]? <;> rfl

/-- `pre_avg_meansq` is the average over these chunks. -/
theorem preAvgMeansq_eq {taped : Taped} (kept : Recorded taped) :
    preAvgMeansq taped.state.vars =
      ((List.range quietPreSpan).map fun i =>
        (taped.recorded[satWindowChunks - 1 - i]?).elim 0 fun chunk =>
          chunkMeansq chunk.pcm).sum / quietPreSpan := by
  rw [preAvgMeansq]
  congr 2
  apply List.map_congr_left
  intro i member
  rw [kept.meansq, origin_of_span kept (List.mem_range.mp member)]

/-- Between the end of a chunk and the newest sample lie the chunks recorded since. -/
theorem stop_add_newer {stop : Nat} {chunks : List Chunk} (consecutive : Consecutive stop chunks)
    {age : Nat} {chunk : Chunk} (found : chunks[age]? = some chunk) :
    chunk.stop + samplesIn (chunks.take age) = stop := by
  induction chunks generalizing stop age with
  | nil => exact absurd found (by simp)
  | cons newest older inductionHypothesis =>
      obtain ⟨here, consecutive⟩ := consecutive
      cases age with
      | zero =>
          obtain rfl := Option.some.inj found
          exact here
      | succ age =>
          have later := inductionHypothesis consecutive found
          rw [Chunk.stop] at here
          rw [List.take_succ_cons, samplesIn, List.map_cons, List.sum_cons]
          rw [samplesIn] at later
          omega

theorem samplesIn_le {chunks : List Chunk}
    (sized : ∀ chunk ∈ chunks, chunk.pcm.length ≤ chunkSamples) :
    samplesIn chunks ≤ chunks.length * chunkSamples := by
  induction chunks with
  | nil => exact Nat.le_refl 0
  | cons chunk rest inductionHypothesis =>
      rw [List.forall_mem_cons] at sized
      have later := inductionHypothesis sized.2
      rw [samplesIn] at later
      rw [samplesIn, List.map_cons, List.sum_cons, List.length_cons, Nat.succ_mul]
      omega

/-- Chunks hold as many samples as they could exactly when all of them are full. -/
theorem full_iff {chunks : List Chunk}
    (sized : ∀ chunk ∈ chunks, chunk.pcm.length ≤ chunkSamples) :
    chunks.length * chunkSamples ≤ samplesIn chunks ↔
      ∀ chunk ∈ chunks, chunk.pcm.length = chunkSamples := by
  induction chunks with
  | nil => exact ⟨fun _ => List.forall_mem_nil _, fun _ => Nat.le_refl 0⟩
  | cons chunk rest inductionHypothesis =>
      rw [List.forall_mem_cons] at sized ⊢
      have later := samplesIn_le sized.2
      rw [← inductionHypothesis sized.2]
      rw [samplesIn] at later ⊢
      rw [samplesIn, List.map_cons, List.sum_cons, List.length_cons, Nat.succ_mul]
      omega

theorem samplesIn_take_le (chunks : List Chunk) {fewer more : Nat} (le : fewer ≤ more) :
    samplesIn (chunks.take fewer) ≤ samplesIn (chunks.take more) := by
  have isFirst : chunks.take fewer <+: chunks.take more := List.take_prefix_take_left le
  obtain ⟨older, split⟩ := isFirst
  rw [← split, samplesIn, samplesIn, List.map_append, List.sum_append]
  exact Nat.le_add_right _ _

/-- The gate looks back far enough exactly when the chunks it skips hold a second of
audio. -/
theorem looksBack_iff_samplesIn {taped : Taped} (kept : Recorded taped)
    (filled : satWindowChunks ≤ taped.recorded.length) :
    LooksBack taped ↔
      quietPreOffset * chunkSamples ≤ samplesIn (taped.recorded.take quietPreOffset) := by
  constructor
  · intro looksBack
    have present : quietPreOffset < taped.recorded.length := Nat.lt_of_lt_of_le (by decide) filled
    have found := List.getElem?_eq_getElem present
    have sized := (kept.sized _ (List.getElem_mem present)).1
    have newer := stop_add_newer kept.consecutive found
    have origin := @origin_of_span taped kept (quietPreSpan - 1) (by decide)
    have contributes : Contributes taped (taped.recorded[quietPreOffset].stop - 1) := by
      refine ⟨quietPreSpan - 1, by decide, _, origin.trans found, ?_, ?_⟩
      · rw [Chunk.stop]
        omega
      · rw [Chunk.stop]
        omega
    have back := looksBack _ contributes
    rw [Chunk.stop] at newer back
    omega
  · rintro second sample ⟨i, inside, chunk, origin, -, before⟩
    rw [origin_of_span kept inside] at origin
    have newer := stop_add_newer kept.consecutive origin
    have age : quietPreOffset ≤ satWindowChunks - 1 - i := by
      simp only [quietPreOffset, satWindowChunks]
      simp only [quietPreSpan] at inside
      omega
    have more := samplesIn_take_le taped.recorded age
    omega

/-- That is when each of the newest hundred chunks was full. -/
theorem looksBack_iff_full {taped : Taped} (kept : Recorded taped)
    (filled : satWindowChunks ≤ taped.recorded.length) :
    LooksBack taped ↔
      ∀ chunk ∈ taped.recorded.take quietPreOffset, chunk.pcm.length = chunkSamples := by
  have length : (taped.recorded.take quietPreOffset).length = quietPreOffset :=
    List.length_take_of_le (Nat.le_trans (by decide) filled)
  have sized : ∀ chunk ∈ taped.recorded.take quietPreOffset, chunk.pcm.length ≤ chunkSamples :=
    fun chunk member => (kept.sized chunk (List.mem_of_mem_take member)).2
  rw [looksBack_iff_samplesIn kept filled, ← full_iff sized, length]

/-- After every run that has filled the rings, in particular when the quiet-before gate
is evaluated, it looks only at audio a second old exactly when each of the newest
hundred chunks was full. -/
theorem looksBack_iff {now : Int} {labels : List Label} {final : Taped}
    (listening : (tapeMachine now).Along Listening (tapeMachine now).init labels)
    (ran : (tapeMachine now).run labels = some final)
    (filled : satWindowChunks ≤ final.recorded.length) :
    LooksBack final ↔
      ∀ chunk ∈ final.recorded.take quietPreOffset, chunk.pcm.length = chunkSamples :=
  looksBack_iff_full (recorded_of_run listening ran) filled

/-! ### Runs of iterations -/

/-- The steps of an iteration up to the gates. -/
def upToGates (input : Iteration) : List Label := List.replicate 4 (.wake input)

def Taped.hear (input : Iteration) (taped : Taped) : Taped where
  state := { taped.state with
    vars := advanceRings input.pcm
      { taped.state.vars with lastPresenceUs := input.nowUs, wasOccupied := true }
    wakePc := .gates
    lastScore := input.score }
  received := taped.received + input.pcm.length
  recorded := ⟨taped.received, input.pcm⟩ :: taped.recorded
  origins := Function.update taped.origins taped.state.vars.satRingIdx
    (some ⟨taped.received, input.pcm⟩)

/-- The wake-word task is about to read, not paused and past its warm-up, in a room it
knows to be occupied. -/
structure Ready (taped : Taped) : Prop where
  reading : taped.state.wakePc = .consume
  awake : taped.state.paused = false
  warm : taped.state.warmupLeft = 0
  occupied : taped.state.vars.wasOccupied = true

/-- Somebody moves, and the read returns samples. -/
structure Heard (input : Iteration) : Prop where
  moving : input.pir = true
  read : input.pcm ≠ []
  short : input.pcm.length ≤ chunkSamples

/-- A run that listens all along. -/
structure Reaches (now : Int) (taped : Taped) (labels : List Label) (next : Taped) : Prop where
  ran : (tapeMachine now).runFrom taped labels = some next
  listening : (tapeMachine now).Along Listening taped labels

theorem Reaches.trans {now : Int} {first second third : Taped} {left right : List Label}
    (before : Reaches now first left second) (after : Reaches now second right third) :
    Reaches now first (left ++ right) third where
  ran := (Machine.runFrom_append right before.ran).trans after.ran
  listening := before.listening.append before.ran after.listening

theorem reaches_gates {now : Int} {input : Iteration} {taped : Taped} (heard : Heard input)
    (ready : Ready taped) : Reaches now taped (upToGates input) (taped.hear input) := by
  obtain ⟨⟨vars, pc, mainPc, paused, warmupLeft, lastScore, trigger⟩, received, recorded,
    origins⟩ := taped
  obtain ⟨rfl, rfl, rfl, occupied⟩ := ready
  dsimp only at occupied
  have present (last : Int) : checkRoomOccupied input last = (true, input.nowUs) := by
    rw [checkRoomOccupied, heard.moving]
    rfl
  constructor
  · simp [upToGates, Machine.runFrom, tapeMachine, tapedStep, tape, wakeStep, consume, heard.read,
      present, occupied, Taped.hear]
  · simp [upToGates, Machine.Along, tapeMachine, tapedStep, tape, wakeStep, consume, heard.read,
      present, occupied, Listening, heard.short]

/-- The streak is long enough: the quiet-before gate is evaluated. -/
def Evaluates (input : Iteration) (taped : Taped) : Prop :=
  taped.state.wakePc = .gates ∧
    (advanceStreak input.score input.steps input.threshold
      taped.state.vars.consecAbove).1 = true

/-- A whole iteration whose streak is not long enough. -/
theorem reaches_next {now : Int} {input : Iteration} {taped : Taped} (heard : Heard input)
    (ready : Ready taped)
    (calm : (advanceStreak input.score input.steps input.threshold
      taped.state.vars.consecAbove).1 = false) :
    ∃ next, Reaches now taped (upToGates input ++ [.wake input]) next ∧ Ready next ∧
      next.recorded = ⟨taped.received, input.pcm⟩ :: taped.recorded ∧
      next.state.vars.consecAbove = (advanceStreak input.score input.steps input.threshold
        taped.state.vars.consecAbove).2 := by
  have decided : decideFire input (taped.hear input).state.vars = (false,
      { (taped.hear input).state.vars with
        consecAbove := (advanceStreak input.score input.steps input.threshold
          taped.state.vars.consecAbove).2 }) := by
    simp [decideFire, Taped.hear, advanceRings, calm]
  have heardAll := @reaches_gates now input taped heard ready
  have past : (taped.hear input).state.wakePc ≠ .consume := by
    simp [Taped.hear]
  have gates : tape input (taped.hear input) =
      { taped.hear input with state := wakeStep input (taped.hear input).state } := by
    simp only [tape, if_neg past]
  have moved : wakeStep input (taped.hear input).state =
      { (taped.hear input).state with
        vars := (decideFire input (taped.hear input).state.vars).2
        wakePc := .consume } := by
    have atGates : (taped.hear input).state.wakePc = .gates := rfl
    simp only [wakeStep, atGates, decided]
    rfl
  have last : Reaches now (taped.hear input) [.wake input] (tape input (taped.hear input)) :=
    ⟨rfl, fun reading => absurd reading past, trivial⟩
  refine ⟨_, heardAll.trans last, ?_, ?_, ?_⟩
  · rw [gates, moved, decided]
    exact ⟨rfl, ready.awake, ready.warm, rfl⟩
  · rw [gates]
    rfl
  · rw [gates, moved, decided]

/-- An iteration that hears `size` samples, with somebody in the room and a high score. -/
def hearing (size steps : Nat) : Iteration :=
  ⟨List.replicate size 0, true, none, 0, 255, steps, 200⟩

theorem heard_hearing {size : Nat} (some_ : 0 < size) (short : size ≤ chunkSamples) (steps : Nat) :
    Heard (hearing size steps) where
  moving := rfl
  read := List.ne_nil_of_length_pos (by rwa [hearing, List.length_replicate])
  short := by rwa [hearing, List.length_replicate]

/-- `count` full chunks without an inference. -/
def steadyRun (count : Nat) : List Label :=
  (List.replicate count
    (upToGates (hearing chunkSamples 0) ++ [.wake (hearing chunkSamples 0)])).flatten

theorem reaches_steady {now : Int} {taped : Taped} (ready : Ready taped)
    (fresh : taped.state.vars.consecAbove = 0) (count : Nat) :
    ∃ next, Reaches now taped (steadyRun count) next ∧ Ready next ∧
      next.state.vars.consecAbove = 0 ∧
      next.recorded.length = taped.recorded.length + count ∧
      ((∀ chunk ∈ taped.recorded, chunk.pcm.length = chunkSamples) →
        ∀ chunk ∈ next.recorded, chunk.pcm.length = chunkSamples) := by
  induction count generalizing taped with
  | zero => exact ⟨taped, ⟨rfl, trivial⟩, ready, fresh, rfl, id⟩
  | succ count inductionHypothesis =>
      have heard := heard_hearing (show 0 < chunkSamples by decide) (Nat.le_refl _) 0
      obtain ⟨middle, first, readyMiddle, recorded, streak⟩ :=
        @reaches_next now _ taped heard ready rfl
      obtain ⟨next, rest, readyNext, freshNext, length, full⟩ :=
        inductionHypothesis readyMiddle (streak.trans fresh)
      refine ⟨next, first.trans rest, readyNext, freshNext, ?_, ?_⟩
      · rw [length, recorded, List.length_cons]
        omega
      · intro before
        apply full
        rw [recorded]
        exact List.forall_mem_cons.mpr ⟨List.length_replicate, before⟩

theorem ready_boot (now : Int) : Ready (tapeMachine now).init := ⟨rfl, rfl, rfl, rfl⟩

theorem looksBack_of_steadyRun :
    ∃ final, (tapeMachine 0).run (steadyRun 150) = some final ∧ LooksBack final := by
  obtain ⟨final, reached, -, -, length, full⟩ := @reaches_steady 0 _ (ready_boot 0) rfl 150
  have filled : satWindowChunks ≤ final.recorded.length := by
    rw [length]
    exact Nat.le_add_left _ _
  refine ⟨final, reached.ran, (looksBack_iff reached.listening reached.ran filled).mpr ?_⟩
  exact fun chunk member => full (List.forall_mem_nil _) chunk (List.mem_of_mem_take member)

/-- Full chunks, a short one that starts a streak, and a full one that completes it. -/
def shortChunkRun : List Label :=
  steadyRun 148 ++ (upToGates (hearing 64 1) ++ [.wake (hearing 64 1)]) ++
    upToGates (hearing chunkSamples 1)

theorem looksBack_not_of_shortChunkRun :
    ¬ ∀ (now : Int) (labels : List Label) (final : Taped) (input : Iteration),
      (tapeMachine now).Along Listening (tapeMachine now).init labels →
      (tapeMachine now).run labels = some final → satWindowChunks ≤ final.recorded.length →
      Evaluates input final → LooksBack final := by
  intro always
  obtain ⟨steady, before, ready, fresh, length, -⟩ := @reaches_steady 0 _ (ready_boot 0) rfl 148
  obtain ⟨short, during, readyShort, recorded, streak⟩ :=
    @reaches_next 0 (hearing 64 1) steady (heard_hearing (by decide) (by decide) 1) ready
      (by rw [fresh]; decide)
  have after := @reaches_gates 0 (hearing chunkSamples 1) short
    (heard_hearing (by decide) (by decide) 1) readyShort
  have reached : Reaches 0 (tapeMachine 0).init shortChunkRun _ := (before.trans during).trans after
  have filled : satWindowChunks ≤ (short.hear (hearing chunkSamples 1)).recorded.length := by
    rw [Taped.hear, List.length_cons, recorded, List.length_cons, length]
    exact Nat.le_add_left _ _
  have evaluates :
      Evaluates (hearing chunkSamples 1) (short.hear (hearing chunkSamples 1)) := by
    refine ⟨rfl, ?_⟩
    show (advanceStreak 255 1 200 short.state.vars.consecAbove).1 = true
    rw [streak, fresh]
    decide
  have looksBack := always 0 shortChunkRun _ _ reached.listening reached.ran filled evaluates
  have kept := recorded_of_run reached.listening reached.ran
  have full := (looksBack_iff_full kept filled).mp looksBack ⟨steady.received, List.replicate 64 0⟩
  rw [Taped.hear, recorded] at full
  have wrong : (List.replicate 64 (0 : Int)).length = chunkSamples :=
    full (by simp [quietPreOffset, hearing])
  exact absurd wrong (by decide)

end WallUnit.Firmware.WakeWord
