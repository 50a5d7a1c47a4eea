import Mathlib
import WallUnit.Foundations.BoundedFifo
import WallUnit.Foundations.EndPoint
import WallUnit.Foundations.Machine

/-!
Owns `followup_detect_speech` and the wake ring it listens to, in every interleaving with the
reader task that fills the ring and with the clock. What it calibrates on and what it judges is
one stretch of the recording, none of it recorded before the settling delay was over, and it
answers by the first run of loud chunks in that stretch: `followupDetectSpeech_hears`.

Does not own how a call of `audio_in_consume_wake` is served, which `AudioIn` does. Energies are
natural numbers: for 160 samples of 16 bits they are below 2^31, so `int64_t` holds every sum.
-/

namespace WallUnit.Firmware.Followup

open WallUnit.Foundations

/-- `CHUNK_SAMPLES`. -/
def chunkSamples : Nat := 160

/-- `CAL_CHUNKS`. -/
def calChunks : Nat := 20

structure FollowupConfig where
  windowMs : Int
  energyThreshold : Int
  debounceChunks : Int
deriving DecidableEq, Repr

/-- `sum_sq / got`. -/
def meanSq (chunk : List Int) : Nat :=
  (chunk.map fun sample => sample.natAbs * sample.natAbs).sum / chunk.length

def baseline (calSum calGot : Nat) : Nat := if calGot = 0 then 0 else calSum / calGot

/-- The two `if`s on the threshold. -/
def threshold (config : FollowupConfig) (baseline : Nat) : Int :=
  let threshold : Int := baseline * 3
  let threshold := if threshold < 30000000 then 30000000 else threshold
  if threshold < config.energyThreshold then config.energyThreshold else threshold

/-- The variables of the detection loop. -/
structure Watch where
  threshold : Int
  deadline : Int
  consec : Nat
deriving DecidableEq, Repr

/-- Where `followup_detect_speech` is. `flushing` and `calibrating` carry how many of their
reads are left. -/
inductive Phase where
  | called
  | flushing (left : Nat)
  | settling
  | draining
  | calibrating (left calSum calGot : Nat)
  | opening (threshold : Int)
  | testing (watch : Watch)
  | polling (watch : Watch)
  | answered (speech : Bool)
deriving DecidableEq, Repr

/-- `accepted` is all that the ring took from the reader task, `settled` how much of it there
was when the settling delay was over, `discarded` what the flushes threw away, `opened` the time
when the window was opened, and `calibration` and `watched` are the chunks that were looked at. -/
structure FollowupState where
  ring : BoundedFifo Int
  now : Int
  phase : Phase
  accepted : List Int
  settled : Nat
  discarded : List Int
  opened : Int
  calibration : List (List Int)
  watched : List (List Int)

inductive Label where
  /-- `xRingbufferSend` of the reader task. -/
  | send (samples : List Int)
  | elapse (micros : Nat)
  /-- The kill switch is tested. -/
  | enter
  /-- The settling delay is over. -/
  | settle
  /-- `audio_in_consume_wake` returns `got`; it returns 0 only if it finds the ring empty. -/
  | consume (got : Nat)
  /-- The deadline is computed. -/
  | openWindow
  /-- The deadline is tested. -/
  | look
deriving DecidableEq, Repr

/-- A read of the first flush. -/
def FollowupState.flush (left : Nat) (chunk : List Int) (state : FollowupState) :
    FollowupState :=
  { state with
    discarded := state.discarded ++ chunk
    phase := if chunk = [] ∨ left ≤ 1 then .settling else .flushing (left - 1) }

/-- A read of the second flush. -/
def FollowupState.drain (chunk : List Int) (state : FollowupState) : FollowupState :=
  { state with
    discarded := state.discarded ++ chunk
    phase := if chunk = [] then .calibrating calChunks 0 0 else .draining }

/-- A read of the calibration; an empty one counts as a round and for nothing else. -/
def FollowupState.calibrate (config : FollowupConfig) (left calSum calGot : Nat)
    (chunk : List Int) (state : FollowupState) : FollowupState :=
  let heard : Bool := !chunk.isEmpty
  let calSum := if heard then calSum + meanSq chunk else calSum
  let calGot := if heard then calGot + 1 else calGot
  { state with
    calibration := if heard then state.calibration ++ [chunk] else state.calibration
    phase :=
      if left ≤ 1 then .opening (threshold config (baseline calSum calGot))
      else .calibrating (left - 1) calSum calGot }

/-- A read of the detection loop. -/
def FollowupState.poll (config : FollowupConfig) (watch : Watch) (chunk : List Int)
    (state : FollowupState) : FollowupState :=
  if chunk = [] then { state with phase := .testing watch }
  else
    { state with
      watched := state.watched ++ [chunk]
      phase :=
        if watch.threshold ≤ meanSq chunk then
          if config.debounceChunks ≤ (watch.consec + 1 : Nat) then .answered true
          else .testing { watch with consec := watch.consec + 1 }
        else .testing { watch with consec := 0 } }

def FollowupState.step (config : FollowupConfig) (state : FollowupState) :
    Label → Option FollowupState
  | .send samples =>
      if samples.length ≤ state.ring.free then
        some { state with
          ring := state.ring.offer samples
          accepted := state.accepted ++ samples }
      else some state
  | .elapse micros => some { state with now := state.now + micros }
  | .enter =>
      match state.phase with
      | .called =>
          some { state with
            phase := if config.windowMs ≤ 0 then .answered false else .flushing 100 }
      | _ => none
  | .settle =>
      match state.phase with
      | .settling => some { state with settled := state.accepted.length, phase := .draining }
      | _ => none
  | .consume got =>
      if got ≤ chunkSamples ∧ got ≤ state.ring.queued.length ∧
          (got = 0 → state.ring.queued = []) then
        let chunk := state.ring.queued.take got
        let taken := { state with ring := state.ring.poll got }
        match state.phase with
        | .flushing left => some (taken.flush left chunk)
        | .draining => some (taken.drain chunk)
        | .calibrating left calSum calGot => some (taken.calibrate config left calSum calGot chunk)
        | .polling watch => some (taken.poll config watch chunk)
        | _ => none
      else none
  | .openWindow =>
      match state.phase with
      | .opening threshold =>
          some { state with
            opened := state.now
            phase := .testing ⟨threshold, state.now + config.windowMs * 1000, 0⟩ }
      | _ => none
  | .look =>
      match state.phase with
      | .testing watch =>
          some { state with
            phase := if state.now < watch.deadline then .polling watch else .answered false }
      | _ => none

/-- A call of `followup_detect_speech` while the reader task goes on. -/
def followupMachine (config : FollowupConfig) (ring : BoundedFifo Int) (now : Int) :
    Machine FollowupState Label where
  init := ⟨ring, now, .called, ring.queued, 0, [], now, [], []⟩
  step := FollowupState.step config

/-! ### What it hears -/

/-- The threshold for the chunks it has calibrated on. -/
def thresholdFor (config : FollowupConfig) (calibration : List (List Int)) : Int :=
  threshold config (baseline (calibration.map meanSq).sum calibration.length)

def isQuiet (level : Int) (chunk : List Int) : Bool := decide ((meanSq chunk : Int) < level)

/-- How many loud chunks in a row are speech. -/
def debounce (config : FollowupConfig) : Nat := max 1 config.debounceChunks.toNat

/-- The chunks end with a run of loud ones that is long enough. -/
def Speech (config : FollowupConfig) (level : Int) (watched : List (List Int)) : Prop :=
  debounce config ≤ trailingRun (isQuiet level) watched

/-- No run of loud chunks has been long enough yet. -/
def NoSpeech (config : FollowupConfig) (level : Int) (watched : List (List Int)) : Prop :=
  ∀ place ≤ watched.length, ¬ Speech config level (watched.take place)

/-- The loop's variables say what has been watched. -/
structure Watching (config : FollowupConfig) (state : FollowupState) (watch : Watch) : Prop where
  threshold : watch.threshold = thresholdFor config state.calibration
  deadline : watch.deadline = state.opened + config.windowMs * 1000
  consec : watch.consec = trailingRun (isQuiet watch.threshold) state.watched
  noSpeech : NoSpeech config watch.threshold state.watched
  fresh : state.settled ≤ state.discarded.length

/-- What is known in each phase. -/
def Knows (config : FollowupConfig) (state : FollowupState) : Prop :=
  match state.phase with
  | .called =>
      state.discarded = [] ∧ state.calibration = [] ∧ state.watched = [] ∧ state.settled = 0
  | .flushing _ | .settling =>
      0 < config.windowMs ∧ state.calibration = [] ∧ state.watched = [] ∧ state.settled = 0
  | .draining =>
      0 < config.windowMs ∧ state.calibration = [] ∧ state.watched = [] ∧
        state.settled ≤ state.accepted.length
  | .calibrating left calSum calGot =>
      0 < config.windowMs ∧ calSum = (state.calibration.map meanSq).sum ∧
        calGot = state.calibration.length ∧ state.calibration.length + left ≤ calChunks ∧
        state.watched = [] ∧ state.settled ≤ state.discarded.length
  | .opening level =>
      0 < config.windowMs ∧ level = thresholdFor config state.calibration ∧
        state.watched = [] ∧ state.settled ≤ state.discarded.length
  | .testing watch | .polling watch => 0 < config.windowMs ∧ Watching config state watch
  | .answered speech =>
      state.settled ≤ state.discarded.length ∧
      (config.windowMs ≤ 0 →
        state.discarded = [] ∧ state.calibration = [] ∧ state.watched = []) ∧
      if speech then
        0 < config.windowMs ∧ Speech config (thresholdFor config state.calibration) state.watched ∧
          ∀ place < state.watched.length,
            ¬ Speech config (thresholdFor config state.calibration) (state.watched.take place)
      else
        NoSpeech config (thresholdFor config state.calibration) state.watched ∧
          (0 < config.windowMs → state.opened + config.windowMs * 1000 ≤ state.now)

structure Hears (config : FollowupConfig) (state : FollowupState) : Prop where
  /-- Nothing of what the ring took is lost or looked at twice. -/
  order : state.accepted =
    state.discarded ++ (state.calibration.flatten ++ state.watched.flatten) ++ state.ring.queued
  knows : Knows config state

section

variable {config : FollowupConfig} {state next : FollowupState}

theorem debounce_pos (config : FollowupConfig) : 0 < debounce config := Nat.le_max_left _ _

theorem noSpeech_nil (config : FollowupConfig) (level : Int) : NoSpeech config level [] := by
  intro place _ speech
  rw [List.take_nil] at speech
  exact absurd (debounce_pos config) (Nat.not_lt_of_le speech)

/-- A chunk that ends no run long enough. -/
theorem NoSpeech.append {level : Int} {watched : List (List Int)} {chunk : List Int}
    (before : NoSpeech config level watched) (now : ¬ Speech config level (watched ++ [chunk])) :
    NoSpeech config level (watched ++ [chunk]) := by
  intro place inside
  rw [List.length_append, List.length_singleton] at inside
  rcases Nat.lt_or_eq_of_le inside with earlier | last
  · rw [List.take_append_of_le_length (Nat.le_of_lt_succ earlier)]
    exact before place (Nat.le_of_lt_succ earlier)
  · rwa [List.take_of_length_le (by rw [List.length_append, List.length_singleton, last])]

/-- What the reader task and the clock do leaves alone what has been heard. -/
theorem Knows.frame {ring : BoundedFifo Int} {now : Int} {more : List Int}
    (knows : Knows config state) (later : state.now ≤ now) :
    Knows config { state with ring := ring, now := now, accepted := state.accepted ++ more } := by
  obtain ⟨_, _, phase, accepted, settled, discarded, opened, calibration, watched⟩ := state
  cases phase with
  | draining =>
      obtain ⟨on, noCalibration, noWatched, fresh⟩ := knows
      refine ⟨on, noCalibration, noWatched, ?_⟩
      rw [List.length_append]
      exact fresh.trans (Nat.le_add_right _ _)
  | called => exact knows
  | flushing left => exact knows
  | settling => exact knows
  | calibrating left calSum calGot => exact knows
  | opening level => exact knows
  | testing watch => exact ⟨knows.1, { knows.2 with }⟩
  | polling watch => exact ⟨knows.1, { knows.2 with }⟩
  | answered speech =>
      obtain ⟨fresh, off, answer⟩ := knows
      refine ⟨fresh, off, ?_⟩
      cases speech with
      | true => exact answer
      | false => exact ⟨answer.1, fun on => Int.le_trans (answer.2 on) later⟩

theorem Hears.send {samples : List Int} (hears : Hears config state)
    (stepped : state.step config (.send samples) = some next) : Hears config next := by
  rw [FollowupState.step] at stepped
  split_ifs at stepped with fits
  · cases stepped
    refine ⟨?_, hears.knows.frame (Int.le_refl _)⟩
    rw [BoundedFifo.offer_queued_of_fits fits, hears.order, List.append_assoc]
  · cases stepped
    exact hears

theorem Hears.elapse {micros : Nat} (hears : Hears config state)
    (stepped : state.step config (.elapse micros) = some next) : Hears config next := by
  cases stepped
  refine ⟨hears.order, ?_⟩
  have later : state.now ≤ state.now + micros := Int.le_add_of_nonneg_right (Int.natCast_nonneg _)
  have knows := @Knows.frame config state state.ring (state.now + micros) [] hears.knows later
  rwa [List.append_nil] at knows

theorem Hears.enter (hears : Hears config state)
    (stepped : state.step config .enter = some next) : Hears config next := by
  obtain ⟨ring, now, phase, accepted, settled, discarded, opened, calibration, watched⟩ := state
  cases phase <;> simp only [FollowupState.step, reduceCtorEq] at stepped
  cases stepped
  obtain ⟨noDiscarded, noCalibration, noWatched, noneSettled⟩ := hears.knows
  refine ⟨hears.order, ?_⟩
  dsimp only at noDiscarded noCalibration noWatched noneSettled
  subst noDiscarded noCalibration noWatched noneSettled
  by_cases off : config.windowMs ≤ 0
  · simp only [if_pos off]
    exact ⟨Nat.zero_le _, fun _ => ⟨rfl, rfl, rfl⟩, noSpeech_nil config _,
      fun on => absurd on (by omega)⟩
  · simp only [if_neg off]
    exact ⟨Int.lt_of_not_ge off, rfl, rfl, rfl⟩

theorem Hears.settle (hears : Hears config state)
    (stepped : state.step config .settle = some next) : Hears config next := by
  obtain ⟨ring, now, phase, accepted, settled, discarded, opened, calibration, watched⟩ := state
  cases phase <;> simp only [FollowupState.step, reduceCtorEq] at stepped
  cases stepped
  obtain ⟨on, noCalibration, noWatched, -⟩ := hears.knows
  exact ⟨hears.order, on, noCalibration, noWatched, Nat.le_refl _⟩

theorem Hears.openWindow (hears : Hears config state)
    (stepped : state.step config .openWindow = some next) : Hears config next := by
  obtain ⟨ring, now, phase, accepted, settled, discarded, opened, calibration, watched⟩ := state
  cases phase <;> simp only [FollowupState.step, reduceCtorEq] at stepped
  cases stepped
  obtain ⟨on, level, noWatched, fresh⟩ := hears.knows
  dsimp only at noWatched
  subst noWatched
  exact ⟨hears.order, on, level, rfl, rfl, noSpeech_nil config _, fresh⟩

theorem Hears.look (hears : Hears config state)
    (stepped : state.step config .look = some next) : Hears config next := by
  obtain ⟨ring, now, phase, accepted, settled, discarded, opened, calibration, watched⟩ := state
  cases phase <;> simp only [FollowupState.step, reduceCtorEq] at stepped
  rename_i watch
  cases stepped
  obtain ⟨on, watching⟩ := hears.knows
  refine ⟨hears.order, ?_⟩
  by_cases early : now < watch.deadline
  · simp only [if_pos early]
    exact ⟨on, { watching with }⟩
  · simp only [if_neg early]
    have none_ := watching.noSpeech
    have late := Int.not_lt.mp early
    rw [watching.threshold] at none_
    rw [watching.deadline] at late
    exact ⟨watching.fresh, fun off => absurd on (Int.not_lt.mpr off), none_, fun _ => late⟩

/-! ### A read -/

/-- A read that returns nothing has found the ring empty. -/
theorem queued_eq_nil {queued : List Int} {got : Nat} (empty : got = 0 → queued = [])
    (nothing : queued.take got = []) : queued = [] :=
  (List.take_eq_nil_iff.mp nothing).elim empty id

/-- A read moves the front of what the ring holds to what has been taken from it. -/
theorem Hears.order_take (hears : Hears config state) (got : Nat) :
    state.accepted = state.discarded ++ (state.calibration.flatten ++ state.watched.flatten) ++
      state.ring.queued.take got ++ (state.ring.poll got).queued := by
  rw [List.append_assoc, BoundedFifo.take_append_poll]
  exact hears.order

theorem Hears.flush {left got : Nat} (hears : Hears config state)
    (phase : state.phase = .flushing left) :
    Hears config (FollowupState.flush left (state.ring.queued.take got)
      { state with ring := state.ring.poll got }) := by
  have order := hears.order_take got
  have knows := hears.knows
  rw [Knows, phase] at knows
  obtain ⟨on, noCalibration, noWatched, noneSettled⟩ := knows
  rw [noCalibration, noWatched, List.flatten_nil, List.append_nil, List.append_nil] at order
  constructor
  · simp only [FollowupState.flush, noCalibration, noWatched, List.flatten_nil, List.append_nil]
    exact order
  · simp only [Knows, FollowupState.flush]
    split_ifs
    · exact ⟨on, noCalibration, noWatched, noneSettled⟩
    · exact ⟨on, noCalibration, noWatched, noneSettled⟩

theorem Hears.drain {got : Nat} (hears : Hears config state)
    (empty : got = 0 → state.ring.queued = []) (phase : state.phase = .draining) :
    Hears config (FollowupState.drain (state.ring.queued.take got)
      { state with ring := state.ring.poll got }) := by
  have order := hears.order_take got
  have knows := hears.knows
  rw [Knows, phase] at knows
  obtain ⟨on, noCalibration, noWatched, fresh⟩ := knows
  rw [noCalibration, noWatched, List.flatten_nil, List.append_nil, List.append_nil] at order
  constructor
  · simp only [FollowupState.drain, noCalibration, noWatched, List.flatten_nil, List.append_nil]
    exact order
  · by_cases nothing : state.ring.queued.take got = []
    · -- All that the ring ever took has been thrown away.
      have drained : state.accepted = state.discarded ++ state.ring.queued.take got := by
        have rest : (state.ring.poll got).queued = state.ring.queued.drop got := rfl
        rw [order, rest, queued_eq_nil empty nothing, List.drop_nil, List.append_nil]
      simp only [Knows, FollowupState.drain, if_pos nothing]
      rw [noCalibration, ← drained]
      exact ⟨on, rfl, rfl, by decide, noWatched, fresh⟩
    · simp only [Knows, FollowupState.drain, if_neg nothing]
      exact ⟨on, noCalibration, noWatched, fresh⟩

theorem Hears.calibrate {left calSum calGot got : Nat} (hears : Hears config state)
    (phase : state.phase = .calibrating left calSum calGot) :
    Hears config (FollowupState.calibrate config left calSum calGot (state.ring.queued.take got)
      { state with ring := state.ring.poll got }) := by
  have order := hears.order_take got
  have knows := hears.knows
  rw [Knows, phase] at knows
  obtain ⟨on, sum, count, rounds, noWatched, fresh⟩ := knows
  rw [noWatched, List.flatten_nil, List.append_nil] at order
  generalize state.ring.queued.take got = chunk at order ⊢
  by_cases nothing : chunk = []
  · subst nothing
    rw [List.append_nil] at order
    constructor
    · simp only [FollowupState.calibrate, List.isEmpty_nil, Bool.not_true,
        if_neg Bool.false_ne_true, noWatched, List.flatten_nil, List.append_nil]
      exact order
    · simp only [Knows, FollowupState.calibrate, List.isEmpty_nil, Bool.not_true,
        if_neg Bool.false_ne_true]
      split_ifs with last
      · exact ⟨on, by rw [thresholdFor, sum, count], noWatched, fresh⟩
      · exact ⟨on, sum, count, by omega, noWatched, fresh⟩
  · have heard : (!chunk.isEmpty) = true := by simpa using nothing
    have sum' : calSum + meanSq chunk = ((state.calibration ++ [chunk]).map meanSq).sum := by
      rw [List.map_append, List.sum_append, List.map_singleton, List.sum_singleton, sum]
    have count' : calGot + 1 = (state.calibration ++ [chunk]).length := by
      rw [List.length_append, List.length_singleton, count]
    constructor
    · simp only [FollowupState.calibrate, heard, if_true, noWatched, List.flatten_nil,
        List.append_nil, List.flatten_append, List.flatten_singleton]
      rw [order]
      simp only [List.append_assoc]
    · simp only [Knows, FollowupState.calibrate, heard, if_true]
      split_ifs with last
      · exact ⟨on, by rw [thresholdFor, sum', count'], noWatched, fresh⟩
      · exact ⟨on, sum', count', by omega, noWatched, fresh⟩

/-- `++consec >= CONFIG_DWU_FOLLOWUP_DEBOUNCE_CHUNKS`, the count being at least 1. -/
theorem debounce_le_iff (config : FollowupConfig) (consec : Nat) :
    config.debounceChunks ≤ (consec + 1 : Nat) ↔ debounce config ≤ consec + 1 := by
  rw [debounce]
  omega

theorem Hears.poll {watch : Watch} {got : Nat} (hears : Hears config state)
    (phase : state.phase = .polling watch) :
    Hears config (FollowupState.poll config watch (state.ring.queued.take got)
      { state with ring := state.ring.poll got }) := by
  have order := hears.order_take got
  have knows := hears.knows
  rw [Knows, phase] at knows
  obtain ⟨on, watching⟩ := knows
  generalize state.ring.queued.take got = chunk at order ⊢
  have orderHeard : state.accepted = state.discarded ++
      (state.calibration.flatten ++ (state.watched ++ [chunk]).flatten) ++
        (state.ring.poll got).queued := by
    rw [List.flatten_append, List.flatten_singleton, order]
    simp only [List.append_assoc]
  have unmarked (loud : watch.threshold ≤ meanSq chunk) :
      trailingRun (isQuiet watch.threshold) (state.watched ++ [chunk]) = watch.consec + 1 := by
    rw [watching.consec]
    exact trailingRun_append_unmarked (decide_eq_false (Int.not_lt.mpr loud))
  rw [FollowupState.poll]
  split_ifs with nothing loud enough
  · subst nothing
    rw [List.append_nil] at order
    exact ⟨order, on, { watching with }⟩
  · refine ⟨orderHeard, watching.fresh, fun off => absurd on (Int.not_lt.mpr off), on, ?_, ?_⟩
    · rw [← watching.threshold, Speech, unmarked loud]
      exact (debounce_le_iff config watch.consec).mp enough
    · intro place inside
      rw [List.length_append, List.length_singleton] at inside
      rw [List.take_append_of_le_length (Nat.le_of_lt_succ inside), ← watching.threshold]
      exact watching.noSpeech place (Nat.le_of_lt_succ inside)
  · rw [debounce_le_iff, ← unmarked loud] at enough
    exact ⟨orderHeard, on, watching.threshold, watching.deadline, (unmarked loud).symm,
      watching.noSpeech.append enough, watching.fresh⟩
  · have run : trailingRun (isQuiet watch.threshold) (state.watched ++ [chunk]) = 0 :=
      trailingRun_append_marked (decide_eq_true (Int.lt_of_not_ge loud))
    have quiet : ¬ Speech config watch.threshold (state.watched ++ [chunk]) := by
      rw [Speech, run]
      exact Nat.not_le_of_lt (debounce_pos config)
    exact ⟨orderHeard, on, watching.threshold, watching.deadline, run.symm,
      watching.noSpeech.append quiet, watching.fresh⟩

theorem Hears.consume {got : Nat} (hears : Hears config state)
    (stepped : state.step config (.consume got) = some next) : Hears config next := by
  rw [FollowupState.step] at stepped
  split_ifs at stepped with served
  obtain ⟨-, -, empty⟩ := served
  cases phase : state.phase <;> simp only [phase, reduceCtorEq, Option.some.injEq] at stepped
  case flushing left =>
    subst stepped
    exact hears.flush phase
  case draining =>
    subst stepped
    exact hears.drain empty phase
  case calibrating left calSum calGot =>
    subst stepped
    exact hears.calibrate phase
  case polling watch =>
    subst stepped
    exact hears.poll phase

theorem hears_step (state : FollowupState) (label : Label) (next : FollowupState)
    (hears : Hears config state) (stepped : state.step config label = some next) :
    Hears config next := by
  cases label with
  | send samples => exact hears.send stepped
  | elapse micros => exact hears.elapse stepped
  | enter => exact hears.enter stepped
  | settle => exact hears.settle stepped
  | consume got => exact hears.consume stepped
  | openWindow => exact hears.openWindow stepped
  | look => exact hears.look stepped

end
/-- Whatever stands in the ring at the call, however the reader task's sends fall and however
long each read waits: what the function calibrates on and what it judges is one stretch of what
the ring took, and all of it came after the settling delay. It answers `true` at the first run
of enough loud chunks, and `false` if there is none till the end of the window; with the window
switched off it answers `false` and leaves the ring alone. -/
theorem followupDetectSpeech_hears (config : FollowupConfig) (ring : BoundedFifo Int) (now : Int)
    {labels : List Label} {final : FollowupState} {speech : Bool}
    (ran : (followupMachine config ring now).run labels = some final)
    (answered : final.phase = .answered speech) :
    final.accepted = final.discarded ++
      (final.calibration.flatten ++ final.watched.flatten) ++ final.ring.queued ∧
    final.settled ≤ final.discarded.length ∧
    (config.windowMs ≤ 0 →
      speech = false ∧ final.discarded = [] ∧ final.calibration = [] ∧ final.watched = []) ∧
    (speech = true →
      Speech config (thresholdFor config final.calibration) final.watched ∧
        ∀ place < final.watched.length,
          ¬ Speech config (thresholdFor config final.calibration) (final.watched.take place)) ∧
    (speech = false →
      NoSpeech config (thresholdFor config final.calibration) final.watched ∧
        (0 < config.windowMs → final.opened + config.windowMs * 1000 ≤ final.now)) := by
  have start : Hears config (followupMachine config ring now).init := ⟨rfl, rfl, rfl, rfl, rfl⟩
  have hears : Hears config final := Machine.invariant start hears_step ran
  have knows := hears.knows
  rw [Knows, answered] at knows
  obtain ⟨fresh, off, answer⟩ := knows
  refine ⟨hears.order, fresh, fun switched => ⟨?_, off switched⟩, ?_, ?_⟩
  · cases speech with
    | false => rfl
    | true => exact absurd answer.1 (Int.not_lt.mpr switched)
  · rintro rfl
    exact answer.2
  · rintro rfl
    exact answer

/-- Two stale samples, a silent calibration, a pop that is too short, and a loud pair of chunks. -/
def popThenSpeech : List Label :=
  [.enter, .consume 2, .consume 0, .settle, .consume 0] ++
    List.replicate calChunks (.consume 0) ++
    [.openWindow, .send [9000, 1], .look, .consume 1, .look, .consume 1, .look, .consume 0,
      .send [9000, 9000], .look, .consume 1, .look, .consume 1]

theorem followupDetectSpeech_hears_pair :
    ∃ final, (followupMachine ⟨5000, 30000000, 2⟩ ⟨16000, [9000, 9000], by decide⟩ 0).run
        popThenSpeech = some final ∧
      final.phase = .answered true ∧
      Speech ⟨5000, 30000000, 2⟩ (thresholdFor ⟨5000, 30000000, 2⟩ final.calibration)
        final.watched := by
  have ends : ((followupMachine ⟨5000, 30000000, 2⟩ ⟨16000, [9000, 9000], by decide⟩ 0).run
        popThenSpeech).map FollowupState.phase = some (.answered true) := by
    decide +kernel
  obtain ⟨final, ran, phase⟩ := Option.map_eq_some_iff.mp ends
  exact ⟨final, ran, phase,
    ((followupDetectSpeech_hears ⟨5000, 30000000, 2⟩ _ 0 ran phase).2.2.2.1 rfl).1⟩

end WallUnit.Firmware.Followup
