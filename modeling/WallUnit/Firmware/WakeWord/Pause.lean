import WallUnit.Firmware.WakeWord.Gates
import WallUnit.Foundations.Machine

/-!
Owns the two tasks that share `s_paused`: the wake-word loop, cut at every access
to a variable the main task also writes, and the `app_main` loop with its
`wake_word_task_pause` and `wake_word_task_resume` calls, turn and follow-up
chains of any length included. `silent_of_undisturbed` says along which
interleavings paused means silent.

Does not own the turn itself; whether a turn succeeds and a follow-up is heard is
an input.
-/

namespace WallUnit.Firmware.WakeWord

open WallUnit.Foundations

/-- Where the wake-word task stands, named by what it does next. -/
inductive WakePc where
  | consume
  | loadPaused
  | feed
  | loadWarmup (steps : Nat)
  | storeWarmup (left : Nat)
  | gates
  | setBits
  | muteReset
  | muteStore
  | muteSleep
  | muteWarmup
  | muteClear
deriving DecidableEq, Repr

/-- Where `app_main` stands, named by what it does next. -/
inductive MainPc where
  | waitBits
  | checkWifi
  | pause
  | turn
  | followup
  | cooldown
  | resumeReset
  | resumeWarmup
  | resumeClear
deriving DecidableEq, Repr

/-- The two tasks and the variables they share. -/
structure State where
  vars : LoopVars
  wakePc : WakePc
  mainPc : MainPc
  paused : Bool
  warmupLeft : Nat
  lastScore : UInt8
  trigger : Bool

/-- Both tasks have just been started, at time `now`. -/
def State.boot (now : Int) : State where
  vars := .start now
  wakePc := .consume
  mainPc := .waitBits
  paused := false
  warmupLeft := 0
  lastScore := 0
  trigger := false

/-- What one step of `app_main` gets from outside. -/
structure MainInput where
  wifiConnected : Bool
  turnOk : Bool
  speech : Bool
deriving DecidableEq, Repr

inductive Label where
  | wake (input : Iteration)
  | main (input : MainInput)
deriving DecidableEq, Repr

/-- An iteration up to its look at `s_paused`. -/
def consume (input : Iteration) (state : State) : State :=
  if input.pcm = [] then state
  else
    let (occupied, lastPresenceUs) := checkRoomOccupied input state.vars.lastPresenceUs
    let entered := occupied && !state.vars.wasOccupied
    let state := { state with
      vars := { state.vars with lastPresenceUs := lastPresenceUs, wasOccupied := occupied }
      warmupLeft := if entered then warmupStepsAfterReset else state.warmupLeft }
    if !occupied then state
    else { state with vars := advanceRings input.pcm state.vars, wakePc := .loadPaused }

/-- One step of `wake_word_task_fn`. -/
def wakeStep (input : Iteration) (state : State) : State :=
  match state.wakePc with
  | .consume => consume input state
  | .loadPaused => { state with wakePc := if state.paused then .consume else .feed }
  | .feed => { state with lastScore := input.score, wakePc := .loadWarmup input.steps }
  | .loadWarmup steps =>
      if 0 < state.warmupLeft then
        { state with wakePc := .storeWarmup (state.warmupLeft - min steps state.warmupLeft) }
      else { state with wakePc := .gates }
  | .storeWarmup left =>
      { state with
        warmupLeft := left
        vars := { state.vars with consecAbove := 0 }
        wakePc := .consume }
  | .gates =>
      let (fire, vars) := decideFire input state.vars
      { state with vars := vars, wakePc := if fire then .setBits else .consume }
  | .setBits => { state with trigger := true, wakePc := .muteReset }
  | .muteReset => { state with wakePc := .muteStore }
  | .muteStore => { state with paused := true, wakePc := .muteSleep }
  | .muteSleep => { state with wakePc := .muteWarmup }
  | .muteWarmup => { state with warmupLeft := warmupStepsAfterReset, wakePc := .muteClear }
  | .muteClear => { state with paused := false, wakePc := .consume }

/-- One step of `app_main`; it blocks while the trigger bit is clear. -/
def mainStep (input : MainInput) (state : State) : Option State :=
  match state.mainPc with
  | .waitBits =>
      if state.trigger then some { state with trigger := false, mainPc := .checkWifi } else none
  | .checkWifi => some { state with mainPc := if input.wifiConnected then .pause else .waitBits }
  | .pause => some { state with paused := true, mainPc := .turn }
  | .turn => some { state with mainPc := if input.turnOk then .followup else .cooldown }
  | .followup => some { state with mainPc := if input.speech then .turn else .cooldown }
  | .cooldown => some { state with mainPc := .resumeReset }
  | .resumeReset => some { state with mainPc := .resumeWarmup }
  | .resumeWarmup =>
      some { state with warmupLeft := warmupStepsAfterReset, mainPc := .resumeClear }
  | .resumeClear => some { state with paused := false, mainPc := .waitBits }

def step (state : State) : Label → Option State
  | .wake input => some (wakeStep input state)
  | .main input => mainStep input state

def pauseMachine (now : Int) : Machine State Label where
  init := .boot now
  step := step

/-! ### Paused means silent -/

/-- Between `wake_word_task_pause` and the end of `wake_word_task_resume`. -/
def MainPc.inPause : MainPc → Bool
  | .waitBits | .checkWifi | .pause => false
  | _ => true

/-- Between a look at `s_paused` that found it clear and the trigger bit. -/
def WakePc.pastCheck : WakePc → Bool
  | .feed | .loadWarmup _ | .gates | .setBits => true
  | _ => false

/-- The step does not set the trigger bit while the main task holds a pause. -/
def Silent (state : State) : Label → Prop
  | .wake _ => state.wakePc = .setBits → state.mainPc.inPause = false
  | .main _ => True

/-- The condition on a step: the self-mute does not end inside a pause, and a
pause does not begin while the wake-word task is past its look at `s_paused`. -/
def Undisturbed (state : State) : Label → Prop
  | .wake _ => state.wakePc = .muteClear → state.mainPc.inPause = false
  | .main _ => state.mainPc = .pause → state.wakePc.pastCheck = false

/-- The invariant: a pause that is held is seen. -/
structure Muted (state : State) : Prop where
  paused : state.mainPc.inPause = true → state.paused = true
  checked : state.mainPc.inPause = true → state.wakePc.pastCheck = false

theorem muted_of_outside {state : State} (outside : state.mainPc.inPause = false) :
    Muted state := by
  constructor
  all_goals
    intro held
    rw [outside] at held
    contradiction

theorem muted_boot (now : Int) : Muted (.boot now) := muted_of_outside rfl

/-- Draining a chunk touches neither the pause nor the main task, and it ends
before the look at `s_paused`. -/
theorem consume_frame (input : Iteration) (state : State)
    (start : state.wakePc.pastCheck = false) :
    (consume input state).mainPc = state.mainPc ∧
      (consume input state).paused = state.paused ∧
      (consume input state).wakePc.pastCheck = false := by
  unfold consume
  by_cases empty : input.pcm = []
  · rw [if_pos empty]
    exact ⟨rfl, rfl, start⟩
  · rw [if_neg empty]
    by_cases occupied : (checkRoomOccupied input state.vars.lastPresenceUs).1 = true
    · simp [occupied, WakePc.pastCheck]
    · simp [occupied, start]

theorem wakeStep_mainPc (input : Iteration) (state : State) :
    (wakeStep input state).mainPc = state.mainPc := by
  cases here : state.wakePc with
  | consume =>
      rw [wakeStep, here]
      exact (consume_frame input state (by rw [here]; rfl)).1
  | loadWarmup steps =>
      simp only [wakeStep, here]
      split_ifs <;> rfl
  | _ => simp only [wakeStep, here]

/-- The wake-word task clears the pause only where its self-mute ends. -/
theorem wakeStep_paused (input : Iteration) {state : State} (held : state.paused = true)
    (muted : state.wakePc ≠ .muteClear) : (wakeStep input state).paused = true := by
  cases here : state.wakePc with
  | consume =>
      rw [wakeStep, here]
      have frame := consume_frame input state (by rw [here]; rfl)
      exact frame.2.1.trans held
  | loadWarmup steps =>
      simp only [wakeStep, here]
      split_ifs <;> exact held
  | muteClear => exact absurd here muted
  | muteStore => simp only [wakeStep, here]
  | _ => simpa only [wakeStep, here] using held

/-- With the pause held, no iteration gets past its look at it. -/
theorem wakeStep_checked (input : Iteration) {state : State} (held : state.paused = true)
    (checked : state.wakePc.pastCheck = false) :
    (wakeStep input state).wakePc.pastCheck = false := by
  cases here : state.wakePc with
  | consume =>
      rw [wakeStep, here]
      exact (consume_frame input state (by rw [here]; rfl)).2.2
  | loadPaused =>
      simp only [wakeStep, here, held]
      rfl
  | feed | loadWarmup | gates | setBits =>
      rw [here] at checked
      contradiction
  | _ =>
      simp only [wakeStep, here]
      rfl

theorem mainStep_muted {input : MainInput} {state next : State} (muted : Muted state)
    (timely : state.mainPc = .pause → state.wakePc.pastCheck = false)
    (stepped : mainStep input state = some next) : Muted next := by
  cases here : state.mainPc with
  | waitBits =>
      simp only [mainStep, here] at stepped
      split_ifs at stepped
      obtain rfl := Option.some.inj stepped
      exact muted_of_outside rfl
  | checkWifi =>
      simp only [mainStep, here] at stepped
      obtain rfl := Option.some.inj stepped
      have outside : (if input.wifiConnected then MainPc.pause else .waitBits).inPause = false := by
        split_ifs <;> rfl
      exact muted_of_outside outside
  | pause =>
      simp only [mainStep, here] at stepped
      obtain rfl := Option.some.inj stepped
      exact ⟨fun _ => rfl, fun _ => timely here⟩
  | resumeClear =>
      simp only [mainStep, here] at stepped
      obtain rfl := Option.some.inj stepped
      exact muted_of_outside rfl
  | turn | followup | cooldown | resumeReset | resumeWarmup =>
      simp only [mainStep, here] at stepped
      obtain rfl := Option.some.inj stepped
      have inside : state.mainPc.inPause = true := by rw [here]; rfl
      exact ⟨fun _ => muted.paused inside, fun _ => muted.checked inside⟩

theorem step_muted {state next : State} {label : Label} (muted : Muted state)
    (undisturbed : Undisturbed state label) (stepped : step state label = some next) :
    Muted next := by
  cases label with
  | main input => exact mainStep_muted muted undisturbed stepped
  | wake input =>
      obtain rfl := Option.some.inj stepped
      have same := wakeStep_mainPc input state
      constructor
      · intro inside
        rw [same] at inside
        apply wakeStep_paused input (muted.paused inside)
        intro clearing
        have outside := undisturbed clearing
        rw [inside] at outside
        contradiction
      · intro inside
        rw [same] at inside
        exact wakeStep_checked input (muted.paused inside) (muted.checked inside)

theorem Muted.silent {state : State} (muted : Muted state) (label : Label) :
    Silent state label := by
  cases label with
  | main => trivial
  | wake =>
      intro setting
      by_contra inside
      have checked := muted.checked (by simpa using inside)
      rw [setting] at checked
      contradiction

/-- In every run whose pauses are undisturbed, no step sets the trigger bit while
the main task holds a pause. -/
theorem silent_of_undisturbed (now : Int) (labels : List Label)
    (along : (pauseMachine now).Along Undisturbed (pauseMachine now).init labels) :
    (pauseMachine now).Along Silent (pauseMachine now).init labels :=
  Machine.Along.of_invariant (fun _ _ _ muted undisturbed stepped =>
    step_muted muted undisturbed stepped) (fun _ label muted _ => Muted.silent muted label)
    (muted_boot now) along

instance (state : State) (label : Label) : Decidable (Undisturbed state label) := by
  cases label <;> unfold Undisturbed <;> infer_instance

instance (state : State) (label : Label) : Decidable (Silent state label) := by
  cases label <;> unfold Silent <;> infer_instance

/-- An occupied iteration that scores `score`. -/
def loudChunk (score : UInt8) : Iteration := ⟨[0], true, none, 0, score, 1, 200⟩

/-- Two scoring iterations, the trigger and the self-mute, up to its sleep. -/
def detection : List Label :=
  List.replicate 10 (.wake (loudChunk 255)) ++ List.replicate 3 (.wake (loudChunk 0))

/-- A turn inside which the self-mute ends, the model warms up and another
detection is made. -/
def longTurnRun : List Label :=
  detection ++ List.replicate 3 (.main ⟨true, true, true⟩) ++
    List.replicate 3 (.wake (loudChunk 0)) ++
    List.replicate 5 (.wake { loudChunk 0 with steps := 20 }) ++
    List.replicate 11 (.wake (loudChunk 255))

/-- A turn that is over before the self-mute ends. -/
def shortTurnRun : List Label :=
  detection ++ List.replicate 3 (.main ⟨true, true, true⟩) ++
    List.replicate 5 (.main ⟨true, false, false⟩) ++ List.replicate 3 (.wake (loudChunk 0))

theorem silent_of_shortTurnRun :
    (pauseMachine 0).Along Silent (pauseMachine 0).init shortTurnRun :=
  silent_of_undisturbed 0 shortTurnRun (by decide)

theorem silent_not_of_longTurnRun :
    ¬ ∀ (now : Int) (labels : List Label),
      (pauseMachine now).Along Silent (pauseMachine now).init labels := by
  intro silent
  exact absurd (silent 0 longTurnRun) (by decide)

end WallUnit.Firmware.WakeWord
