import WallUnit.Firmware.WakeWord.Pause

/-!
Owns the wake-word loop seen one whole iteration at a time, with
`wake_word_task_pause` and `wake_word_task_resume` calls between iterations: what
an iteration reports, the history of a run, and why the trigger bit was set.
`wake_sound` reads the reason off the history.

Does not own interleavings inside an iteration; `Pause` does.
-/

namespace WallUnit.Firmware.WakeWord

open WallUnit.Foundations

/-! ### Whole iterations -/

/-- What one iteration did: the presence check, the look at `s_paused`, the
inference steps and the score, whether the warm-up swallowed them, the threshold
and the average the gates used, and whether the trigger bit was set. -/
structure Report where
  occupied : Bool
  reoccupied : Bool
  paused : Bool
  steps : Nat
  score : UInt8
  swallowed : Bool
  threshold : UInt8
  preAvg : Nat
  fired : Bool
deriving DecidableEq, Repr

def Report.blank : Report := ⟨false, false, false, 0, 0, false, 0, 0, false⟩

/-- What one step of the loop adds to the report of its iteration. -/
def note (input : Iteration) (before after : State) (report : Report) : Report :=
  match before.wakePc with
  | .consume =>
      { report with
        occupied := after.vars.wasOccupied
        reoccupied := after.vars.wasOccupied && !before.vars.wasOccupied }
  | .loadPaused => { report with paused := before.paused }
  | .feed => { report with steps := input.steps, score := input.score }
  | .storeWarmup _ => { report with swallowed := true }
  | .gates => { report with threshold := input.threshold, preAvg := preAvgMeansq before.vars }
  | .setBits => { report with fired := true }
  | _ => report

/-- Steps of the loop until it is back at its next read, eleven at most. -/
def iterateFrom (input : Iteration) : Nat → State → Report → State × Report
  | 0, state, report => (state, report)
  | fuel + 1, state, report =>
      let next := wakeStep input state
      let report := note input state next report
      if next.wakePc = .consume then (next, report) else iterateFrom input fuel next report

def iterate (input : Iteration) (state : State) : State × Report :=
  iterateFrom input 11 state .blank

/-- `wake_word_task_pause`. -/
def wakeWordTaskPause (state : State) : State := { state with paused := true }

/-- `wake_word_task_resume`. -/
def wakeWordTaskResume (state : State) : State :=
  { state with warmupLeft := warmupStepsAfterReset, paused := false }

/-- What can happen between two iterations, and an iteration. -/
inductive Action where
  | iteration (input : Iteration)
  | pause
  | resume
deriving DecidableEq, Repr

inductive Event where
  | iteration (report : Report)
  | pause
  | resume
deriving DecidableEq, Repr

/-- The loop and everything that has happened to it. -/
structure Traced where
  state : State
  history : List Event

def tracedStep (traced : Traced) : Action → Option Traced
  | .iteration input =>
      let (state, report) := iterate input traced.state
      some ⟨state, traced.history ++ [.iteration report]⟩
  | .pause => some ⟨wakeWordTaskPause traced.state, traced.history ++ [.pause]⟩
  | .resume => some ⟨wakeWordTaskResume traced.state, traced.history ++ [.resume]⟩

def triggerMachine (now : Int) : Machine Traced Action where
  init := ⟨.boot now, []⟩
  step := tracedStep

/-! ### Reading a history -/

/-- An iteration that reported inference steps. -/
def Event.Stepping : Event → Prop
  | .iteration report => 0 < report.steps
  | _ => False

/-- A resume, the room re-occupied, or the end of a self-mute. -/
def Event.Resets : Event → Prop
  | .iteration report => report.reoccupied = true ∨ report.fired = true
  | .pause => False
  | .resume => True

/-- Inference steps swallowed since the most recent reset, if there was one. -/
def Event.countSwallowed (count : Option Nat) : Event → Option Nat
  | .pause => count
  | .resume => some 0
  | .iteration report =>
      let entered := if report.reoccupied then some 0 else count
      let swallowed := entered.map fun steps =>
        steps + if report.swallowed then report.steps else 0
      if report.fired then some 0 else swallowed

def swallowedSinceReset (history : List Event) : Option Nat :=
  history.foldl Event.countSwallowed none

/-- A scoring iteration that starts a streak nothing has broken since: after it
neither another iteration that reported steps nor a reset. -/
structure Streak (history : List Event) (older : List Event) (first : Report)
    (between : List Event) : Prop where
  split : history = older ++ .iteration first :: between
  stepping : 0 < first.steps
  above : first.threshold ≤ first.score
  alone : ∀ event ∈ between, ¬ event.Stepping
  unreset : ∀ event ∈ Event.iteration first :: between, ¬ event.Resets
  settled : ∀ count, swallowedSinceReset older = some count → warmupStepsAfterReset ≤ count

/-- Why an iteration may set the trigger bit. -/
structure Justified (history : List Event) (second : Report) : Prop where
  streak : ∃ older first between, Streak history older first between
  stepping : 0 < second.steps
  above : second.threshold ≤ second.score
  unreset : second.reoccupied = false
  occupied : second.occupied = true
  unpaused : second.paused = false
  quiet : second.preAvg ≤ quietMaxMeansq

/-! ### What an iteration can do -/

/-- The warm-up credit an iteration finds, the presence check included. -/
def creditFound (before : State) (report : Report) : Nat :=
  if report.reoccupied then warmupStepsAfterReset else before.warmupLeft

/-- An iteration that does not feed the model, one whose steps the warm-up
swallows, or one that scores. -/
inductive Outcome (input : Iteration) (before after : State) (report : Report) : Prop where
  | unfed (streak : after.vars.consecAbove = before.vars.consecAbove)
      (credit : after.warmupLeft = creditFound before report)
      (steps : report.steps = 0) (kept : report.swallowed = false)
      (silent : report.fired = false)
  | swallowed (streak : after.vars.consecAbove = 0)
      (positive : 0 < creditFound before report)
      (credit : after.warmupLeft =
        creditFound before report - min report.steps (creditFound before report))
      (swallowed : report.swallowed = true) (silent : report.fired = false)
  | scored (vars : LoopVars) (carried : vars.consecAbove = before.vars.consecAbove)
      (streak : after.vars.consecAbove = (decideFire input vars).2.consecAbove)
      (spent : before.warmupLeft = 0)
      (credit : after.warmupLeft = if report.fired then warmupStepsAfterReset else 0)
      (same : report =
        ⟨true, false, false, input.steps, input.score, false, input.threshold, preAvgMeansq vars,
          (decideFire input vars).1⟩)

/-- The variables after the presence check of an occupied room and the rings. -/
def heard (input : Iteration) (vars : LoopVars) : LoopVars :=
  advanceRings input.pcm
    { vars with
      lastPresenceUs := (checkRoomOccupied input vars.lastPresenceUs).2
      wasOccupied := true }

/-- The report of an iteration that found the room occupied. -/
def Report.present (vars : LoopVars) (paused : Bool) : Report :=
  { Report.blank with occupied := true, reoccupied := !vars.wasOccupied, paused := paused }

section

variable (input : Iteration) (vars : LoopVars) (mainPc : MainPc) (paused : Bool)
  (warmupLeft : Nat) (lastScore : UInt8) (trigger : Bool) (report : Report)

/-- The credit after the presence check of an occupied room. -/
def creditHeard : Nat := if vars.wasOccupied then warmupLeft else warmupStepsAfterReset

theorem iterate_unread (drained : input.pcm = []) :
    iterate input ⟨vars, .consume, mainPc, paused, warmupLeft, lastScore, trigger⟩ =
      (⟨vars, .consume, mainPc, paused, warmupLeft, lastScore, trigger⟩,
        { Report.blank with occupied := vars.wasOccupied }) := by
  simp [iterate, iterateFrom, wakeStep, consume, drained, note, Report.blank]

theorem iterate_empty (read : input.pcm ≠ [])
    (empty : (checkRoomOccupied input vars.lastPresenceUs).1 = false) :
    iterate input ⟨vars, .consume, mainPc, paused, warmupLeft, lastScore, trigger⟩ =
      (⟨{ vars with
          lastPresenceUs := (checkRoomOccupied input vars.lastPresenceUs).2
          wasOccupied := false }, .consume, mainPc, paused, warmupLeft, lastScore, trigger⟩,
        Report.blank) := by
  simp [iterate, iterateFrom, wakeStep, consume, read, note, Report.blank, empty]

theorem iterate_paused (read : input.pcm ≠ [])
    (occupied : (checkRoomOccupied input vars.lastPresenceUs).1 = true) :
    iterate input ⟨vars, .consume, mainPc, true, warmupLeft, lastScore, trigger⟩ =
      (⟨heard input vars, .consume, mainPc, true, creditHeard vars warmupLeft, lastScore,
        trigger⟩, .present vars true) := by
  cases entered : vars.wasOccupied <;>
    simp [iterate, iterateFrom, wakeStep, consume, read, note, Report.blank, Report.present,
      occupied, entered, heard, creditHeard, advanceRings]

theorem iterate_fed (read : input.pcm ≠ [])
    (occupied : (checkRoomOccupied input vars.lastPresenceUs).1 = true) :
    iterate input ⟨vars, .consume, mainPc, false, warmupLeft, lastScore, trigger⟩ =
      iterateFrom input 9 ⟨heard input vars, .feed, mainPc, false, creditHeard vars warmupLeft,
        lastScore, trigger⟩ (.present vars false) := by
  rw [iterate, iterateFrom, iterateFrom]
  cases entered : vars.wasOccupied <;>
    simp [wakeStep, consume, read, note, Report.blank, Report.present, occupied, entered, heard,
      creditHeard, advanceRings]

/-- The steps of an iteration that feeds the model while warm-up credit is left. -/
theorem iterateFrom_warm (warm : 0 < warmupLeft) :
    iterateFrom input 9 ⟨vars, .feed, mainPc, false, warmupLeft, lastScore, trigger⟩ report =
      (⟨{ vars with consecAbove := 0 }, .consume, mainPc, false,
          warmupLeft - min input.steps warmupLeft, input.score, trigger⟩,
        { report with steps := input.steps, score := input.score, swallowed := true }) := by
  simp [iterateFrom, wakeStep, note, warm]

/-- The steps of an iteration that scores. -/
theorem iterateFrom_scored :
    iterateFrom input 9 ⟨vars, .feed, mainPc, false, 0, lastScore, trigger⟩ report =
      (⟨(decideFire input vars).2, .consume, mainPc, false,
          if (decideFire input vars).1 then warmupStepsAfterReset else 0, input.score,
          trigger || (decideFire input vars).1⟩,
        { report with
          steps := input.steps
          score := input.score
          threshold := input.threshold
          preAvg := preAvgMeansq vars
          fired := report.fired || (decideFire input vars).1 }) := by
  cases decided : (decideFire input vars).1 with
  | true => simp [iterateFrom, wakeStep, note, decided]
  | false => simp [iterateFrom, wakeStep, note, decided]

end

/-- An iteration ends at its next read, it sets the trigger bit when its report
says so, and it does one of three things. -/
theorem iterate_outcome (input : Iteration) {state : State} (start : state.wakePc = .consume) :
    (iterate input state).1.wakePc = .consume ∧
      (iterate input state).1.trigger = (state.trigger || (iterate input state).2.fired) ∧
      Outcome input state (iterate input state).1 (iterate input state).2 := by
  obtain ⟨vars, wakePc, mainPc, paused, warmupLeft, lastScore, trigger⟩ := state
  obtain rfl : wakePc = .consume := start
  by_cases read : input.pcm = []
  · rw [iterate_unread _ _ _ _ _ _ _ read]
    exact ⟨rfl, (Bool.or_false _).symm, .unfed rfl rfl rfl rfl rfl⟩
  by_cases occupied : (checkRoomOccupied input vars.lastPresenceUs).1 = true
  swap
  · rw [iterate_empty _ _ _ _ _ _ _ read (by simpa using occupied)]
    exact ⟨rfl, (Bool.or_false _).symm, .unfed rfl rfl rfl rfl rfl⟩
  -- the room is occupied: `creditHeard` is the credit the iteration finds
  have found : ∀ (before : State) (report : Report), before.warmupLeft = warmupLeft →
      report.reoccupied = !vars.wasOccupied →
      creditFound before report = creditHeard vars warmupLeft := by
    intro before report same entered
    cases known : vars.wasOccupied <;> simp [creditFound, creditHeard, same, entered, known]
  cases paused with
  | true =>
      rw [iterate_paused _ _ _ _ _ _ read occupied]
      exact ⟨rfl, (Bool.or_false _).symm, .unfed rfl (found _ _ rfl rfl).symm rfl rfl rfl⟩
  | false =>
      rw [iterate_fed _ _ _ _ _ _ read occupied]
      by_cases warm : 0 < creditHeard vars warmupLeft
      · rw [iterateFrom_warm _ _ _ _ _ _ _ warm]
        refine ⟨rfl, (Bool.or_false _).symm, .swallowed rfl ?_ ?_ rfl rfl⟩
        · rwa [found _ _ rfl rfl]
        · rw [found _ _ rfl rfl]
      · have spent : creditHeard vars warmupLeft = 0 := by omega
        rw [spent, iterateFrom_scored]
        unfold creditHeard at spent
        split_ifs at spent with stayed
        · refine ⟨rfl, rfl, .scored (heard input vars) rfl rfl spent rfl ?_⟩
          simp [Report.present, Report.blank, stayed]
        · contradiction

/-- What the gates do with a streak of at most one step: nothing without a step,
clear it, start it, or honour it. -/
theorem decideFire_cases (input : Iteration) {vars : LoopVars} (short : vars.consecAbove ≤ 1) :
    (input.steps = 0 ∧ (decideFire input vars).1 = false ∧
        (decideFire input vars).2.consecAbove = vars.consecAbove) ∨
      ((decideFire input vars).1 = false ∧ (decideFire input vars).2.consecAbove = 0) ∨
      (0 < input.steps ∧ input.threshold ≤ input.score ∧ vars.consecAbove = 0 ∧
        (decideFire input vars).1 = false ∧ (decideFire input vars).2.consecAbove = 1) ∨
      (0 < input.steps ∧ input.threshold ≤ input.score ∧ vars.consecAbove = 1 ∧
        preAvgMeansq vars ≤ quietMaxMeansq ∧ (decideFire input vars).2.consecAbove = 0) := by
  by_cases idle : input.steps = 0
  · exact Or.inl (by simp [decideFire, advanceStreak, idle])
  have stepped : 0 < input.steps := by omega
  right
  by_cases above : input.threshold ≤ input.score
  swap
  · exact Or.inl (by simp [decideFire, advanceStreak, stepped, above])
  have counted : ∀ streak ≤ 1, advanceStreak input.score input.steps input.threshold streak =
      (decide (2 ≤ streak + 1), streak + 1) := by
    intro streak small
    have below : streak < 2 ^ 32 - 1 := by omega
    simp only [advanceStreak, if_pos stepped, if_pos above, if_pos below]
    rfl
  rcases Nat.eq_zero_or_pos vars.consecAbove with fresh | going
  · right
    left
    refine ⟨stepped, above, fresh, ?_⟩
    simp [decideFire, fresh, counted 0 (by omega)]
  · have one : vars.consecAbove = 1 := by omega
    simp only [decideFire, one, counted 1 (by omega)]
    split_ifs with unready clipped noisy
    · contradiction
    · exact Or.inl ⟨rfl, rfl⟩
    · exact Or.inl ⟨rfl, rfl⟩
    · exact Or.inr (Or.inr ⟨stepped, above, trivial, by omega, rfl⟩)

/-! ### The invariant of a run -/

theorem swallowedSinceReset_append (history : List Event) (event : Event) :
    swallowedSinceReset (history ++ [event]) =
      Event.countSwallowed (swallowedSinceReset history) event := by
  simp [swallowedSinceReset]

theorem Streak.extend {history older between : List Event} {first : Report} {event : Event}
    (streak : Streak history older first between) (idle : ¬ event.Stepping)
    (unreset : ¬ event.Resets) : Streak (history ++ [event]) older first (between ++ [event]) where
  split := by simp [streak.split]
  stepping := streak.stepping
  above := streak.above
  alone := by
    intro other member
    rcases List.mem_append.mp member with earlier | last
    · exact streak.alone other earlier
    · rwa [List.mem_singleton.mp last]
  unreset := by
    intro other member
    rw [← List.cons_append] at member
    rcases List.mem_append.mp member with earlier | last
    · exact streak.unreset other earlier
    · rwa [List.mem_singleton.mp last]
  settled := streak.settled

/-- Every event that set the trigger bit is justified by those before it. -/
def Explained (history : List Event) : Prop :=
  ∀ before second after, history = before ++ .iteration second :: after →
    second.fired = true → Justified before second

theorem Explained.append {history : List Event} {event : Event} (explained : Explained history)
    (justified : ∀ second, event = .iteration second → second.fired = true →
      Justified history second) : Explained (history ++ [event]) := by
  intro before second after split fired
  rcases List.eq_nil_or_concat after with rfl | ⟨rest, last, rfl⟩
  · obtain ⟨rfl, same⟩ := List.append_inj' split rfl
    exact justified second (List.cons.inj same).1 fired
  · rw [List.concat_eq_append, ← List.cons_append, ← List.append_assoc] at split
    exact explained before second rest (List.append_inj' split rfl).1 fired

/-- Some iteration of the history set the trigger bit. -/
def SetBy (history : List Event) : Prop :=
  ∃ second, Event.iteration second ∈ history ∧ second.fired = true

/-- The invariant: what the two counters and the bit know about the history. -/
structure Tracked (traced : Traced) : Prop where
  ready : traced.state.wakePc = .consume
  bit : traced.state.trigger = true ↔ SetBy traced.history
  short : traced.state.vars.consecAbove ≤ 1
  credited : ∀ count, swallowedSinceReset traced.history = some count →
    warmupStepsAfterReset ≤ count + traced.state.warmupLeft
  streak : traced.state.vars.consecAbove = 1 → traced.state.warmupLeft = 0 →
    ∃ older first between, Streak traced.history older first between
  explained : Explained traced.history

theorem setBy_append {history : List Event} {report : Report} :
    SetBy (history ++ [.iteration report]) ↔ SetBy history ∨ report.fired = true := by
  constructor
  · rintro ⟨second, member, fired⟩
    rcases List.mem_append.mp member with earlier | last
    · exact Or.inl ⟨second, earlier, fired⟩
    · rw [List.mem_singleton] at last
      cases last
      exact Or.inr fired
  · rintro (⟨second, member, fired⟩ | fired)
    · exact ⟨second, List.mem_append_left _ member, fired⟩
    · exact ⟨report, by simp, fired⟩

theorem tracked_boot (now : Int) : Tracked (triggerMachine now).init where
  ready := rfl
  bit := by simp [triggerMachine, State.boot, SetBy]
  short := Nat.zero_le 1
  credited := by
    intro count counted
    contradiction
  streak := by
    intro one
    contradiction
  explained := by
    intro before second after split
    simp [triggerMachine] at split

theorem tracked_pause {traced : Traced} (tracked : Tracked traced) :
    Tracked ⟨wakeWordTaskPause traced.state, traced.history ++ [.pause]⟩ where
  ready := tracked.ready
  bit := tracked.bit.trans (by simp [SetBy])
  short := tracked.short
  credited := by
    rw [swallowedSinceReset_append]
    exact tracked.credited
  streak := by
    intro one spent
    obtain ⟨older, first, between, streak⟩ := tracked.streak one spent
    exact ⟨older, first, between ++ [.pause], streak.extend id id⟩
  explained := tracked.explained.append (by simp)

theorem tracked_resume {traced : Traced} (tracked : Tracked traced) :
    Tracked ⟨wakeWordTaskResume traced.state, traced.history ++ [.resume]⟩ where
  ready := tracked.ready
  bit := tracked.bit.trans (by simp [SetBy])
  short := tracked.short
  credited := by
    intro count _
    exact Nat.le_add_left _ _
  streak := by
    intro _ spent
    contradiction
  explained := tracked.explained.append (by simp)

/-- A reset that an iteration makes at its presence check leaves full credit. -/
theorem credited_found {traced : Traced} (tracked : Tracked traced) (report : Report) {count : Nat}
    (counted : (if report.reoccupied then some 0 else swallowedSinceReset traced.history) =
      some count) :
    warmupStepsAfterReset ≤ count + creditFound traced.state report := by
  unfold creditFound
  split_ifs at counted ⊢ with entered
  · exact Nat.le_add_left _ _
  · exact tracked.credited count counted

/-- An iteration that sets nothing has nothing to explain. -/
theorem Explained.append_silent {history : List Event} {report : Report}
    (explained : Explained history) (silent : report.fired = false) :
    Explained (history ++ [.iteration report]) := by
  apply explained.append
  rintro second ⟨⟩ fired
  rw [silent] at fired
  contradiction

section

variable {traced : Traced} {after : State} {report : Report} (tracked : Tracked traced)
  (ready : after.wakePc = .consume)
  (bit : after.trigger = true ↔ SetBy (traced.history ++ [.iteration report]))

include tracked ready bit

theorem tracked_unfed (streak : after.vars.consecAbove = traced.state.vars.consecAbove)
    (credit : after.warmupLeft = creditFound traced.state report) (steps : report.steps = 0)
    (kept : report.swallowed = false) (silent : report.fired = false) :
    Tracked ⟨after, traced.history ++ [.iteration report]⟩ where
  ready := ready
  bit := bit
  short := streak ▸ tracked.short
  credited := by
    intro count counted
    dsimp only
    rw [credit]
    apply credited_found tracked report
    simpa [swallowedSinceReset_append, Event.countSwallowed, kept, silent] using counted
  streak := by
    intro one spent
    have quiet : ¬ (Event.iteration report).Stepping := by simp [Event.Stepping, steps]
    dsimp only at one spent
    rw [streak] at one
    rw [credit, creditFound] at spent
    split_ifs at spent with entered
    · contradiction
    · obtain ⟨older, first, between, going⟩ := tracked.streak one spent
      exact ⟨older, first, _, going.extend quiet (by simp [Event.Resets, entered, silent])⟩
  explained := tracked.explained.append_silent silent

theorem tracked_swallowed (streak : after.vars.consecAbove = 0)
    (credit : after.warmupLeft =
      creditFound traced.state report - min report.steps (creditFound traced.state report))
    (swallowed : report.swallowed = true) (silent : report.fired = false) :
    Tracked ⟨after, traced.history ++ [.iteration report]⟩ where
  ready := ready
  bit := bit
  short := streak.le.trans (Nat.zero_le 1)
  credited := by
    intro count counted
    simp only [swallowedSinceReset_append, Event.countSwallowed, swallowed, silent,
      Bool.false_eq_true, if_false, if_true, Option.map_eq_some_iff] at counted
    obtain ⟨earlier, counted, rfl⟩ := counted
    have enough := credited_found tracked report counted
    simp only [credit]
    omega
  streak := fun one => absurd (streak.symm.trans one) Nat.zero_ne_one
  explained := tracked.explained.append_silent silent

theorem tracked_scored {input : Iteration} {vars : LoopVars}
    (carried : vars.consecAbove = traced.state.vars.consecAbove)
    (streak : after.vars.consecAbove = (decideFire input vars).2.consecAbove)
    (spent : traced.state.warmupLeft = 0)
    (credit : after.warmupLeft = if report.fired then warmupStepsAfterReset else 0)
    (same : report =
      ⟨true, false, false, input.steps, input.score, false, input.threshold, preAvgMeansq vars,
        (decideFire input vars).1⟩) :
    Tracked ⟨after, traced.history ++ [.iteration report]⟩ := by
  have settled : ∀ count, swallowedSinceReset traced.history = some count →
      warmupStepsAfterReset ≤ count := by
    intro count counted
    have enough := tracked.credited count counted
    rwa [spent] at enough
  have gates := decideFire_cases input (carried.le.trans tracked.short)
  refine ⟨ready, bit, ?_, ?_, ?_, tracked.explained.append ?_⟩
  · have before := tracked.short
    show after.vars.consecAbove ≤ 1
    omega
  · intro count counted
    rw [swallowedSinceReset_append, same] at counted
    cases fired : (decideFire input vars).1 with
    | true =>
        rw [credit, same, fired]
        exact Nat.le_add_left _ _
    | false =>
        have earlier : swallowedSinceReset traced.history = some count := by
          simpa [Event.countSwallowed, fired] using counted
        exact (settled count earlier).trans (Nat.le_add_right _ _)
  · intro one _
    rcases gates with ⟨idle, silent, kept⟩ | ⟨-, cleared⟩ | ⟨stepped, above, -, silent, -⟩ |
      ⟨-, -, -, -, cleared⟩
    · obtain ⟨older, first, between, going⟩ := tracked.streak
        (by rw [← carried, ← kept, ← streak]; exact one) spent
      exact ⟨older, first, _, going.extend (by simp [Event.Stepping, same, idle])
        (by simp [Event.Resets, same, silent])⟩
    · exact absurd (streak.symm.trans one) (by omega)
    · refine ⟨traced.history, report, [], rfl, ?_, ?_, by simp, ?_, settled⟩
      · rwa [same]
      · rwa [same]
      · simp [Event.Resets, same, silent]
    · exact absurd (streak.symm.trans one) (by omega)
  · rintro second ⟨⟩ fired
    have honoured : (decideFire input vars).1 = true := by rwa [same] at fired
    rcases gates with ⟨-, silent, -⟩ | ⟨silent, -⟩ | ⟨-, -, -, silent, -⟩ |
      ⟨stepped, above, one, quiet, -⟩
    · exact absurd (silent.symm.trans honoured) Bool.false_ne_true
    · exact absurd (silent.symm.trans honoured) Bool.false_ne_true
    · exact absurd (silent.symm.trans honoured) Bool.false_ne_true
    · have going := tracked.streak (carried ▸ one) spent
      rw [same]
      exact ⟨going, stepped, above, rfl, rfl, rfl, quiet⟩

end

theorem tracked_iteration {traced : Traced} (tracked : Tracked traced) (input : Iteration) :
    Tracked ⟨(iterate input traced.state).1,
      traced.history ++ [.iteration (iterate input traced.state).2]⟩ := by
  obtain ⟨ready, set, outcome⟩ := iterate_outcome input tracked.ready
  generalize (iterate input traced.state).1 = after at ready set outcome ⊢
  generalize (iterate input traced.state).2 = report at set outcome ⊢
  have bit : after.trigger = true ↔ SetBy (traced.history ++ [.iteration report]) := by
    rw [set, Bool.or_eq_true, tracked.bit, setBy_append]
  cases outcome with
  | unfed streak credit steps kept silent =>
      exact tracked_unfed tracked ready bit streak credit steps kept silent
  | swallowed streak positive credit swallowed silent =>
      exact tracked_swallowed tracked ready bit streak credit swallowed silent
  | scored vars carried streak spent credit same =>
      exact tracked_scored tracked ready bit carried streak spent credit same

theorem tracked_step {traced next : Traced} {action : Action} (tracked : Tracked traced)
    (stepped : tracedStep traced action = some next) : Tracked next := by
  cases action with
  | iteration input =>
      obtain rfl := Option.some.inj stepped
      exact tracked_iteration tracked input
  | pause =>
      obtain rfl := Option.some.inj stepped
      exact tracked_pause tracked
  | resume =>
      obtain rfl := Option.some.inj stepped
      exact tracked_resume tracked

/-- In every run the trigger bit is set by iterations alone, and each iteration
that set it ends a streak of two scoring iterations that no reset, pause or empty
room can have bridged. -/
theorem wake_sound (now : Int) {actions : List Action} {final : Traced}
    (ran : (triggerMachine now).run actions = some final) :
    (final.state.trigger = true ↔ SetBy final.history) ∧
      ∀ before second after, final.history = before ++ .iteration second :: after →
        second.fired = true → Justified before second := by
  have tracked : Tracked final := Machine.invariant (tracked_boot now)
    (fun _ _ _ tracked stepped => tracked_step tracked stepped) ran
  exact ⟨tracked.bit, tracked.explained⟩

/-- A pause, a resume, twenty swallowed steps and two scoring ones. -/
def resumedRun : List Action :=
  [.pause, .iteration (loudChunk 255), .resume, .iteration { loudChunk 255 with steps := 20 },
    .iteration (loudChunk 255), .iteration (loudChunk 255)]

theorem wake_sound_resumed :
    Justified
      [.pause, .iteration ⟨true, false, true, 0, 0, false, 0, 0, false⟩, .resume,
        .iteration ⟨true, false, false, 20, 255, true, 0, 0, false⟩,
        .iteration ⟨true, false, false, 1, 255, false, 200, 0, false⟩]
      ⟨true, false, false, 1, 255, false, 200, 0, true⟩ := by
  refine (@wake_sound 0 resumedRun _ rfl).2 _ _ [] ?_ rfl
  decide +kernel

end WallUnit.Firmware.WakeWord
