import WallUnit.Firmware.TwoPhase.Isolation

/-!
Owns who is playing what: a writer only ever drains the session the current turn's own
`tts_start` opened, it is alive until the turn asks it to stop, and once the turn has
activated a stream that session stays. This needs that a stale session is not activated,
that no wait gives up on a live writer, and that a writer gets its buffers.

Does not own the bytes.
-/

namespace WallUnit.Firmware.TwoPhase

open WallUnit.Foundations
open WallUnit.Firmware.AudioOut
open WallUnit.Firmware.WsClient

/-- The request id of the start the WS task is handling. -/
def WsPhase.start? : WsPhase → Option CString
  | .gated (.start requestId _ _) => some requestId
  | .ending requestId _ _ => some requestId
  | .endWaiting requestId _ _ _ => some requestId
  | .beginning requestId _ _ => some requestId
  | _ => none

def WsPhase.isEndWaiting : WsPhase → Bool
  | .endWaiting _ _ _ _ => true
  | _ => false

def TurnPhase.isEndWaiting : TurnPhase → Bool
  | .endWaiting _ _ => true
  | _ => false

def TurnPhase.isActivating : TurnPhase → Bool
  | .activating _ => true
  | _ => false

/-- The turn has a writer running and has not given up on it. -/
def TurnPhase.activated : TurnPhase → Bool
  | .waiting true | .tested _ true => true
  | .ending .streamed | .endWaiting .streamed _ => true
  | _ => false

/-- What the turn and the writer need from their surroundings: an activation finds the
session of the turn's own start, the wait for the writer does not give up on it, and the
writer's allocations succeed. -/
def Attended (system : System) : Label → Prop
  | .turn answers =>
      (system.phase.isActivating = true → system.audio.streamActive = true →
        system.owner = system.request) ∧
      (system.phase.isEndWaiting = true → answers.timedOut = true → system.audio.writers = [])
  | .writer _ allocated => allocated = true
  | _ => True

instance (system : System) : (label : Label) → Decidable (Attended system label)
  | .turn _ => inferInstanceAs (Decidable (_ ∧ _))
  | .writer _ allocated => inferInstanceAs (Decidable (allocated = true))
  | .arm _ | .receive _ | .ws _ _ => isTrue trivial

/-! ### Phases -/

theorem Exit.next_resting (exit : Exit) :
    exit.next.isEndWaiting = false ∧ exit.next.activated = false := by
  cases exit <;> exact ⟨rfl, rfl⟩

theorem AfterEnd.next_resting (after : AfterEnd) :
    after.next.isEndWaiting = false ∧ after.next.activated = false := by
  cases after with
  | leave exit => exact exit.next_resting
  | _ => exact ⟨rfl, rfl⟩

theorem Control.next_resting {active : Bool} {phase next : TurnPhase}
    (goes : Control active phase next) :
    next.isEndWaiting = false ∧ next.activated = false := by
  cases goes with
  | @clean exit _ => exact exit.next_resting
  | @nothing after _ => exact after.next_resting
  | _ => exact ⟨rfl, rfl⟩

theorem Control.isEndWaiting {active : Bool} {phase next : TurnPhase}
    (goes : Control active phase next) : phase.isEndWaiting = false := by
  cases goes <;> rfl

theorem PlayPhase.next_resting {phase next : TurnPhase} (goes : PlayPhase phase next) :
    next.isEndWaiting = false ∧ next.activated = false := by
  cases goes <;> exact ⟨rfl, rfl⟩

theorem PlayPhase.isEndWaiting {phase next : TurnPhase} (goes : PlayPhase phase next) :
    phase.isEndWaiting = false := by
  cases goes <;> rfl

theorem TurnPhase.activated_of_tested {ended activated : Bool}
    (now : (if ended then if activated then .ending .streamed else .checking true
      else .disarming .fellBack : TurnPhase).activated = true) : activated = true := by
  cases ended <;> cases activated <;> first | rfl | contradiction

/-! ### The invariant -/

/-- Once the current turn's own start has opened a session, no other start is being
handled. -/
def Opened (system : System) : Prop :=
  system.audio.streamActive = true → system.owner = system.request →
    system.ws.start? = none ∧ 1 ≤ system.received system.request

structure Writing (system : System) : Prop where
  owned : WriterOwned system.audio
  own : system.audio.streamDraining = true → system.owner = system.request
  stop : system.audio.streamActive = true → system.audio.streamStopRequest = true →
    system.phase.isEndWaiting = true
  live : system.audio.streamDraining = true → system.phase.isEndWaiting = false →
    system.audio.writers ≠ []
  activated : system.phase.activated = true →
    system.audio.streamActive = true ∧ system.audio.streamDraining = true
  wsFree : system.ws.isEndWaiting = false

theorem ClosesI2s.owned {audio next : AudioOut.State Sample} (closes : ClosesI2s audio next)
    (owned : WriterOwned audio) (idle : next = audio ∨ audio.streamDraining = false) :
    WriterOwned next := by
  rcases closes with rfl | ⟨handle, rfl⟩
  · exact owned
  · rcases idle with same | idle
    · rw [same]
      exact owned
    · exact owned.channel idle none handle

theorem ClosesI2s.same {audio next : AudioOut.State Sample} (closes : ClosesI2s audio next) :
    next.streamActive = audio.streamActive ∧
      next.streamStopRequest = audio.streamStopRequest ∧ next.writers = audio.writers ∧
      next.played = audio.played ∧ next.ringBytes = audio.ringBytes := by
  rcases closes with rfl | ⟨handle, rfl⟩ <;> exact ⟨rfl, rfl, rfl, rfl, rfl⟩

namespace Writing

variable {system next : System}

/-- A step after which there is no session. -/
theorem of_released (owned : WriterOwned next.audio) (idle : next.audio.streamDraining = false)
    (inactive : next.audio.streamActive = false) (resting : next.phase.activated = false)
    (wsFree : next.ws.isEndWaiting = false) : Writing next where
  owned := owned
  own draining := absurd (idle.symm.trans draining) nofun
  stop active := absurd (inactive.symm.trans active) nofun
  live draining := absurd (idle.symm.trans draining) nofun
  activated now := absurd (resting.symm.trans now) nofun
  wsFree := wsFree

/-- A step of the turn that leaves the session alone. -/
theorem of_same (writing : Writing system) (audio : next.audio = system.audio)
    (owner : next.owner = system.owner) (request : next.request = system.request)
    (ws : next.ws = system.ws) (before : system.phase.isEndWaiting = false)
    (activated : next.phase.activated = true → system.phase.activated = true) :
    Writing next := by
  refine ⟨audio ▸ writing.owned, ?_, ?_, ?_, fun now => ?_, ws ▸ writing.wsFree⟩
  · rw [audio, owner, request]
    exact writing.own
  · rw [audio]
    exact fun active stop => absurd (before.symm.trans (writing.stop active stop)) nofun
  · rw [audio]
    exact fun draining _ => writing.live draining before
  · rw [audio]
    exact writing.activated (activated now)

/-- One after which no writer has been asked for. -/
theorem of_resting (writing : Writing system) (audio : next.audio = system.audio)
    (owner : next.owner = system.owner) (request : next.request = system.request)
    (ws : next.ws = system.ws) (before : system.phase.isEndWaiting = false)
    (resting : next.phase.activated = false) : Writing next := by
  apply writing.of_same audio owner request ws before
  intro now
  rw [resting] at now
  contradiction

/-- A playback or a failed activation. -/
theorem closeI2s {audio : AudioOut.State Sample} {phase : TurnPhase} (writing : Writing system)
    (closes : ClosesI2s system.audio audio)
    (idle : audio = system.audio ∨ system.audio.streamDraining = false)
    (before : system.phase.isEndWaiting = false) (resting : phase.activated = false) :
    Writing { system with audio := audio, phase := phase } := by
  obtain ⟨active, stop, writers, -, -⟩ := closes.same
  refine ⟨closes.owned writing.owned idle, ?_, ?_, ?_, fun now => ?_, writing.wsFree⟩
  · rw [closes.streamDraining]
    exact writing.own
  · rw [active, stop]
    exact fun active stop => absurd (before.symm.trans (writing.stop active stop)) nofun
  · rw [closes.streamDraining, writers]
    exact fun draining _ => writing.live draining before
  · exact absurd (resting.symm.trans now) nofun

theorem turnMove {answers : TurnAnswers} (writing : Writing system) (coherent : Coherent system)
    (attended : Attended system (.turn answers)) (move : TurnMove answers system next) :
    Writing next := by
  cases move with
  | control goes =>
      exact writing.of_resting rfl rfl rfl rfl goes.isEndWaiting goes.next_resting.2
  | play closes goes =>
      exact writing.closeI2s closes (Or.inr (coherent.silent goes.silent)) goes.isEndWaiting
        goes.next_resting.2
  | cleared at_ => exact writing.of_resting rfl rfl rfl rfl (by rw [at_]; rfl) rfl
  | @activated late at_ active idle =>
      have own := attended.1 (by rw [at_]; rfl) active
      refine ⟨writing.owned.startWriter idle, fun _ => own, fun _ stop => ?_, fun _ _ => ?_,
        fun _ => ⟨active, rfl⟩, writing.wsFree⟩
      · have before := writing.stop active stop
        rw [at_] at before
        contradiction
      · simp [startWriter]
  | @activateFailed late audio at_ closes idle =>
      exact writing.closeI2s closes idle (by rw [at_]; rfl) (by cases late <;> rfl)
  | @waited activated at_ =>
      refine writing.of_same rfl rfl rfl rfl (by rw [at_]; rfl) fun now => ?_
      rw [at_]
      cases activated with
      | false => contradiction
      | true => rfl
  | @forgot ended activated at_ =>
      refine writing.of_same rfl rfl rfl rfl (by rw [at_]; rfl) fun now => ?_
      rw [at_, TurnPhase.activated_of_tested now]
      rfl
  | disarmed at_ => exact writing.of_resting rfl rfl rfl rfl (by rw [at_]; rfl) rfl
  | disarmCleared at_ => exact writing.of_resting rfl rfl rfl rfl (by rw [at_]; rfl) rfl
  | @released after at_ active idle =>
      exact of_released (WriterOwned.releaseStream (writing.owned.writers_nil idle)) idle rfl
        after.next_resting.2 writing.wsFree
  | @blocked after at_ active draining =>
      refine ⟨writing.owned.stopping, writing.own, fun _ _ => rfl,
        fun _ resting => absurd resting.symm Bool.false_ne_true, fun now => ?_, writing.wsFree⟩
      apply writing.activated
      rw [at_]
      cases after with
      | streamed => rfl
      | _ => contradiction
  | @returned after semaphore audio at_ ret =>
      have patient := attended.2 (by rw [at_]; rfl)
      obtain ⟨-, owned⟩ := writing.owned.audioOutStreamEndReturn patient ret
      obtain ⟨rfl, -⟩ := endReturn_cases ret
      exact of_released owned rfl rfl after.next_resting.2 writing.wsFree

theorem wsMove {timedOut : Bool} (writing : Writing system) (opened : Opened system)
    (shape : SessionShape system.audio) (move : WsMove timedOut system next) : Writing next := by
  cases move with
  | @released requestId sampleRate channels at_ active idle =>
      have resting : system.phase.activated = false := by
        by_contra now
        have draining := (writing.activated (by simpa using now)).2
        exact absurd (idle.symm.trans draining) nofun
      exact of_released (WriterOwned.releaseStream (writing.owned.writers_nil idle)) idle rfl
        resting rfl
  | @blocked requestId sampleRate channels at_ active draining =>
      -- The draining session is the current turn's own, and then no start is being handled.
      have free := (opened active (writing.own draining)).1
      rw [at_] at free
      contradiction
  | @returned requestId sampleRate channels semaphore audio at_ ret =>
      have free := writing.wsFree
      rw [at_] at free
      contradiction
  | @began requestId sampleRate channels rate chans ring at_ inactive =>
      have idle := shape.idle_of_inactive inactive
      refine ⟨WriterOwned.openSession (writing.owned.writers_nil idle) .., nofun, fun _ => nofun,
        nofun, fun now => ?_, rfl⟩
      exact absurd (inactive.symm.trans (writing.activated now).1) nofun
  | @pushed requestId pcm at_ =>
      rcases push_cases (tagged requestId pcm) system.audio with same | ⟨buffer, -, -, pushed, -⟩
      · rw [same]
        exact ⟨writing.owned, writing.own, writing.stop, writing.live, writing.activated, rfl⟩
      · have owned := writing.owned.audioOutStreamPush (tagged requestId pcm)
        rw [pushed] at owned ⊢
        exact ⟨owned, writing.own, writing.stop, writing.live, writing.activated, rfl⟩
  | _ => exact ⟨writing.owned, writing.own, writing.stop, writing.live, writing.activated, rfl⟩

theorem writerMove {index : Nat} {allocated : Bool} {writer : Writer}
    {audio : AudioOut.State Sample} (writing : Writing system) (shape : SessionShape system.audio)
    (attended : Attended system (.writer index allocated))
    (found : system.audio.writers[index]? = some writer)
    (move : WriterMove system.audio index allocated writer audio) :
    Writing { system with audio := audio } := by
  have owned := writing.owned.writerMove found move
  have draining := (writing.owned.writer writer (List.mem_of_getElem? found)).1
  cases move with
  | phase phase underruns =>
      refine ⟨owned, writing.own, writing.stop, fun _ now gone => ?_, writing.activated,
        writing.wsFree⟩
      have before := writing.live draining now
      exact before (List.eq_nil_of_length_eq_zero (by simpa using congrArg List.length gone))
  | receive buffer ring =>
      exact ⟨owned, writing.own, writing.stop, writing.live, writing.activated, writing.wsFree⟩
  | exit drain semaphore reason =>
      -- With its buffers allocated, a writer exits only when asked to.
      have asked : system.audio.streamStopRequest = true := by
        rcases reason with unallocated | ⟨stop, -⟩
        · exact absurd (unallocated.symm.trans attended) nofun
        · exact stop
      have waiting := writing.stop (shape.draining draining).1 asked
      exact ⟨owned, writing.own, writing.stop,
        fun _ now => absurd (now.symm.trans waiting) nofun, writing.activated, writing.wsFree⟩

theorem move {label : Label} (writing : Writing system) (coherent : Coherent system)
    (opened : Opened system) (attended : Attended system label)
    (move : Move system label next) : Writing next := by
  cases move with
  | arm pending idle fresh =>
      have still := coherent.silent (by rw [idle]; rfl)
      refine ⟨writing.owned, fun draining => ?_, fun active stop => ?_, fun draining => ?_, nofun,
        writing.wsFree⟩
      · exact absurd (still.symm.trans draining) nofun
      · have before := writing.stop active stop
        rw [idle] at before
        contradiction
      · exact absurd (still.symm.trans draining) nofun
  | turn move => exact writing.turnMove coherent attended move
  | dropped event idle unmatched =>
      exact ⟨writing.owned, writing.own, writing.stop, writing.live, writing.activated,
        writing.wsFree⟩
  | gated event idle matched =>
      exact ⟨writing.owned, writing.own, writing.stop, writing.live, writing.activated, rfl⟩
  | ws move => exact writing.wsMove opened coherent.shape move
  | writer found move => exact writing.writerMove coherent.shape attended found move

end Writing

end WallUnit.Firmware.TwoPhase
