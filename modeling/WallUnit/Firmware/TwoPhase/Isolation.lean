import WallUnit.Firmware.TwoPhase.Moves

/-!
Owns the isolation of turns: whatever is in the ring while a turn is under way came in
chunks of that turn. The gate alone does not give this, because an event can pass it
and be handled much later, in another turn; what does is that every way out of a
turn passes a moment without a session, and only a `tts_start` opens the next one.
-/

namespace WallUnit.Firmware.TwoPhase

open WallUnit.Foundations
open WallUnit.Firmware.AudioOut
open WallUnit.Firmware.WsClient

/-! ### Phases of a turn -/

namespace TurnPhase

/-- From the arming to the last moment a session can be in use. -/
def isOpen : TurnPhase → Bool
  | .idle | .streamed | .fetching => false
  | _ => true

/-- The turn's id is the expected one. -/
def listening : TurnPhase → Bool
  | .stored | .acking | .checking false | .activating false => true
  | .ending .wait | .endWaiting .wait _ | .waiting _ | .tested _ _ => true
  | .disarming .ackFailed => true
  | _ => false

/-- No writer has been started for this turn, or it has been waited for. -/
def silent : TurnPhase → Bool
  | .idle | .stored | .acking | .checking false | .activating false => true
  | .streamed | .fetching => true
  | _ => false

end TurnPhase

theorem Exit.next_closed (exit : Exit) :
    exit.next.isOpen = false ∧ exit.next.listening = false := by
  cases exit <;> exact ⟨rfl, rfl⟩

theorem AfterEnd.next_listening (after : AfterEnd) :
    after.next.listening = (TurnPhase.ending after).listening := by
  cases after with
  | wait => rfl
  | streamed => rfl
  | leave exit => exact exit.next_closed.2

theorem AfterEnd.waiting_listening (after : AfterEnd) (semaphore : Option Nat) :
    (TurnPhase.endWaiting after semaphore).listening = (TurnPhase.ending after).listening := by
  cases after <;> rfl

theorem Control.listening {active : Bool} {phase next : TurnPhase}
    (goes : Control active phase next) : next.listening = phase.listening := by
  cases goes with
  | @found late _ => cases late <;> rfl
  | notYet _ => rfl
  | never _ => rfl
  | leftOpen _ => rfl
  | @clean exit _ => exact exit.next_closed.2
  | @nothing after _ => exact after.next_listening
  | finished => rfl

theorem Control.silent {active : Bool} {phase next : TurnPhase} (goes : Control active phase next)
    (silent : next.silent = true) : phase.silent = true ∨ active = false := by
  cases goes with
  | @found late _ =>
      cases late with
      | false => exact Or.inl rfl
      | true => contradiction
  | notYet inactive => exact Or.inr inactive
  | never inactive => exact Or.inr inactive
  | leftOpen _ => contradiction
  | clean inactive => exact Or.inr inactive
  | nothing inactive => exact Or.inr inactive
  | finished => exact Or.inl rfl

/-- A turn closes only at a moment without a session. -/
theorem Control.isOpen {active : Bool} {phase next : TurnPhase} (goes : Control active phase next)
    (opened : phase.isOpen = true) : next.isOpen = true ∨ active = false := by
  cases goes with
  | found _ => exact Or.inl rfl
  | notYet _ => exact Or.inl rfl
  | never _ => exact Or.inl rfl
  | leftOpen _ => exact Or.inl rfl
  | clean inactive => exact Or.inr inactive
  | nothing inactive => exact Or.inr inactive
  | finished => contradiction

theorem afterActivate_listening (activated late : Bool) :
    (afterActivate activated late).listening = (TurnPhase.activating late).listening := by
  cases activated <;> cases late <;> rfl

theorem PlayPhase.silent {phase next : TurnPhase} (goes : PlayPhase phase next) :
    phase.silent = true := by
  cases goes <;> rfl

theorem PlayPhase.listening {phase next : TurnPhase} (goes : PlayPhase phase next) :
    next.listening = phase.listening := by
  cases goes <;> rfl

theorem PlayPhase.isOpen {phase next : TurnPhase} (goes : PlayPhase phase next) :
    next.isOpen = phase.isOpen := by
  cases goes <;> rfl

theorem TurnPhase.isOpen_of_listening {phase : TurnPhase} (listening : phase.listening = true) :
    phase.isOpen = true := by
  cases phase with
  | idle => contradiction
  | streamed => contradiction
  | fetching => contradiction
  | _ => rfl

/-! ### Coherence -/

/-- The session variables are in shape, no writer runs outside a streaming turn, and the
expected id is the current turn's or none. -/
structure Coherent (system : System) : Prop where
  shape : SessionShape system.audio
  silent : system.phase.silent = true → system.audio.streamDraining = false
  expecting : system.expectTtsRequestId = if system.phase.listening then system.request else []

theorem ClosesI2s.shape {audio next : AudioOut.State Sample} (closes : ClosesI2s audio next)
    (shape : SessionShape audio) (idle : next = audio ∨ audio.streamDraining = false) :
    SessionShape next := by
  rcases closes with rfl | ⟨handle, rfl⟩
  · exact shape
  · rcases idle with same | idle
    · rw [same]
      exact shape
    · exact ⟨shape.closed, shape.opened,
        fun draining => absurd (idle.symm.trans draining) Bool.false_ne_true⟩

theorem ClosesI2s.streamDraining {audio next : AudioOut.State Sample}
    (closes : ClosesI2s audio next) : next.streamDraining = audio.streamDraining := by
  rcases closes with rfl | ⟨handle, rfl⟩ <;> rfl

namespace Coherent

variable {system next : System}

theorem turnMove {answers : TurnAnswers} (coherent : Coherent system)
    (move : TurnMove answers system next) : Coherent next := by
  have expecting := coherent.expecting
  cases move with
  | control goes =>
      refine ⟨coherent.shape, fun silent => ?_, ?_⟩
      · rcases goes.silent silent with before | inactive
        · exact coherent.silent before
        · exact coherent.shape.idle_of_inactive inactive
      · rw [goes.listening]
        exact expecting
  | play closes goes =>
      have idle := coherent.silent goes.silent
      refine ⟨closes.shape coherent.shape (Or.inr idle), fun _ => ?_, ?_⟩
      · exact closes.streamDraining.trans idle
      · rw [goes.listening]
        exact expecting
  | cleared at_ =>
      rw [at_] at expecting
      exact ⟨coherent.shape, fun _ => coherent.silent (by rw [at_]; rfl), expecting⟩
  | @activated late at_ active idle =>
      rw [at_] at expecting
      refine ⟨⟨coherent.shape.closed, coherent.shape.opened, fun _ => ⟨active, rfl⟩⟩, ?_, ?_⟩
      · cases late <;> exact nofun
      · cases late <;> exact expecting
  | @activateFailed late audio at_ closes idle =>
      rw [at_] at expecting
      refine ⟨closes.shape coherent.shape idle, ?_, ?_⟩
      · cases late <;> exact nofun
      · cases late <;> exact expecting
  | waited at_ =>
      rw [at_] at expecting
      exact ⟨coherent.shape, nofun, expecting⟩
  | @forgot ended activated at_ =>
      refine ⟨coherent.shape, ?_, ?_⟩
      · cases ended <;> cases activated <;> exact nofun
      · cases ended <;> cases activated <;> rfl
  | disarmed at_ => exact ⟨coherent.shape, nofun, rfl⟩
  | disarmCleared at_ =>
      rw [at_] at expecting
      exact ⟨coherent.shape, nofun, expecting⟩
  | @released after at_ active idle =>
      rw [at_] at expecting
      refine ⟨SessionShape.releaseStream idle, fun _ => idle, ?_⟩
      rw [after.next_listening]
      exact expecting
  | @blocked after at_ active draining =>
      rw [at_] at expecting
      refine ⟨coherent.shape.stopping, nofun, ?_⟩
      rw [after.waiting_listening]
      exact expecting
  | @returned after semaphore audio at_ ret =>
      rw [at_, after.waiting_listening] at expecting
      refine ⟨SessionShape.audioOutStreamEndReturn ret, fun _ => ?_, ?_⟩
      · obtain ⟨rfl, -⟩ := endReturn_cases ret
        rfl
      · rw [after.next_listening]
        exact expecting

theorem wsMove {timedOut : Bool} (coherent : Coherent system)
    (move : WsMove timedOut system next) : Coherent next := by
  cases move with
  | released at_ active idle =>
      exact ⟨SessionShape.releaseStream idle, fun _ => idle, coherent.expecting⟩
  | blocked at_ active draining =>
      exact ⟨coherent.shape.stopping, coherent.silent, coherent.expecting⟩
  | returned at_ ret =>
      refine ⟨SessionShape.audioOutStreamEndReturn ret, fun _ => ?_, coherent.expecting⟩
      obtain ⟨rfl, -⟩ := endReturn_cases ret
      rfl
  | began rate chans ring at_ inactive =>
      exact ⟨SessionShape.openSession .., fun _ => rfl, coherent.expecting⟩
  | @pushed requestId pcm at_ =>
      refine ⟨coherent.shape.audioOutStreamPush _, fun silent => ?_, coherent.expecting⟩
      have before := coherent.silent silent
      rcases push_cases (tagged requestId pcm) system.audio with same | ⟨buffer, -, -, pushed, -⟩
      · rw [same]
        exact before
      · rw [pushed]
        exact before
  | _ => exact ⟨coherent.shape, coherent.silent, coherent.expecting⟩

theorem move {label : Label} (coherent : Coherent system) (move : Move system label next) :
    Coherent next := by
  cases move with
  | arm pending idle fresh =>
      exact ⟨coherent.shape, fun _ => coherent.silent (by rw [idle]; rfl), rfl⟩
  | turn move => exact coherent.turnMove move
  | dropped event idle unmatched =>
      exact ⟨coherent.shape, coherent.silent, coherent.expecting⟩
  | gated event idle matched =>
      exact ⟨coherent.shape, coherent.silent, coherent.expecting⟩
  | ws move => exact coherent.wsMove move
  | writer found move =>
      refine ⟨coherent.shape.writerMove move, fun silent => ?_, coherent.expecting⟩
      have before := coherent.silent silent
      cases move <;> exact before

end Coherent

/-- An event past the gate was for the current turn when it passed. -/
theorem Coherent.of_matched {system : System} (coherent : Coherent system) {requestId : CString}
    (matched : matchesExpected system.expectTtsRequestId requestId = true) :
    system.phase.listening = true ∧ requestId = system.request := by
  have expecting := coherent.expecting
  simp only [matchesExpected, decide_eq_true_eq] at matched
  cases listening : system.phase.listening with
  | false =>
      rw [listening] at expecting
      exact absurd expecting matched.1
  | true =>
      rw [listening] at expecting
      exact ⟨rfl, matched.2.trans expecting⟩

/-! ### Isolation -/

/-- The request id of the chunk the WS task is handling. -/
def WsPhase.chunk? : WsPhase → Option CString
  | .gated (.chunk requestId _ _) => some requestId
  | .pushing requestId _ => some requestId
  | _ => none

structure Isolated (system : System) : Prop where
  ring : ∀ sample ∈ system.audio.ringBytes,
    system.phase.isOpen = true ∧ sample.1 = system.request
  inFlight : ∀ requestId, system.ws.chunk? = some requestId →
    (system.phase.isOpen = true ∧ requestId = system.request) ∨ system.audio.streamActive = false

theorem SessionShape.ringBytes_nil {audio : AudioOut.State Sample} (shape : SessionShape audio)
    (inactive : audio.streamActive = false) : audio.ringBytes = [] := by
  rw [State.ringBytes, (shape.closed inactive).1]

namespace Isolated

variable {system next : System}

/-- Without a session there is nothing to isolate. -/
theorem of_inactive (shape : SessionShape system.audio)
    (inactive : system.audio.streamActive = false) : Isolated system := by
  refine ⟨fun sample member => ?_, fun _ _ => Or.inr inactive⟩
  rw [SessionShape.ringBytes_nil shape inactive] at member
  contradiction

/-- No chunk is being handled, so only the ring matters. -/
theorem of_unchunked
    (ring : ∀ sample ∈ system.audio.ringBytes,
      system.phase.isOpen = true ∧ sample.1 = system.request)
    (chunk : system.ws.chunk? = none) : Isolated system := by
  refine ⟨ring, fun requestId flying => ?_⟩
  rw [chunk] at flying
  contradiction

/-- A step within an open turn that adds nothing to the ring. -/
theorem of_open (isolated : Isolated system)
    (opened : system.phase.isOpen = true → next.phase.isOpen = true)
    (ring : ∀ sample ∈ next.audio.ringBytes, sample ∈ system.audio.ringBytes)
    (active : next.audio.streamActive = system.audio.streamActive)
    (ws : next.ws = system.ws) (request : next.request = system.request) : Isolated next := by
  refine ⟨fun sample member => ?_, fun requestId chunk => ?_⟩
  · have before := isolated.ring sample (ring sample member)
    rw [request]
    exact ⟨opened before.1, before.2⟩
  · rw [ws] at chunk
    rw [request, active]
    rcases isolated.inFlight requestId chunk with ⟨before, same⟩ | inactive
    · exact Or.inl ⟨opened before, same⟩
    · exact Or.inr inactive

theorem turnMove {answers : TurnAnswers} (isolated : Isolated system) (coherent : Coherent system)
    (move : TurnMove answers system next) : Isolated next := by
  have shape := (coherent.turnMove move).shape
  cases move with
  | control goes =>
      by_cases active : system.audio.streamActive = true
      · refine isolated.of_open (fun opened => ?_) (fun _ member => member) rfl rfl rfl
        exact (goes.isOpen opened).resolve_right (by simp [active])
      · exact of_inactive shape (by simpa using active)
  | play closes goes =>
      refine isolated.of_open (fun opened => goes.isOpen.trans opened) ?_ ?_ rfl rfl
      · rcases closes with rfl | ⟨handle, rfl⟩ <;> exact fun _ member => member
      · rcases closes with rfl | ⟨handle, rfl⟩ <;> rfl
  | cleared at_ => exact isolated.of_open (fun _ => rfl) (fun _ member => member) rfl rfl rfl
  | @activated late at_ active idle =>
      refine isolated.of_open (fun _ => ?_) (fun _ member => member) rfl rfl rfl
      cases late <;> rfl
  | @activateFailed late audio at_ closes idle =>
      refine isolated.of_open (fun _ => ?_) ?_ ?_ rfl rfl
      · cases late <;> rfl
      · rcases closes with rfl | ⟨handle, rfl⟩ <;> exact fun _ member => member
      · rcases closes with rfl | ⟨handle, rfl⟩ <;> rfl
  | waited at_ => exact isolated.of_open (fun _ => rfl) (fun _ member => member) rfl rfl rfl
  | @forgot ended activated at_ =>
      refine isolated.of_open (fun _ => ?_) (fun _ member => member) rfl rfl rfl
      cases ended <;> cases activated <;> rfl
  | disarmed at_ => exact isolated.of_open (fun _ => rfl) (fun _ member => member) rfl rfl rfl
  | disarmCleared at_ =>
      exact isolated.of_open (fun _ => rfl) (fun _ member => member) rfl rfl rfl
  | released at_ active idle => exact of_inactive shape rfl
  | blocked at_ active draining =>
      exact isolated.of_open (fun _ => rfl) (fun _ member => member) rfl rfl rfl
  | returned at_ ret =>
      apply of_inactive shape
      obtain ⟨rfl, -⟩ := endReturn_cases ret
      rfl

theorem wsMove {timedOut : Bool} (isolated : Isolated system) (coherent : Coherent system)
    (move : WsMove timedOut system next) : Isolated next := by
  have shape := (coherent.wsMove move).shape
  cases move with
  | chunkFound at_ =>
      refine ⟨isolated.ring, fun requestId chunk => isolated.inFlight requestId ?_⟩
      rw [at_]
      exact chunk
  | released at_ active idle => exact of_inactive shape rfl
  | returned at_ ret =>
      apply of_inactive shape
      obtain ⟨rfl, -⟩ := endReturn_cases ret
      rfl
  | began rate chans ring at_ inactive =>
      exact of_unchunked (fun _ member => absurd member List.not_mem_nil) rfl
  | @pushed requestId pcm at_ =>
      refine of_unchunked (fun sample member => ?_) rfl
      rcases push_cases (tagged requestId pcm) system.audio with
        same | ⟨buffer, current, active, pushed, -⟩
      · rw [same] at member
        exact isolated.ring sample member
      · rw [pushed] at member
        rcases BoundedFifo.mem_offer member with old | new
        · apply isolated.ring sample
          rw [State.ringBytes, current]
          exact old
        · obtain ⟨byte, -, rfl⟩ := List.mem_map.mp new
          exact (isolated.inFlight requestId (by rw [at_]; rfl)).resolve_right (by simp [active])
  | _ => exact of_unchunked isolated.ring rfl

theorem move {label : Label} (isolated : Isolated system) (coherent : Coherent system)
    (move : Move system label next) : Isolated next := by
  cases move with
  | arm pending idle fresh =>
      refine ⟨fun sample member => ?_, fun requestId chunk => ?_⟩
      · have opened := (isolated.ring sample member).1
        rw [idle] at opened
        contradiction
      · rcases isolated.inFlight requestId chunk with ⟨opened, -⟩ | inactive
        · rw [idle] at opened
          contradiction
        · exact Or.inr inactive
  | turn move => exact isolated.turnMove coherent move
  | dropped event idle unmatched => exact ⟨isolated.ring, isolated.inFlight⟩
  | gated event idle matched =>
      obtain ⟨listening, same⟩ := coherent.of_matched matched
      refine ⟨isolated.ring, fun requestId chunk => Or.inl ?_⟩
      cases event with
      | chunk id pcm seq =>
          obtain rfl := Option.some.inj chunk
          exact ⟨TurnPhase.isOpen_of_listening listening, same⟩
      | start id sampleRate channels => contradiction
      | finish id totalSeq => contradiction
  | ws move => exact isolated.wsMove coherent move
  | writer found move =>
      cases move with
      | phase phase underruns =>
          exact isolated.of_open id (fun _ member => member) rfl rfl rfl
      | receive buffer current =>
          refine isolated.of_open id (fun sample member => ?_) rfl rfl rfl
          rw [State.ringBytes, current]
          exact List.mem_of_mem_drop member
      | exit drain semaphore reason =>
          exact isolated.of_open id (fun _ member => member) rfl rfl rfl

end Isolated

/-- Whatever the interleaving, and whatever an earlier turn has left behind, every byte in
the ring came in a chunk of the turn under way, and between turns there is none. -/
theorem ring_of_currentTurn {ringKb : Nat} {labels : List Label} {final : System}
    (ran : (machine ringKb).run labels = some final) :
    ∀ sample ∈ final.audio.ringBytes,
      final.phase.isOpen = true ∧ sample.1 = final.request := by
  have kept := @Machine.invariant _ _ (machine ringKb)
    (fun system => Coherent system ∧ Isolated system)
    ⟨⟨sessionShape_boot, fun _ => rfl, rfl⟩, nofun, nofun⟩
    (fun system label next kept stepped =>
      have move := systemStep_move kept.1.shape stepped
      ⟨kept.1.move move, kept.2.move kept.1 move⟩) _ _ ran
  exact kept.2.ring

/-- A turn whose ack fails while its `tts_start` is past the gate leaves a session open; the
next turn's own start replaces it. -/
def staleSessionRun : List Label :=
  [.arm firstTurn, .receive (.start firstTurn.text 16000 1), turnGoes,
    .turn ⟨.fail, .opened, true, false⟩, turnGoes, turnGoes, turnGoes, wsGoes, wsGoes,
    .arm secondTurn] ++ handle (.start secondTurn.text 16000 1) 3 ++
    handle (.chunk secondTurn.text [7, 9] 0) 2

theorem ring_of_staleSessionRun :
    ∃ final, (machine 128).run staleSessionRun = some final ∧
      final.audio.ringBytes = tagged secondTurn.text [7, 9] ∧
      ∀ sample ∈ final.audio.ringBytes,
        final.phase.isOpen = true ∧ sample.1 = final.request :=
  ⟨_, rfl, rfl, @ring_of_currentTurn 128 staleSessionRun _ rfl⟩

end WallUnit.Firmware.TwoPhase
