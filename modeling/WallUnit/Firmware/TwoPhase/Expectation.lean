import WallUnit.Firmware.TwoPhase.Isolation

/-!
Owns the exactness of the `tts_end` wait, over the record a run leaves: no end that was
signalled in time is missed, and no wait succeeds on another request's end. Both fail
because the id and the bit are updated in separate steps, and both hold when no end is
caught between its two steps by the arming of a turn.

Does not own what the handler does with the events.
-/

namespace WallUnit.Firmware.TwoPhase

open WallUnit.Foundations
open WallUnit.Firmware.AudioOut
open WallUnit.Firmware.WsClient

/-- The wait for `requestId` did not time out after its end had passed the gate and set
the bit, both after the id was stored. -/
def NoLoss (log : List Record) : Prop :=
  ∀ (requestId : CString) (before after : List Record),
    log = before ++ .tested requestId false :: after →
    ¬ [.stored requestId, .gated requestId, .signalled requestId].Sublist before

/-- The wait for `requestId` succeeded only after its end had passed the gate. -/
def NoStaleWake (log : List Record) : Prop :=
  ∀ (requestId : CString) (before after : List Record),
    log = before ++ .tested requestId true :: after → .gated requestId ∈ before

structure ExactWait (log : List Record) : Prop where
  noLoss : NoLoss log
  noStaleWake : NoStaleWake log

/-- The request id of the end the WS task is between its gate and its bit with. -/
def WsPhase.finishing? : WsPhase → Option CString
  | .gated (.finish requestId _) => some requestId
  | _ => none

/-- The arming of a turn catches no end halfway: between storing its id and clearing the
bit the turn's own end does not set the bit, and when it clears the bit no end of an
earlier turn is still to set it. -/
def Separated (system : System) : Label → Prop
  | .ws _ _ => system.phase = .stored → system.ws.finishing? ≠ some system.request
  | .turn _ => system.phase = .stored →
      system.ws.finishing? = none ∨ system.ws.finishing? = some system.request
  | _ => True

instance (system : System) : (label : Label) → Decidable (Separated system label)
  | .ws _ _ => inferInstanceAs (Decidable (_ → _))
  | .turn _ => inferInstanceAs (Decidable (_ → _ ∨ _))
  | .arm _ | .receive _ | .writer _ _ => isTrue trivial

/-! ### The record -/

theorem split_concat {log before after : List Record} {record mark : Record}
    (whole : log ++ [record] = before ++ mark :: after) :
    (record = mark ∧ log = before) ∨ ∃ rest, log = before ++ mark :: rest := by
  rcases List.eq_nil_or_concat after with rfl | ⟨rest, last, rfl⟩
  · obtain ⟨same, mark⟩ := List.append_inj' whole rfl
    exact Or.inl ⟨List.singleton_inj.mp mark, same⟩
  · rw [List.concat_eq_append, ← List.cons_append, ← List.append_assoc] at whole
    exact Or.inr ⟨rest, (List.append_inj' whole rfl).1⟩

namespace ExactWait

variable {log : List Record}

theorem nil : ExactWait [] := by
  constructor <;> intro requestId before after empty <;> simp at empty

/-- Only the end of a wait can break the exactness. -/
theorem append_untested {record : Record} (exact_ : ExactWait log)
    (untested : ∀ requestId ended, record ≠ .tested requestId ended) :
    ExactWait (log ++ [record]) := by
  constructor
  · intro requestId before after whole
    rcases split_concat whole with ⟨mark, -⟩ | ⟨rest, earlier⟩
    · exact absurd mark (untested _ _)
    · exact exact_.noLoss requestId before rest earlier
  · intro requestId before after whole
    rcases split_concat whole with ⟨mark, -⟩ | ⟨rest, earlier⟩
    · exact absurd mark (untested _ _)
    · exact exact_.noStaleWake requestId before rest earlier

theorem append_tested {requestId : CString} {ended : Bool} (exact_ : ExactWait log)
    (caught : .signalled requestId ∈ log → ended = true)
    (own : ended = true → .gated requestId ∈ log) :
    ExactWait (log ++ [.tested requestId ended]) := by
  constructor
  · intro other before after whole
    rcases split_concat whole with ⟨mark, rfl⟩ | ⟨rest, earlier⟩
    · obtain ⟨rfl, rfl⟩ := Record.tested.inj mark
      intro inTime
      have signalled := caught (inTime.subset (by simp))
      contradiction
    · exact exact_.noLoss other before rest earlier
  · intro other before after whole
    rcases split_concat whole with ⟨mark, rfl⟩ | ⟨rest, earlier⟩
    · obtain ⟨rfl, rfl⟩ := Record.tested.inj mark
      exact own rfl
    · exact exact_.noStaleWake other before rest earlier

end ExactWait

/-! ### The invariant -/

/-- From the clearing of the bit to the end of the wait. -/
def TurnPhase.heeding : TurnPhase → Bool
  | .acking | .checking false | .activating false => true
  | .ending .wait | .endWaiting .wait _ | .waiting _ => true
  | _ => false

theorem Exit.next_unheeding (exit : Exit) : exit.next.heeding = false := by
  cases exit <;> rfl

theorem AfterEnd.next_heeding (after : AfterEnd) :
    after.next.heeding = (TurnPhase.ending after).heeding := by
  cases after with
  | wait => rfl
  | streamed => rfl
  | leave exit => exact exit.next_unheeding

theorem AfterEnd.waiting_heeding (after : AfterEnd) (semaphore : Option Nat) :
    (TurnPhase.endWaiting after semaphore).heeding = (TurnPhase.ending after).heeding := by
  cases after <;> rfl

theorem Control.heeding {active : Bool} {phase next : TurnPhase}
    (goes : Control active phase next) : next.heeding = phase.heeding := by
  cases goes with
  | @found late _ => cases late <;> rfl
  | notYet _ => rfl
  | never _ => rfl
  | leftOpen _ => rfl
  | @clean exit _ => exact exit.next_unheeding
  | @nothing after _ => exact after.next_heeding
  | finished => rfl

theorem AfterEnd.next_ne_stored (after : AfterEnd) : after.next ≠ .stored := by
  cases after with
  | leave exit => cases exit <;> nofun
  | _ => nofun

theorem Control.next_ne_stored {active : Bool} {phase next : TurnPhase}
    (goes : Control active phase next) : next ≠ .stored := by
  cases goes with
  | @clean exit _ => cases exit <;> nofun
  | @nothing after _ => exact after.next_ne_stored
  | _ => nofun

theorem PlayPhase.next_ne_stored {phase next : TurnPhase} (goes : PlayPhase phase next) :
    next ≠ .stored := by
  cases goes <;> nofun

theorem PlayPhase.heeding {phase next : TurnPhase} (goes : PlayPhase phase next)
    (heeding : next.heeding = true) : phase.heeding = true := by
  cases goes with
  | acked => rfl
  | _ => contradiction

theorem afterActivate_heeding (activated late : Bool) :
    (afterActivate activated late).heeding = (TurnPhase.activating late).heeding := by
  cases activated <;> cases late <;> rfl

theorem afterActivate_ne_stored (activated late : Bool) :
    afterActivate activated late ≠ .stored := by
  cases activated <;> cases late <;> nofun

/-- What the bit means while a turn heeds it: it is set if the turn's own end has been
signalled, only the turn's own end can have set it, and only that one still can. -/
structure Heeded (system : System) : Prop where
  caught : .signalled system.request ∈ system.log → system.ttsEndBit = true
  own : system.ttsEndBit = true → .gated system.request ∈ system.log
  inFlight : ∀ requestId, system.ws.finishing? = some requestId → requestId = system.request

structure Exact (system : System) : Prop where
  log : ExactWait system.log
  current : system.phase.listening = true → system.request ∈ system.armed
  signalled : ∀ requestId, .signalled requestId ∈ system.log → requestId ∈ system.armed
  inFlight : ∀ requestId, system.ws.finishing? = some requestId →
    requestId ∈ system.armed ∧ .gated requestId ∈ system.log
  stored : system.phase = .stored → .signalled system.request ∉ system.log
  heeded : system.phase.heeding = true → Heeded system

namespace Exact

variable {system next : System}

/-- A step that records nothing and touches neither the bit nor the id it belongs to. -/
theorem of_unrecorded (exact_ : Exact system) (log : next.log = system.log)
    (armed : next.armed = system.armed) (request : next.request = system.request)
    (bit : next.ttsEndBit = system.ttsEndBit)
    (ws : ∀ requestId, next.ws.finishing? = some requestId →
      system.ws.finishing? = some requestId)
    (listening : next.phase.listening = true → system.phase.listening = true)
    (stored : next.phase = .stored → system.phase = .stored)
    (heeding : next.phase.heeding = true → system.phase.heeding = true) : Exact next := by
  refine ⟨?_, fun now => ?_, ?_, fun requestId flying => ?_, fun now => ?_, fun now => ?_⟩
  · rw [log]
    exact exact_.log
  · rw [request, armed]
    exact exact_.current (listening now)
  · rw [log, armed]
    exact exact_.signalled
  · rw [log, armed]
    exact exact_.inFlight requestId (ws requestId flying)
  · rw [request, log]
    exact exact_.stored (stored now)
  · have heeded := exact_.heeded (heeding now)
    refine ⟨?_, ?_, fun requestId flying => ?_⟩
    · rw [request, log, bit]
      exact heeded.caught
    · rw [request, log, bit]
      exact heeded.own
    · rw [request]
      exact heeded.inFlight requestId (ws requestId flying)

theorem afterActivate {late activated : Bool} {audio : AudioOut.State Sample}
    (exact_ : Exact system) (at_ : system.phase = .activating late) :
    Exact { system with audio := audio, phase := TwoPhase.afterActivate activated late } := by
  refine exact_.of_unrecorded rfl rfl rfl rfl (fun _ => id) ?_ ?_ ?_
  · rw [at_]
    exact (afterActivate_listening activated late).symm.trans
  · exact fun now => absurd now (afterActivate_ne_stored activated late)
  · rw [at_]
    exact (afterActivate_heeding activated late).symm.trans

theorem turnMove {answers : TurnAnswers} (exact_ : Exact system)
    (separated : Separated system (.turn answers)) (move : TurnMove answers system next) :
    Exact next := by
  cases move with
  | control goes =>
      refine exact_.of_unrecorded rfl rfl rfl rfl (fun _ => id) (fun now => ?_) (fun now => ?_)
        fun now => ?_
      · exact goes.listening ▸ now
      · exact absurd now goes.next_ne_stored
      · exact goes.heeding ▸ now
  | play closes goes =>
      refine exact_.of_unrecorded rfl rfl rfl rfl (fun _ => id) (fun now => ?_) (fun now => ?_)
        fun now => ?_
      · exact goes.listening ▸ now
      · exact absurd now goes.next_ne_stored
      · exact goes.heeding now
  | cleared at_ =>
      have fresh := exact_.stored at_
      refine ⟨exact_.log.append_untested nofun, fun _ => exact_.current (by rw [at_]; rfl),
        fun requestId signalled => ?_, fun requestId flying => ?_, nofun,
        fun _ => ⟨fun signalled => ?_, nofun, fun requestId flying => ?_⟩⟩
      · exact exact_.signalled requestId (by simpa using signalled)
      · exact ⟨(exact_.inFlight requestId flying).1,
          List.mem_append_left _ (exact_.inFlight requestId flying).2⟩
      · exact absurd (by simpa using signalled) fresh
      · -- An end caught here can only be the turn's own.
        rcases separated at_ with none | own
        · exact absurd (none.symm.trans flying) nofun
        · exact Option.some.inj (flying.symm.trans own)
  | @activated late at_ active idle => exact exact_.afterActivate at_
  | @activateFailed late audio at_ closes idle => exact exact_.afterActivate at_
  | @waited activated at_ =>
      have heeded := exact_.heeded (by rw [at_]; rfl)
      refine ⟨exact_.log.append_tested heeded.caught heeded.own,
        fun _ => exact_.current (by rw [at_]; rfl),
        fun requestId signalled => ?_, fun requestId flying => ?_, nofun, nofun⟩
      · exact exact_.signalled requestId (by simpa using signalled)
      · exact ⟨(exact_.inFlight requestId flying).1,
          List.mem_append_left _ (exact_.inFlight requestId flying).2⟩
  | @forgot ended activated at_ =>
      refine exact_.of_unrecorded rfl rfl rfl rfl (fun _ => id) ?_ ?_ ?_
      all_goals cases ended <;> cases activated <;> nofun
  | disarmed at_ => exact exact_.of_unrecorded rfl rfl rfl rfl (fun _ => id) nofun nofun nofun
  | @disarmCleared exit at_ =>
      exact ⟨exact_.log, nofun, exact_.signalled, exact_.inFlight, nofun, nofun⟩
  | @released after at_ active idle =>
      refine exact_.of_unrecorded rfl rfl rfl rfl (fun _ => id) (fun now => ?_) (fun now => ?_)
        fun now => ?_
      · rw [at_, ← after.next_listening]
        exact now
      · exact absurd now after.next_ne_stored
      · rw [at_, ← after.next_heeding]
        exact now
  | @blocked after at_ active draining =>
      refine exact_.of_unrecorded rfl rfl rfl rfl (fun _ => id) (fun now => ?_) nofun fun now => ?_
      · rw [at_, ← after.waiting_listening]
        exact now
      · rw [at_, ← after.waiting_heeding]
        exact now
  | @returned after semaphore audio at_ ret =>
      refine exact_.of_unrecorded rfl rfl rfl rfl (fun _ => id) (fun now => ?_) (fun now => ?_)
        fun now => ?_
      · rw [at_, after.waiting_listening, ← after.next_listening]
        exact now
      · exact absurd now after.next_ne_stored
      · rw [at_, after.waiting_heeding, ← after.next_heeding]
        exact now

theorem wsMove {alloc : BeginAlloc} {timedOut : Bool} (exact_ : Exact system)
    (separated : Separated system (.ws alloc timedOut)) (move : WsMove timedOut system next) :
    Exact next := by
  cases move with
  | @signalled requestId totalSeq at_ =>
      have flying : system.ws.finishing? = some requestId := by rw [at_]; rfl
      obtain ⟨known, gated⟩ := exact_.inFlight requestId flying
      refine ⟨exact_.log.append_untested nofun, exact_.current, fun other signalled => ?_, nofun,
        fun stored signalled => ?_, fun heeding => ⟨fun _ => rfl, fun _ => ?_, nofun⟩⟩
      · rcases List.mem_append.mp signalled with old | new
        · exact exact_.signalled other old
        · obtain rfl := Record.signalled.inj (List.mem_singleton.mp new)
          exact known
      · rcases List.mem_append.mp signalled with old | new
        · exact exact_.stored stored old
        · -- The turn's own end does not set the bit before it is cleared.
          have own := Record.signalled.inj (List.mem_singleton.mp new)
          exact separated stored (flying.trans (congrArg some own.symm))
      · have own := (exact_.heeded heeding).inFlight requestId flying
        subst own
        exact List.mem_append_left _ gated
  | _ => exact exact_.of_unrecorded rfl rfl rfl rfl nofun id id id

theorem move {label : Label} (exact_ : Exact system) (coherent : Coherent system)
    (separated : Separated system label) (move : Move system label next) : Exact next := by
  cases move with
  | arm pending idle fresh =>
      refine ⟨exact_.log.append_untested nofun, fun _ => List.mem_cons_self,
        fun requestId signalled => ?_, fun requestId flying => ?_, fun _ signalled => ?_, nofun⟩
      · exact List.mem_cons_of_mem _ (exact_.signalled requestId (by simpa using signalled))
      · obtain ⟨known, gated⟩ := exact_.inFlight requestId flying
        exact ⟨List.mem_cons_of_mem _ known, List.mem_append_left _ gated⟩
      · exact fresh (exact_.signalled pending.text (by simpa using signalled))
  | turn move => exact exact_.turnMove separated move
  | dropped event idle unmatched =>
      exact exact_.of_unrecorded rfl rfl rfl rfl (fun _ => id) id id id
  | gated event idle matched =>
      obtain ⟨listening, same⟩ := coherent.of_matched matched
      cases event with
      | finish requestId totalSeq =>
          have own : requestId = system.request := same
          subst own
          refine ⟨exact_.log.append_untested nofun, exact_.current, fun other signalled => ?_,
            fun other flying => ?_, fun stored signalled => ?_, fun heeding => ?_⟩
          · exact exact_.signalled other (by simpa [gateRecord] using signalled)
          · obtain rfl := Option.some.inj flying
            exact ⟨exact_.current listening, by simp [gateRecord]⟩
          · exact exact_.stored stored (by simpa [gateRecord] using signalled)
          · have heeded := exact_.heeded heeding
            exact ⟨fun signalled => heeded.caught (by simpa [gateRecord] using signalled),
              fun _ => by simp [gateRecord], fun other flying => (Option.some.inj flying).symm⟩
      | start requestId sampleRate channels =>
          exact exact_.of_unrecorded (List.append_nil _) rfl rfl rfl nofun id id id
      | chunk requestId pcm seq =>
          exact exact_.of_unrecorded (List.append_nil _) rfl rfl rfl nofun id id id
  | ws move => exact exact_.wsMove separated move
  | writer found move => exact exact_.of_unrecorded rfl rfl rfl rfl (fun _ => id) id id id

end Exact

/-- In a run whose arming steps are separated from the ends the WS task is handling, the
record is exact, so no end is lost and no wait is woken by another request's. -/
theorem exactWait_of_separated {ringKb : Nat} {labels : List Label} {final : System}
    (ran : (machine ringKb).run labels = some final)
    (separated : (machine ringKb).Along Separated (machine ringKb).init labels) :
    ExactWait final.log := by
  have kept := @Machine.invariant_along _ _ (machine ringKb) Separated
    (fun system => Coherent system ∧ Exact system)
    ⟨⟨sessionShape_boot, fun _ => rfl, rfl⟩, ExactWait.nil, nofun, nofun, nofun, nofun, nofun⟩
    (fun system label next kept separated stepped =>
      have move := systemStep_move kept.1.shape stepped
      ⟨kept.1.move move, kept.2.move kept.1 separated move⟩) _ _ separated ran
  exact kept.2.log

/-- A turn whose end comes while it waits. -/
def promptRun : List Label :=
  [.arm firstTurn, turnGoes, turnGoes, turnGoes] ++ handle (.finish firstTurn.text 0) 1 ++
    [turnGoes]

/-- A turn whose end sets the bit before the arming clears it; the reply began before the
arming, so no session is open either. -/
def overtakenRun : List Label :=
  [.receive (.start firstTurn.text 16000 1), .receive (.chunk firstTurn.text [7, 9] 0),
    .arm firstTurn] ++ handle (.finish firstTurn.text 1) 1 ++
    [turnGoes, turnGoes, turnGoes, turnGoes]

theorem exactWait_of_promptRun :
    ∃ final, (machine 128).run promptRun = some final ∧
      .tested firstTurn.text true ∈ final.log ∧ ExactWait final.log :=
  ⟨_, rfl, by decide, @exactWait_of_separated 128 promptRun _ rfl (by decide)⟩

theorem exactWait_not_of_overtakenRun :
    ¬ ∀ (ringKb : Nat) (labels : List Label) (final : System),
      (machine ringKb).run labels = some final → ExactWait final.log := by
  intro always
  have exact_ := always 128 overtakenRun _ rfl
  refine exact_.noLoss firstTurn.text
    [.stored firstTurn.text, .gated firstTurn.text, .signalled firstTurn.text,
      .cleared firstTurn.text] [] rfl (by decide)

end WallUnit.Firmware.TwoPhase
