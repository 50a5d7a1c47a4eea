import WallUnit.Firmware.TwoPhase.Expectation
import WallUnit.Firmware.TwoPhase.Writing

/-!
Owns the delivery of a streamed reply: when a turn takes the success branch, what has
been played since it began is the reply, whole and in order. The code tests neither
`seq` nor `total_seq` nor the outcome of a push or of the final drain, so this holds in
runs where none of these goes wrong: `Intact` says what that takes of each step.

Does not own the order in which the server sends, which is `Served`.
-/

namespace WallUnit.Firmware.TwoPhase

open WallUnit.Foundations
open WallUnit.Firmware.AudioOut
open WallUnit.Firmware.WsClient

/-- The reply the server streams for a request. -/
structure Reply where
  sampleRate : Nat
  chunks : List (List UInt8)

/-- The event that arrives is the next one of its request's reply. -/
def Served (reply : CString → Reply) (system : System) : Label → Prop
  | .receive event =>
      (streamEvents event.requestId (reply event.requestId).sampleRate
        (reply event.requestId).chunks)[system.received event.requestId]? = some event
  | _ => True

instance (reply : CString → Reply) (system : System) :
    (label : Label) → Decidable (Served reply system label)
  | .receive _ => inferInstanceAs (Decidable (_ = some _))
  | .arm _ | .turn _ | .ws _ _ | .writer _ _ => isTrue trivial

/-- The push about to return has room for the whole chunk. -/
def Roomy (system : System) : Prop :=
  match system.ws, system.audio.stream with
  | .pushing _ pcm, some buffer => pcm.length ≤ buffer.fifo.free
  | _, _ => True

instance (system : System) : Decidable (Roomy system) := by
  unfold Roomy
  split <;> infer_instance

/-- A push finds room, and when the arming of a turn clears the bit, no end of an earlier
turn is still to set it. -/
def Unhindered (system : System) : Label → Prop
  | .ws _ _ => Roomy system
  | .turn answers => Separated system (.turn answers)
  | _ => True

instance (system : System) : (label : Label) → Decidable (Unhindered system label)
  | .ws _ _ => inferInstanceAs (Decidable (Roomy system))
  | .turn answers => inferInstanceAs (Decidable (Separated system (.turn answers)))
  | .arm _ | .receive _ | .writer _ _ => isTrue trivial

/-- No step goes wrong for the reply under way. -/
def Intact (system : System) (label : Label) : Prop :=
  Attended system label ∧ Unhindered system label

instance (system : System) (label : Label) : Decidable (Intact system label) :=
  inferInstanceAs (Decidable (_ ∧ _))

/-! ### Phases -/

namespace TurnPhase

/-- The turn has been told the end of its reply and is on the success path. -/
def succeeded : TurnPhase → Bool
  | .tested true _ | .checking true | .activating true => true
  | .ending .streamed | .endWaiting .streamed _ => true
  | _ => false

/-- The turn may still take the success branch. -/
def tracking (phase : TurnPhase) : Bool := phase.listening || phase.succeeded

/-- The turn has been told the end of its reply, or will be at its next look. -/
def endSeen (phase : TurnPhase) (bit : Bool) : Bool := (phase.heeding && bit) || phase.succeeded

end TurnPhase

theorem Exit.next_unsucceeded (exit : Exit) : exit.next.succeeded = false := by
  cases exit <;> rfl

theorem AfterEnd.next_unsucceeded (after : AfterEnd) : after.next.succeeded = false := by
  cases after with
  | leave exit => exact exit.next_unsucceeded
  | _ => rfl

theorem AfterEnd.next_endSeen (after : AfterEnd) (bit : Bool) :
    after.next.endSeen bit = ((TurnPhase.ending after).heeding && bit) := by
  rw [TurnPhase.endSeen, after.next_heeding, after.next_unsucceeded, Bool.or_false]

theorem Control.succeeded {active : Bool} {phase next : TurnPhase}
    (goes : Control active phase next) (succeeded : next.succeeded = true) :
    phase.succeeded = true := by
  cases goes with
  | @found late _ =>
      cases late with
      | false => contradiction
      | true => rfl
  | @clean exit _ => exact absurd (exit.next_unsucceeded.symm.trans succeeded) nofun
  | @nothing after _ => exact absurd (after.next_unsucceeded.symm.trans succeeded) nofun
  | _ => contradiction

theorem PlayPhase.endSeen {phase next : TurnPhase} {bit : Bool} (goes : PlayPhase phase next)
    (seen : next.endSeen bit = true) : phase.endSeen bit = true := by
  cases goes with
  | acked => exact seen
  | _ => contradiction

theorem TurnPhase.listening_of_heeding {phase : TurnPhase} (heeding : phase.heeding = true) :
    phase.listening = true := by
  cases phase with
  | checking late =>
      cases late with
      | false => rfl
      | true => contradiction
  | activating late =>
      cases late with
      | false => rfl
      | true => contradiction
  | ending after =>
      cases after with
      | wait => rfl
      | _ => contradiction
  | endWaiting after semaphore =>
      cases after with
      | wait => rfl
      | _ => contradiction
  | acking => rfl
  | waiting activated => rfl
  | _ => contradiction

namespace TurnMove

variable {answers : TurnAnswers} {system next : System}

theorem listening (move : TurnMove answers system next) (listening : next.phase.listening = true) :
    system.phase.listening = true := by
  cases move with
  | control goes => exact goes.listening ▸ listening
  | play closes goes => exact goes.listening ▸ listening
  | cleared at_ => rw [at_]; rfl
  | activated at_ active idle => rw [at_, ← afterActivate_listening true]; exact listening
  | activateFailed at_ closes idle => rw [at_, ← afterActivate_listening false]; exact listening
  | waited at_ => rw [at_]; rfl
  | forgot at_ => rw [at_]; rfl
  | disarmed at_ => contradiction
  | disarmCleared at_ => contradiction
  | @released after at_ active idle => rw [at_, ← after.next_listening]; exact listening
  | @blocked after at_ active draining =>
      rw [at_, ← after.waiting_listening]
      exact listening
  | @returned after semaphore audio at_ ret =>
      rw [at_, after.waiting_listening, ← after.next_listening]
      exact listening

theorem endSeen (move : TurnMove answers system next)
    (seen : next.phase.endSeen next.ttsEndBit = true) :
    system.phase.endSeen system.ttsEndBit = true := by
  cases move with
  | control goes =>
      simp only [TurnPhase.endSeen, goes.heeding, Bool.or_eq_true] at seen ⊢
      exact seen.imp_right goes.succeeded
  | play closes goes => exact goes.endSeen seen
  | cleared at_ => contradiction
  | @activated late at_ active idle =>
      rw [at_]
      cases late <;> exact seen
  | @activateFailed late audio at_ closes idle =>
      rw [at_]
      cases late with
      | false => exact seen
      | true => contradiction
  | @waited activated at_ =>
      rw [at_]
      cases bit : system.ttsEndBit with
      | false =>
          simp only [bit] at seen
          contradiction
      | true => rfl
  | @forgot ended activated at_ =>
      rw [at_]
      cases ended with
      | false => contradiction
      | true => rfl
  | disarmed at_ => contradiction
  | disarmCleared at_ => contradiction
  | @released after at_ active idle =>
      rw [after.next_endSeen] at seen
      rw [at_, TurnPhase.endSeen, seen, Bool.true_or]
  | @blocked after at_ active draining =>
      rw [at_]
      cases after <;> exact seen
  | @returned after semaphore audio at_ ret =>
      rw [after.next_endSeen] at seen
      rw [at_, TurnPhase.endSeen, after.waiting_heeding, seen, Bool.true_or]

theorem tracking (move : TurnMove answers system next) (tracking : next.phase.tracking = true) :
    system.phase.tracking = true := by
  rw [TurnPhase.tracking, Bool.or_eq_true] at tracking ⊢
  rcases tracking with listening | succeeded
  · exact Or.inl (move.listening listening)
  · have seen := move.endSeen (by rw [TurnPhase.endSeen, succeeded, Bool.or_true])
    rw [TurnPhase.endSeen, Bool.or_eq_true, Bool.and_eq_true] at seen
    rcases seen with ⟨heeding, -⟩ | before
    · exact Or.inl (TurnPhase.listening_of_heeding heeding)
    · exact Or.inr before

theorem heeding (move : TurnMove answers system next) (heeding : next.phase.heeding = true) :
    system.phase.heeding = true ∨ system.phase = .stored := by
  cases move with
  | cleared at_ => exact Or.inr at_
  | control goes => exact Or.inl (goes.heeding ▸ heeding)
  | play closes goes => exact Or.inl (goes.heeding heeding)
  | activated at_ active idle =>
      rw [at_, ← afterActivate_heeding true]
      exact Or.inl heeding
  | activateFailed at_ closes idle =>
      rw [at_, ← afterActivate_heeding false]
      exact Or.inl heeding
  | waited at_ => contradiction
  | @forgot ended activated at_ => cases ended <;> cases activated <;> contradiction
  | disarmed at_ => contradiction
  | disarmCleared at_ => contradiction
  | @released after at_ active idle =>
      rw [at_, ← after.next_heeding]
      exact Or.inl heeding
  | @blocked after at_ active draining =>
      rw [at_, ← after.waiting_heeding]
      exact Or.inl heeding
  | @returned after semaphore audio at_ ret =>
      rw [at_, after.waiting_heeding, ← after.next_heeding]
      exact Or.inl heeding

end TurnMove

/-- What a step of the turn leaves alone; a session that is active after it was active
before it, with the same ring. -/
structure TurnFrame (system next : System) : Prop where
  ws : next.ws = system.ws
  request : next.request = system.request
  received : next.received = system.received
  owner : next.owner = system.owner
  armed : next.armed = system.armed
  heardBefore : next.heardBefore = system.heardBefore
  played : next.audio.played = system.audio.played
  session : next.audio.streamActive = true →
    system.audio.streamActive = true ∧ next.audio.ringBytes = system.audio.ringBytes

theorem TurnMove.frame {answers : TurnAnswers} {system next : System}
    (move : TurnMove answers system next) : TurnFrame system next := by
  cases move with
  | play closes goes =>
      obtain ⟨active, -, -, played, ring⟩ := closes.same
      exact ⟨rfl, rfl, rfl, rfl, rfl, rfl, played, fun now => ⟨active ▸ now, ring⟩⟩
  | activateFailed at_ closes idle =>
      obtain ⟨active, -, -, played, ring⟩ := closes.same
      exact ⟨rfl, rfl, rfl, rfl, rfl, rfl, played, fun now => ⟨active ▸ now, ring⟩⟩
  | released at_ active idle => exact ⟨rfl, rfl, rfl, rfl, rfl, rfl, rfl, nofun⟩
  | returned at_ ret =>
      obtain ⟨rfl, -⟩ := endReturn_cases ret
      exact ⟨rfl, rfl, rfl, rfl, rfl, rfl, rfl, nofun⟩
  | _ => exact ⟨rfl, rfl, rfl, rfl, rfl, rfl, rfl, fun now => ⟨now, rfl⟩⟩

theorem TurnFrame.heard {system next : System} (frame : TurnFrame system next) :
    next.heard = system.heard := by
  rw [System.heard, System.heard, frame.played, frame.heardBefore]

/-! ### The invariant -/

/-- The bytes of the chunk the WS task is handling. -/
def WsPhase.carried : WsPhase → List Sample
  | .gated (.chunk requestId pcm _) => tagged requestId pcm
  | .pushing requestId pcm => tagged requestId pcm
  | _ => []

section

variable (reply : CString → Reply)

/-- Every event of the current request's reply has reached the gate. -/
def Complete (system : System) : Prop :=
  system.received system.request = (reply system.request).chunks.length + 2

/-- Where the events stand: a start being handled is the first of its reply, an end being
handled the last; ids in use belong to turns. -/
structure Placed (system : System) : Prop where
  nonempty : system.phase.listening = true → system.request ≠ []
  armed : system.phase.listening = true → system.request ∈ system.armed
  starting : ∀ requestId, system.ws.start? = some requestId →
    requestId ∈ system.armed ∧ system.received requestId = 1
  finishing : ∀ requestId, system.ws.finishing? = some requestId →
    system.received requestId = (reply requestId).chunks.length + 2
  owner : system.audio.streamActive = true → system.owner ∈ system.armed
  opened : Opened system

/-- What has been heard, what waits in the ring and what is being handled make up the
chunks that have arrived. -/
structure Conserved (system : System) : Prop where
  mark : system.heardBefore ≤ system.audio.played.length
  unheard : system.received system.request = 0 ∨ system.ws.start? = some system.request →
    system.heard = []
  conserved : system.audio.streamActive = true → system.owner = system.request →
    system.phase.tracking = true →
    system.heard ++ system.audio.ringBytes ++ system.ws.carried =
      tagged system.request
        ((reply system.request).chunks.take (system.received system.request - 1)).flatten

/-- The turn only believes the end of its own reply, and then nothing is under way. -/
structure Ended (system : System) : Prop where
  heeds : system.phase.heeding = true →
    ∀ requestId, system.ws.finishing? = some requestId → requestId = system.request
  done : system.phase.endSeen system.ttsEndBit = true →
    Complete reply system ∧ system.ws = .idle

/-- The last wait of a successful turn is over only when the ring has been emptied. -/
structure Drained (system : System) : Prop where
  drained : ∀ semaphore, system.phase = .endWaiting .streamed semaphore →
    system.audio.writers = [] → system.audio.ringBytes = []
  delivered : system.phase = .streamed →
    system.heard = tagged system.request (reply system.request).chunks.flatten

structure Delivering (system : System) : Prop where
  coherent : Coherent system
  writing : Writing system
  placed : Placed reply system
  conserved : Conserved reply system
  ended : Ended reply system
  drained : Drained reply system

end

variable {reply : CString → Reply} {system next : System}

/-- The counts only grow, and only for the event that arrives. -/
theorem le_received (event : TtsEvent) (received : CString → Nat) (requestId : CString) :
    received requestId ≤
      Function.update received event.requestId (received event.requestId + 1) requestId := by
  by_cases same : requestId = event.requestId
  · subst same
    rw [Function.update_self]
    omega
  · have kept : Function.update received event.requestId (received event.requestId + 1) requestId =
        received requestId := Function.update_of_ne same ..
    omega

theorem received_of_start {requestId : CString} {sampleRate channels : Int}
    (served : Served reply system (.receive (.start requestId sampleRate channels))) :
    system.received (TtsEvent.start requestId sampleRate channels).requestId = 0 := by
  rcases streamEvents_cases served with ⟨zero, -⟩ | ⟨seq, pcm, -, -, other⟩ | ⟨-, other⟩
  · exact zero
  · contradiction
  · contradiction

theorem received_of_chunk {requestId : CString} {pcm : List UInt8} {seq : Int}
    (served : Served reply system (.receive (.chunk requestId pcm seq))) :
    ∃ index, system.received (TtsEvent.chunk requestId pcm seq).requestId = index + 1 ∧
      (reply requestId).chunks[index]? = some pcm := by
  rcases streamEvents_cases served with
    ⟨-, other⟩ | ⟨index, pcm, position, found, same⟩ | ⟨-, other⟩
  · contradiction
  · obtain ⟨-, rfl, -⟩ := TtsEvent.chunk.inj same
    exact ⟨index, position, found⟩
  · contradiction

theorem received_of_finish {requestId : CString} {totalSeq : Int}
    (served : Served reply system (.receive (.finish requestId totalSeq))) :
    system.received (TtsEvent.finish requestId totalSeq).requestId =
      (reply requestId).chunks.length + 1 := by
  rcases streamEvents_cases served with ⟨-, other⟩ | ⟨seq, pcm, -, -, other⟩ | ⟨last, -⟩
  · contradiction
  · contradiction
  · exact last

/-- Nothing of a reply follows its end. -/
theorem received_lt {event : TtsEvent} (served : Served reply system (.receive event)) :
    system.received event.requestId < (reply event.requestId).chunks.length + 2 := by
  rcases streamEvents_cases served with ⟨zero, -⟩ | ⟨seq, pcm, position, found, -⟩ | ⟨last, -⟩
  · omega
  · have inside := (List.getElem?_eq_some_iff.mp found).1
    omega
  · omega

namespace Placed

theorem turnMove {answers : TurnAnswers} (placed : Placed reply system)
    (move : TurnMove answers system next) : Placed reply next := by
  have frame := move.frame
  refine ⟨fun now => ?_, fun now => ?_, ?_, ?_, fun active => ?_, fun active own => ?_⟩
  · rw [frame.request]
    exact placed.nonempty (move.listening now)
  · rw [frame.request, frame.armed]
    exact placed.armed (move.listening now)
  · rw [frame.ws, frame.armed, frame.received]
    exact placed.starting
  · rw [frame.ws, frame.received]
    exact placed.finishing
  · rw [frame.owner, frame.armed]
    exact placed.owner (frame.session active).1
  · rw [frame.owner, frame.request] at own
    rw [frame.ws, frame.received, frame.request]
    exact placed.opened (frame.session active).1 own

/-- An own session rules out that a start is being handled. -/
theorem not_own (placed : Placed reply system) {requestId : CString}
    (start : system.ws.start? = some requestId) (active : system.audio.streamActive = true) :
    system.owner ≠ system.request := by
  intro own
  have free := (placed.opened active own).1
  rw [start] at free
  contradiction

/-- A step of the WS task in the handling of a start. -/
theorem of_start {requestId : CString} {audio : AudioOut.State Sample} {ws : WsPhase}
    (placed : Placed reply system) (start : system.ws.start? = some requestId)
    (later : ∀ id, ws.start? = some id → system.ws.start? = some id)
    (finishing : ws.finishing? = none)
    (active : audio.streamActive = true → system.audio.streamActive = true) :
    Placed reply { system with audio := audio, ws := ws } := by
  refine ⟨placed.nonempty, placed.armed, fun id again => placed.starting id (later id again),
    fun id finish => ?_, fun now => placed.owner (active now),
    fun now own => absurd own (placed.not_own start (active now))⟩
  exact absurd (finishing.symm.trans finish) nofun

/-- A step after which the WS task handles neither a start nor an end. -/
theorem of_handled {audio : AudioOut.State Sample} {ws : WsPhase} {bit : Bool}
    {log : List Record} (placed : Placed reply system) (start : ws.start? = none)
    (finishing : ws.finishing? = none)
    (active : audio.streamActive = system.audio.streamActive) :
    Placed reply { system with audio := audio, ws := ws, ttsEndBit := bit, log := log } := by
  refine ⟨placed.nonempty, placed.armed, fun id starting => ?_, fun id finish => ?_,
    fun now => placed.owner (active ▸ now),
    fun now own => ⟨start, (placed.opened (active ▸ now) own).2⟩⟩
  · exact absurd (start.symm.trans starting) nofun
  · exact absurd (finishing.symm.trans finish) nofun

theorem wsMove {timedOut : Bool} (placed : Placed reply system)
    (move : WsMove timedOut system next) : Placed reply next := by
  cases move with
  | startFound at_ =>
      exact placed.of_start (by rw [at_]; rfl) (by rw [at_]; exact fun _ => id) rfl id
  | startClear at_ =>
      exact placed.of_start (by rw [at_]; rfl) (by rw [at_]; exact fun _ => id) rfl id
  | endNothing at_ =>
      exact placed.of_start (by rw [at_]; rfl) (by rw [at_]; exact fun _ => id) rfl id
  | blocked at_ active draining =>
      exact placed.of_start (by rw [at_]; rfl) (by rw [at_]; exact fun _ => id) rfl id
  | released at_ active idle =>
      exact placed.of_start (by rw [at_]; rfl) (by rw [at_]; exact fun _ => id) rfl nofun
  | returned at_ ret =>
      obtain ⟨rfl, -⟩ := endReturn_cases ret
      exact placed.of_start (by rw [at_]; rfl) (by rw [at_]; exact fun _ => id) rfl nofun
  | @began requestId sampleRate channels rate chans ring at_ inactive =>
      obtain ⟨known, first⟩ := placed.starting requestId (by rw [at_]; rfl)
      refine ⟨placed.nonempty, placed.armed, nofun, nofun, fun _ => known,
        fun _ own => ⟨rfl, ?_⟩⟩
      have same : requestId = system.request := own
      exact Nat.le_of_eq (same ▸ first.symm)
  | beginFailed at_ => exact placed.of_handled rfl rfl rfl
  | chunkFound at_ => exact placed.of_handled rfl rfl rfl
  | chunkDropped at_ inactive => exact placed.of_handled rfl rfl rfl
  | signalled at_ => exact placed.of_handled rfl rfl rfl
  | pushed at_ => exact placed.of_handled rfl rfl (push_same _ _).1

theorem move {label : Label} (placed : Placed reply system) (coherent : Coherent system)
    (served : Served reply system label) (move : Move system label next) :
    Placed reply next := by
  cases move with
  | arm pending idle fresh =>
      refine ⟨fun _ => pending.nonempty, fun _ => List.mem_cons_self, fun id start => ?_,
        placed.finishing, fun active => ?_, fun active own => ?_⟩
      · obtain ⟨known, first⟩ := placed.starting id start
        exact ⟨List.mem_cons_of_mem _ known, first⟩
      · exact List.mem_cons_of_mem _ (placed.owner active)
      · -- The id is new, so no session can have been opened for it.
        have known := placed.owner active
        rw [show system.owner = pending.text from own] at known
        exact absurd known fresh
  | turn move => exact placed.turnMove move
  | dropped event idle unmatched =>
      refine ⟨placed.nonempty, placed.armed, ?_, ?_, placed.owner, fun active own => ?_⟩
      · simp [idle, WsPhase.start?]
      · simp [idle, WsPhase.finishing?]
      · have before := placed.opened active own
        exact ⟨before.1, Nat.le_trans before.2 (le_received ..)⟩
  | gated event idle matched =>
      obtain ⟨listening, same⟩ := coherent.of_matched matched
      have grows := le_received event system.received system.request
      cases event with
      | start requestId sampleRate channels =>
          have first := received_of_start served
          refine ⟨placed.nonempty, placed.armed, fun id start => ?_, nofun, placed.owner,
            fun active own => ?_⟩
          · obtain rfl := Option.some.inj start
            refine ⟨same ▸ placed.armed listening, ?_⟩
            exact (Function.update_self ..).trans (congrArg (· + 1) first)
          · -- The reply has only one start, and it has been handled already.
            have again := (placed.opened active own).2
            rw [← same, first] at again
            contradiction
      | chunk requestId pcm seq =>
          exact ⟨placed.nonempty, placed.armed, nofun, nofun, placed.owner,
            fun active own => ⟨rfl, Nat.le_trans (placed.opened active own).2 grows⟩⟩
      | finish requestId totalSeq =>
          refine ⟨placed.nonempty, placed.armed, nofun, fun id finish => ?_, placed.owner,
            fun active own => ⟨rfl, Nat.le_trans (placed.opened active own).2 grows⟩⟩
          obtain rfl := Option.some.inj finish
          exact (Function.update_self ..).trans (congrArg (· + 1) (received_of_finish served))
  | ws move => exact placed.wsMove move
  | writer found move =>
      cases move <;>
        exact ⟨placed.nonempty, placed.armed, placed.starting, placed.finishing, placed.owner,
          placed.opened⟩

end Placed

theorem WsMove.busy {timedOut : Bool} (move : WsMove timedOut system next) :
    system.ws ≠ .idle := by
  cases move <;> rw [‹system.ws = _›] <;> nofun

/-- An event of a reply whose end has been seen is not one of the current turn's. -/
theorem other_of_complete {event : TtsEvent} (complete : Complete reply system)
    (served : Served reply system (.receive event)) : event.requestId ≠ system.request := by
  intro own
  have more := received_lt served
  rw [own, complete] at more
  omega

namespace Ended

theorem turnMove {answers : TurnAnswers} (ended : Ended reply system)
    (unhindered : Unhindered system (.turn answers)) (move : TurnMove answers system next) :
    Ended reply next := by
  have frame := move.frame
  constructor
  · intro now requestId finishing
    rw [frame.ws] at finishing
    rw [frame.request]
    rcases move.heeding now with before | stored
    · exact ended.heeds before requestId finishing
    · rcases unhindered stored with none | own
      · exact absurd (none.symm.trans finishing) nofun
      · exact Option.some.inj (finishing.symm.trans own)
  · intro now
    rw [Complete, frame.request, frame.received, frame.ws]
    exact ended.done (move.endSeen now)

/-- While an event is being handled, the end has not been seen. -/
theorem unseen (ended : Ended reply system) (busy : system.ws ≠ .idle) :
    system.phase.endSeen system.ttsEndBit = false := by
  by_contra seen
  exact busy (ended.done (by simpa using seen)).2

theorem wsMove {timedOut : Bool} (ended : Ended reply system) (placed : Placed reply system)
    (move : WsMove timedOut system next) : Ended reply next := by
  have unseen := ended.unseen move.busy
  cases move with
  | @signalled requestId totalSeq at_ =>
      refine ⟨nofun, fun now => ⟨?_, rfl⟩⟩
      rw [TurnPhase.endSeen, Bool.or_eq_false_iff] at unseen
      rw [TurnPhase.endSeen, unseen.2, Bool.or_false, Bool.and_eq_true] at now
      have finishing : system.ws.finishing? = some requestId := by rw [at_]; rfl
      have own := ended.heeds now.1 requestId finishing
      subst own
      exact placed.finishing system.request finishing
  | _ => exact ⟨fun _ => nofun, fun now => absurd (unseen.symm.trans now) nofun⟩

theorem move {label : Label} (ended : Ended reply system) (coherent : Coherent system)
    (placed : Placed reply system) (served : Served reply system label)
    (unhindered : Unhindered system label) (move : Move system label next) :
    Ended reply next := by
  cases move with
  | arm pending idle fresh => exact ⟨nofun, nofun⟩
  | turn move => exact ended.turnMove unhindered move
  | dropped event idle unmatched =>
      refine ⟨ended.heeds, fun now => ?_⟩
      obtain ⟨complete, free⟩ := ended.done now
      refine ⟨?_, free⟩
      exact (Function.update_of_ne (other_of_complete complete served).symm _ _).trans complete
  | gated event idle matched =>
      have own := (coherent.of_matched matched).2
      refine ⟨fun _ requestId finishing => ?_, fun now => ?_⟩
      · cases event with
        | finish id totalSeq => exact (Option.some.inj finishing).symm.trans own
        | start id sampleRate channels => contradiction
        | chunk id pcm seq => contradiction
      · exact absurd own (other_of_complete (ended.done now).1 served)
  | ws move => exact ended.wsMove placed move
  | writer found move => exact ⟨ended.heeds, ended.done⟩

end Ended

namespace Conserved

theorem turnMove {answers : TurnAnswers} (conserved : Conserved reply system)
    (move : TurnMove answers system next) : Conserved reply next := by
  have frame := move.frame
  refine ⟨?_, ?_, fun active own tracking => ?_⟩
  · rw [frame.heardBefore, frame.played]
    exact conserved.mark
  · rw [frame.request, frame.received, frame.ws, frame.heard]
    exact conserved.unheard
  · rw [frame.owner, frame.request] at own
    obtain ⟨before, ring⟩ := frame.session active
    rw [frame.heard, ring, frame.ws, frame.request, frame.received]
    exact conserved.conserved before own (move.tracking tracking)

/-- A chunk or an end that passes the gate is one of the current turn's reply. -/
theorem gated {event : TtsEvent} (conserved : Conserved reply system)
    (placed : Placed reply system) (served : Served reply system (.receive event))
    (idle : system.ws = .idle) (own : event.requestId = system.request) :
    Conserved reply { system with
      ws := .gated event
      received := Function.update system.received event.requestId
        (system.received event.requestId + 1)
      log := system.log ++ gateRecord event true } := by
  have counted :
      Function.update system.received event.requestId (system.received event.requestId + 1)
        system.request = system.received system.request + 1 := by
    rw [own, Function.update_self]
  have before := conserved.conserved
  rw [idle] at before
  refine ⟨conserved.mark, ?_, fun active owned tracking => ?_⟩
  · rintro (zero | start)
    · exact absurd (counted.symm.trans zero) (by omega)
    · cases event with
      | start requestId sampleRate channels =>
          have first := received_of_start served
          rw [own] at first
          exact conserved.unheard (Or.inl first)
      | chunk requestId pcm seq => contradiction
      | finish requestId totalSeq => contradiction
  · have whole : system.heard ++ system.audio.ringBytes ++ [] = _ := before active owned tracking
    rw [List.append_nil] at whole
    show system.heard ++ system.audio.ringBytes ++ (WsPhase.gated event).carried =
      tagged system.request (((reply system.request).chunks.take
        (Function.update system.received event.requestId _ system.request - 1)).flatten)
    rw [counted, Nat.add_sub_cancel, whole]
    cases event with
    | start requestId sampleRate channels =>
        have first := received_of_start served
        have opened := (placed.opened active owned).2
        rw [own] at first
        omega
    | chunk requestId pcm seq =>
        obtain ⟨index, position, found⟩ := received_of_chunk served
        obtain rfl : requestId = system.request := own
        rw [show system.received system.request = index + 1 from position, Nat.add_sub_cancel,
          List.take_add_one, found, List.flatten_append, tagged_append]
        simp [WsPhase.carried]
    | finish requestId totalSeq =>
        have last := received_of_finish served
        obtain rfl : requestId = system.request := own
        rw [show system.received system.request = _ from last, Nat.add_sub_cancel,
          List.take_length, List.take_of_length_le (Nat.le_succ _)]
        exact List.append_nil _

/-- What the gate drops while the turn is on the success path is not the turn's. -/
theorem other_of_unmatched {event : TtsEvent} (coherent : Coherent system)
    (placed : Placed reply system) (ended : Ended reply system)
    (served : Served reply system (.receive event))
    (unmatched : matchesExpected system.expectTtsRequestId event.requestId = false)
    (tracking : system.phase.tracking = true) : event.requestId ≠ system.request := by
  intro own
  rw [TurnPhase.tracking, Bool.or_eq_true] at tracking
  rcases tracking with listening | succeeded
  · rw [coherent.expecting, listening, if_pos rfl, own] at unmatched
    simp [matchesExpected, placed.nonempty listening] at unmatched
  · have seen : system.phase.endSeen system.ttsEndBit = true := by
      rw [TurnPhase.endSeen, succeeded, Bool.or_true]
    exact other_of_complete (ended.done seen).1 served own

/-- A step of the WS task in the handling of a start. -/
theorem of_start {requestId : CString} {audio : AudioOut.State Sample} {ws : WsPhase}
    (conserved : Conserved reply system) (placed : Placed reply system)
    (start : system.ws.start? = some requestId)
    (later : ∀ id, ws.start? = some id → system.ws.start? = some id)
    (active : audio.streamActive = true → system.audio.streamActive = true)
    (played : audio.played = system.audio.played) :
    Conserved reply { system with audio := audio, ws := ws } := by
  refine ⟨?_, fun early => ?_, fun now own => ?_⟩
  · rw [played]
    exact conserved.mark
  · rw [System.heard, played]
    apply conserved.unheard
    rcases early with zero | again
    · exact Or.inl zero
    · exact Or.inr (later _ again)
  · exact absurd own (placed.not_own start (active now))

theorem wsMove {alloc : BeginAlloc} {timedOut : Bool} (conserved : Conserved reply system)
    (coherent : Coherent system) (placed : Placed reply system)
    (unhindered : Unhindered system (.ws alloc timedOut)) (move : WsMove timedOut system next) :
    Conserved reply next := by
  cases move with
  | startFound at_ =>
      exact conserved.of_start placed (by rw [at_]; rfl) (by rw [at_]; exact fun _ => id) id rfl
  | startClear at_ =>
      exact conserved.of_start placed (by rw [at_]; rfl) (by rw [at_]; exact fun _ => id) id rfl
  | endNothing at_ =>
      exact conserved.of_start placed (by rw [at_]; rfl) (by rw [at_]; exact fun _ => id) id rfl
  | released at_ active idle =>
      exact conserved.of_start placed (by rw [at_]; rfl) (by rw [at_]; exact fun _ => id)
        nofun rfl
  | blocked at_ active draining =>
      exact conserved.of_start placed (by rw [at_]; rfl) (by rw [at_]; exact fun _ => id) id rfl
  | returned at_ ret =>
      obtain ⟨rfl, -⟩ := endReturn_cases ret
      exact conserved.of_start placed (by rw [at_]; rfl) (by rw [at_]; exact fun _ => id)
        nofun rfl
  | beginFailed at_ => exact conserved.of_start placed (by rw [at_]; rfl) nofun id rfl
  | @began requestId sampleRate channels rate chans ring at_ inactive =>
      have first := (placed.starting requestId (by rw [at_]; rfl)).2
      refine ⟨conserved.mark, ?_, fun _ own _ => ?_⟩
      · rintro (zero | start)
        · exact conserved.unheard (Or.inl zero)
        · contradiction
      · obtain rfl : requestId = system.request := own
        have silence : system.heard = [] := conserved.unheard (Or.inr (by rw [at_]; rfl))
        show system.heard ++ [] ++ [] = tagged system.request
          ((reply system.request).chunks.take (system.received system.request - 1)).flatten
        rw [silence, first]
        rfl
  | chunkFound at_ =>
      have whole := conserved.conserved
      rw [at_] at whole
      exact ⟨conserved.mark, fun early => conserved.unheard (early.imp_right nofun), whole⟩
  | chunkDropped at_ inactive =>
      refine ⟨conserved.mark, fun early => conserved.unheard (early.imp_right nofun), ?_⟩
      exact fun active => absurd (inactive.symm.trans active) nofun
  | signalled at_ =>
      have whole := conserved.conserved
      rw [at_] at whole
      exact ⟨conserved.mark, fun early => conserved.unheard (early.imp_right nofun), whole⟩
  | @pushed requestId pcm at_ =>
      have whole := conserved.conserved
      rw [at_] at whole
      have same := push_same (tagged requestId pcm) system.audio
      refine ⟨?_, fun early => ?_, fun active own tracking => ?_⟩
      · rw [same.2]
        exact conserved.mark
      · rw [System.heard, same.2]
        exact conserved.unheard (early.imp_right nofun)
      · rw [same.1] at active
        obtain ⟨buffer, ring⟩ := Option.isSome_iff_exists.mp (coherent.shape.opened active).1
        have room : (tagged requestId pcm).length ≤ buffer.fifo.free := by
          rw [Unhindered, Roomy, at_, ring] at unhindered
          rw [tagged, List.length_map]
          exact unhindered
        rw [ringBytes_push active ring room, System.heard, same.2]
        show system.heard ++ (system.audio.ringBytes ++ tagged requestId pcm) ++ [] = _
        rw [List.append_nil, ← List.append_assoc]
        exact whole active own tracking

theorem writerMove {index : Nat} {allocated : Bool} {writer : Writer}
    {audio : AudioOut.State Sample} (conserved : Conserved reply system)
    (coherent : Coherent system) (writing : Writing system) (placed : Placed reply system)
    (found : system.audio.writers[index]? = some writer)
    (move : WriterMove system.audio index allocated writer audio) :
    Conserved reply { system with audio := audio } := by
  have draining := (writing.owned.writer writer (List.mem_of_getElem? found)).1
  obtain ⟨active, opened⟩ := coherent.shape.draining draining
  have own := writing.own draining
  obtain ⟨free, started⟩ := placed.opened active own
  obtain ⟨got, played, ring⟩ := move.plays opened
  have heard : System.heard { system with audio := audio } = system.heard ++ got := by
    rw [System.heard, played, List.drop_append_of_le_length conserved.mark]
    rfl
  refine ⟨?_, fun early => ?_, fun _ _ tracking => ?_⟩
  · rw [played, List.length_append]
    exact Nat.le_add_right_of_le conserved.mark
  · -- A reply that is being played has begun, and its start has been handled.
    rcases early with zero | start
    · have before : system.received system.request = 0 := zero
      omega
    · exact absurd (free.symm.trans start) nofun
  · have whole := conserved.conserved active own tracking
    rw [ring] at whole
    rw [heard, List.append_assoc, List.append_assoc, ← List.append_assoc got]
    rw [List.append_assoc] at whole
    exact whole

theorem move {label : Label} (conserved : Conserved reply system) (coherent : Coherent system)
    (writing : Writing system) (placed : Placed reply system)
    (ended : Ended reply system) (served : Served reply system label)
    (unhindered : Unhindered system label) (move : Move system label next) :
    Conserved reply next := by
  cases move with
  | arm pending idle fresh =>
      refine ⟨Nat.le_refl _, fun _ => List.drop_length, fun active own => ?_⟩
      have known := placed.owner active
      rw [show system.owner = pending.text from own] at known
      exact absurd known fresh
  | turn move => exact conserved.turnMove move
  | dropped event idle unmatched =>
      refine ⟨conserved.mark, fun early => conserved.unheard ?_, fun active own tracking => ?_⟩
      · rcases early with zero | start
        · exact Or.inl (Nat.le_zero.mp (zero ▸ le_received ..))
        · exact Or.inr start
      · have other := other_of_unmatched coherent placed ended served unmatched tracking
        have whole := conserved.conserved active own tracking
        have counted := Function.update_of_ne other.symm
          (system.received event.requestId + 1) system.received
        show system.heard ++ system.audio.ringBytes ++ system.ws.carried =
          tagged system.request (((reply system.request).chunks.take
            (Function.update system.received event.requestId _ system.request - 1)).flatten)
        rw [counted]
        exact whole
  | gated event idle matched =>
      exact conserved.gated placed served idle (coherent.of_matched matched).2
  | ws move => exact conserved.wsMove coherent placed unhindered move
  | writer found move => exact conserved.writerMove coherent writing placed found move

end Conserved

theorem AfterEnd.next_eq_streamed {after : AfterEnd} (streamed : after.next = .streamed) :
    after = .streamed := by
  cases after with
  | streamed => rfl
  | wait => contradiction
  | leave exit => cases exit <;> contradiction

/-- The success branch is reached through the end of the stream only. -/
theorem Control.of_streamed {active : Bool} {phase next : TurnPhase}
    (goes : Control active phase next) (streamed : next = .streamed) :
    phase = .ending .streamed ∧ active = false := by
  cases goes with
  | @clean exit _ => cases exit <;> contradiction
  | @nothing after inactive => exact ⟨by rw [AfterEnd.next_eq_streamed streamed], inactive⟩
  | _ => contradiction

theorem PlayPhase.next_ne_streamed {phase next : TurnPhase} (goes : PlayPhase phase next) :
    next ≠ .streamed := by
  cases goes <;> nofun

theorem TurnPhase.ne_endWaiting {phase : TurnPhase} (resting : phase.isEndWaiting = false)
    {after : AfterEnd} {semaphore : Option Nat} : phase ≠ .endWaiting after semaphore := by
  rintro rfl
  contradiction

namespace Drained

/-- The last wait of a successful turn ends with nothing left in the ring, so all of the
reply has been heard. -/
theorem heard_of_endWaiting {semaphore : Option Nat} (drained : Drained reply system)
    (writing : Writing system) (conserved : Conserved reply system) (ended : Ended reply system)
    (at_ : system.phase = .endWaiting .streamed semaphore) (gone : system.audio.writers = []) :
    system.heard = tagged system.request (reply system.request).chunks.flatten := by
  obtain ⟨active, draining⟩ := writing.activated (by rw [at_]; rfl)
  obtain ⟨complete, idle⟩ := ended.done (by rw [at_]; rfl)
  have whole := conserved.conserved active (writing.own draining) (by rw [at_]; rfl)
  have all : (reply system.request).chunks.length ≤ system.received system.request - 1 := by
    rw [complete]
    omega
  rw [drained.drained semaphore at_ gone, idle, List.append_nil, List.take_of_length_le all]
    at whole
  exact (List.append_nil _).symm.trans whole

theorem turnMove {answers : TurnAnswers} (drained : Drained reply system)
    (writing : Writing system) (conserved : Conserved reply system) (ended : Ended reply system)
    (attended : Attended system (.turn answers)) (move : TurnMove answers system next) :
    Drained reply next := by
  have frame := move.frame
  cases move with
  | control goes =>
      refine ⟨fun semaphore now => ?_, fun now => ?_⟩
      · exact absurd now (TurnPhase.ne_endWaiting goes.next_resting.1)
      · obtain ⟨at_, inactive⟩ := goes.of_streamed now
        have active := (writing.activated (by rw [at_]; rfl)).1
        exact absurd (inactive.symm.trans active) nofun
  | play closes goes =>
      exact ⟨fun _ now => absurd now (TurnPhase.ne_endWaiting goes.next_resting.1),
        fun now => absurd now goes.next_ne_streamed⟩
  | @activated late at_ active idle => cases late <;> exact ⟨nofun, nofun⟩
  | @activateFailed late audio at_ closes idle => cases late <;> exact ⟨nofun, nofun⟩
  | @forgot ended activated at_ => cases ended <;> cases activated <;> exact ⟨nofun, nofun⟩
  | @released after at_ active idle =>
      refine ⟨fun _ _ _ => rfl, fun now => ?_⟩
      rw [AfterEnd.next_eq_streamed now] at at_
      have draining := (writing.activated (by rw [at_]; rfl)).2
      exact absurd (idle.symm.trans draining) nofun
  | @blocked after at_ active draining =>
      refine ⟨fun _ _ gone => ?_, nofun⟩
      exact absurd gone (writing.live draining (by rw [at_]; rfl))
  | @returned after semaphore audio at_ ret =>
      refine ⟨fun _ now => absurd now (TurnPhase.ne_endWaiting after.next_resting.1),
        fun now => ?_⟩
      have gone := (writing.owned.audioOutStreamEndReturn (attended.2 (by rw [at_]; rfl)) ret).1
      rw [AfterEnd.next_eq_streamed now] at at_
      rw [frame.heard]
      exact drained.heard_of_endWaiting writing conserved ended at_ gone
  | _ => exact ⟨nofun, nofun⟩

theorem wsMove {timedOut : Bool} (drained : Drained reply system) (ended : Ended reply system)
    (move : WsMove timedOut system next) : Drained reply next := by
  have unseen := ended.unseen move.busy
  have notWaiting : ∀ semaphore, system.phase ≠ .endWaiting .streamed semaphore := by
    intro semaphore at_
    rw [at_] at unseen
    contradiction
  cases move with
  | returned at_ ret =>
      obtain ⟨rfl, -⟩ := endReturn_cases ret
      exact ⟨fun _ now => absurd now (notWaiting _), drained.delivered⟩
  | @pushed requestId pcm at_ =>
      refine ⟨fun _ now => absurd now (notWaiting _), fun now => ?_⟩
      rw [System.heard, (push_same (tagged requestId pcm) system.audio).2]
      exact drained.delivered now
  | _ => exact ⟨fun _ now => absurd now (notWaiting _), drained.delivered⟩

theorem writerMove {index : Nat} {allocated : Bool} {writer : Writer}
    {audio : AudioOut.State Sample} (coherent : Coherent system) (writing : Writing system)
    (attended : Attended system (.writer index allocated))
    (found : system.audio.writers[index]? = some writer)
    (move : WriterMove system.audio index allocated writer audio) :
    Drained reply { system with audio := audio } := by
  have member := List.mem_of_getElem? found
  have draining := (writing.owned.writer writer member).1
  constructor
  · intro semaphore now gone
    cases move with
    | phase phase underruns =>
        have none := congrArg List.length gone
        rw [List.length_set, List.length_nil] at none
        exact absurd member (by rw [List.eq_nil_of_length_eq_zero none]; exact List.not_mem_nil)
    | receive buffer ring =>
        rw [show system.audio.writers = [] from gone] at member
        contradiction
    | exit drain semaphore reason =>
        rcases reason with unallocated | ⟨-, empty⟩
        · exact absurd (unallocated.symm.trans attended) nofun
        · exact empty
  · intro now
    have still := coherent.silent (by rw [show system.phase = .streamed from now]; rfl)
    exact absurd (still.symm.trans draining) nofun

theorem move {label : Label} (drained : Drained reply system) (coherent : Coherent system)
    (writing : Writing system) (conserved : Conserved reply system) (ended : Ended reply system)
    (attended : Attended system label) (move : Move system label next) :
    Drained reply next := by
  cases move with
  | arm pending idle fresh => exact ⟨nofun, nofun⟩
  | turn move => exact drained.turnMove writing conserved ended attended move
  | dropped event idle unmatched => exact ⟨drained.drained, drained.delivered⟩
  | gated event idle matched => exact ⟨drained.drained, drained.delivered⟩
  | ws move => exact drained.wsMove ended move
  | writer found move => exact writerMove coherent writing attended found move

end Drained

theorem delivering_boot : Delivering reply System.boot where
  coherent := ⟨sessionShape_boot, fun _ => rfl, rfl⟩
  writing := ⟨writerOwned_boot, nofun, nofun, nofun, nofun, rfl⟩
  placed := ⟨nofun, nofun, nofun, nofun, nofun, nofun⟩
  conserved := ⟨Nat.le_refl _, fun _ => rfl, nofun⟩
  ended := ⟨nofun, nofun⟩
  drained := ⟨nofun, nofun⟩

theorem Delivering.move {label : Label} (delivering : Delivering reply system)
    (served : Served reply system label) (intact : Intact system label)
    (move : Move system label next) : Delivering reply next := by
  obtain ⟨coherent, writing, placed, conserved, ended, drained⟩ := delivering
  obtain ⟨attended, unhindered⟩ := intact
  exact
    { coherent := coherent.move move
      writing := writing.move coherent placed.opened attended move
      placed := placed.move coherent served move
      conserved := conserved.move coherent writing placed ended served unhindered move
      ended := ended.move coherent placed served unhindered move
      drained := drained.move coherent writing conserved ended attended move }

/-- When the server sends each reply in order and no step goes wrong, a turn that takes the
success branch has played its whole reply, in order, and nothing else. -/
theorem heard_of_intact {ringKb : Nat} {labels : List Label} {final : System}
    (ran : (machine ringKb).run labels = some final)
    (served : (machine ringKb).Along (Served reply) (machine ringKb).init labels)
    (intact : (machine ringKb).Along Intact (machine ringKb).init labels)
    (streamed : final.phase = .streamed) :
    final.heard = tagged final.request (reply final.request).chunks.flatten := by
  have kept := @Machine.invariant_along _ _ (machine ringKb)
    (fun system label => Served reply system label ∧ Intact system label)
    (Delivering reply) delivering_boot
    (fun system label next kept right stepped =>
      kept.move right.1 right.2 (systemStep_move kept.coherent.shape stepped))
    _ _ (served.and intact) ran
  exact kept.drained.delivered streamed

/-- The reply is one chunk. -/
def oneChunk (pcm : List UInt8) : CString → Reply := fun _ => ⟨16000, [pcm]⟩

/-- A turn whose one chunk arrives during the ack. -/
def oneChunkRun (pcm : List UInt8) : List Label :=
  [.arm firstTurn, turnGoes] ++ handle (.start firstTurn.text 16000 1) 2 ++
    handle (.chunk firstTurn.text pcm 0) 2 ++
    [turnGoes, turnGoes, turnGoes, .writer 0 true, .writer 0 true] ++
    handle (.finish firstTurn.text 1) 1 ++
    [turnGoes, turnGoes, turnGoes, .writer 0 true, .writer 0 true, turnGoes]

theorem heard_of_oneChunkRun :
    ∃ final, (machine 128).run (oneChunkRun [7, 9]) = some final ∧
      final.heard = tagged firstTurn.text [7, 9] :=
  ⟨_, rfl,
    @heard_of_intact (oneChunk [7, 9]) 128 (oneChunkRun [7, 9]) _ rfl (by decide) (by decide) rfl⟩

/-- Of a chunk larger than the ring, only what fits is heard. -/
theorem heard_not_of_oversizedRun :
    ¬ ∀ (reply : CString → Reply) (ringKb : Nat) (labels : List Label) (final : System),
      (machine ringKb).run labels = some final →
      (machine ringKb).Along (Served reply) (machine ringKb).init labels →
      final.phase = .streamed →
      final.heard = tagged final.request (reply final.request).chunks.flatten := by
  intro always
  have outcome : ((machine 1).run (oneChunkRun (List.replicate 1280 0))).map
      (fun final => (final.phase, final.heard.length)) = some (.streamed, 1023) := by
    decide +kernel
  obtain ⟨final, ran, read⟩ := Option.map_eq_some_iff.mp outcome
  obtain ⟨streamed, heard⟩ := Prod.mk.inj read
  have whole := congrArg List.length (always (oneChunk (List.replicate 1280 0)) 1
    (oneChunkRun (List.replicate 1280 0)) final ran (by decide +kernel) streamed)
  rw [heard, tagged, List.length_map, oneChunk, List.flatten_singleton, List.length_replicate]
    at whole
  omega
end WallUnit.Firmware.TwoPhase
