import WallUnit.Firmware.TwoPhase.System

/-!
Owns what one step of the two-phase machine can do: a constructor for each shape of
step, with what is known before it and the state after it. Every invariant is proved
from these and none unfolds a step.
-/

namespace WallUnit.Firmware.TwoPhase

open WallUnit.Foundations
open WallUnit.Firmware.AudioOut
open WallUnit.Firmware.WsClient

/-- A playback or a failed activation may leave I2S closed, and nothing else. -/
def ClosesI2s (audio next : AudioOut.State Sample) : Prop :=
  next = audio ∨ ∃ handle, next = { audio with txChan := none, nextHandle := handle }

theorem playWav_closes (parsed : EspErr) (i2s : I2sOutcome) (audio : AudioOut.State Sample) :
    ClosesI2s audio (playWav parsed i2s audio).2 := by
  unfold playWav
  by_cases failed : parsed ≠ .ok
  · rw [if_pos failed]
    exact Or.inl rfl
  · rw [if_neg failed]
    cases i2s with
    | noChannel => exact Or.inl rfl
    | notConfigured => exact Or.inr ⟨audio.nextHandle, rfl⟩
    | opened => exact Or.inr ⟨audio.nextHandle + 1, rfl⟩

theorem playOrBeep_closes (parsed : EspErr) (i2s : I2sOutcome) (audio : AudioOut.State Sample) :
    ClosesI2s audio (playOrBeep parsed i2s audio).2 := by
  have closes := playWav_closes parsed i2s audio
  unfold playOrBeep
  by_cases played : (playWav parsed i2s audio).1 = .ok
  · rw [if_pos played]
    exact closes
  · rw [if_neg played]
    rcases closes with same | ⟨handle, closed⟩
    · rw [same]
      exact Or.inr ⟨audio.nextHandle, rfl⟩
    · rw [closed]
      exact Or.inr ⟨handle, rfl⟩

/-- The three ways `audio_out_stream_end` can go at its call. -/
inductive EndMove (audio : AudioOut.State Sample) : EndCall Sample → Prop
  | inactive : audio.streamActive = false → EndMove audio (.returned .invalidState audio)
  | released : audio.streamActive = true → audio.streamDraining = false →
      EndMove audio (.returned .ok (releaseStream { audio with streamStopRequest := true }))
  | blocked : audio.streamActive = true → audio.streamDraining = true →
      EndMove audio (.blocked (audio.drainDone.map DrainSemaphore.handle)
        { audio with streamStopRequest := true })

theorem audioOutStreamEnd_move (audio : AudioOut.State Sample) :
    EndMove audio (audioOutStreamEnd audio) := by
  unfold audioOutStreamEnd
  by_cases active : audio.streamActive = true
  · by_cases draining : audio.streamDraining = true
    · simpa [active, draining] using EndMove.blocked active draining
    · have idle : audio.streamDraining = false := by simpa using draining
      simpa [active, idle] using EndMove.released active idle
  · have inactive : audio.streamActive = false := by simpa using active
    simpa [inactive] using EndMove.inactive inactive

/-- The phases a turn goes through without touching anything else, given whether a
session is active. -/
inductive Control (active : Bool) : TurnPhase → TurnPhase → Prop
  | found {late : Bool} : active = true → Control active (.checking late) (.activating late)
  | notYet : active = false → Control active (.checking false) (.waiting false)
  | never : active = false → Control active (.checking true) (.disarming .fellBack)
  | leftOpen {exit : Exit} : active = true →
      Control active (.cleaning exit) (.ending (.leave exit))
  | clean {exit : Exit} : active = false → Control active (.cleaning exit) exit.next
  | nothing {after : AfterEnd} : active = false → Control active (.ending after) after.next
  | finished : Control active .streamed .idle

/-- The phases around a playback. -/
inductive PlayPhase : TurnPhase → TurnPhase → Prop
  | single : PlayPhase .idle .idle
  | acked : PlayPhase .acking (.checking false)
  | failed : PlayPhase .acking (.disarming .ackFailed)
  | fetched : PlayPhase .fetching .idle

inductive TurnMove (answers : TurnAnswers) (system : System) : System → Prop
  | control {phase : TurnPhase} (goes : Control system.audio.streamActive system.phase phase) :
      TurnMove answers system { system with phase := phase }
  | play {audio : AudioOut.State Sample} {phase : TurnPhase} (closes : ClosesI2s system.audio audio)
      (goes : PlayPhase system.phase phase) :
      TurnMove answers system { system with audio := audio, phase := phase }
  | cleared (at_ : system.phase = .stored) :
      TurnMove answers system { system with
        ttsEndBit := false
        phase := .acking
        log := system.log ++ [.cleared system.request] }
  | activated {late : Bool} (at_ : system.phase = .activating late)
      (active : system.audio.streamActive = true) (idle : system.audio.streamDraining = false) :
      TurnMove answers system { system with
        audio := startWriter system.audio
        phase := afterActivate true late }
  | activateFailed {late : Bool} {audio : AudioOut.State Sample}
      (at_ : system.phase = .activating late) (closes : ClosesI2s system.audio audio)
      (idle : audio = system.audio ∨ system.audio.streamDraining = false) :
      TurnMove answers system { system with
        audio := audio
        phase := afterActivate false late }
  | waited {activated : Bool} (at_ : system.phase = .waiting activated) :
      TurnMove answers system { system with
        ttsEndBit := false
        phase := .tested system.ttsEndBit activated
        log := system.log ++ [.tested system.request system.ttsEndBit] }
  | forgot {ended activated : Bool} (at_ : system.phase = .tested ended activated) :
      TurnMove answers system { system with
        expectTtsRequestId := []
        phase :=
          if ended then if activated then .ending .streamed else .checking true
          else .disarming .fellBack }
  | disarmed {exit : Exit} (at_ : system.phase = .disarming exit) :
      TurnMove answers system { system with expectTtsRequestId := [], phase := .disarmed exit }
  | disarmCleared {exit : Exit} (at_ : system.phase = .disarmed exit) :
      TurnMove answers system { system with ttsEndBit := false, phase := .cleaning exit }
  | released {after : AfterEnd} (at_ : system.phase = .ending after)
      (active : system.audio.streamActive = true) (idle : system.audio.streamDraining = false) :
      TurnMove answers system { system with
        audio := releaseStream { system.audio with streamStopRequest := true }
        phase := after.next }
  | blocked {after : AfterEnd} (at_ : system.phase = .ending after)
      (active : system.audio.streamActive = true) (draining : system.audio.streamDraining = true) :
      TurnMove answers system { system with
        audio := { system.audio with streamStopRequest := true }
        phase := .endWaiting after (system.audio.drainDone.map DrainSemaphore.handle) }
  | returned {after : AfterEnd} {semaphore : Option Nat} {audio : AudioOut.State Sample}
      (at_ : system.phase = .endWaiting after semaphore)
      (ret : audioOutStreamEndReturn semaphore answers.timedOut system.audio = some audio) :
      TurnMove answers system { system with audio := audio, phase := after.next }

inductive WsMove (timedOut : Bool) (system : System) : System → Prop
  | startFound {requestId : CString} {sampleRate channels : Int}
      (at_ : system.ws = .gated (.start requestId sampleRate channels)) :
      WsMove timedOut system { system with ws := .ending requestId sampleRate channels }
  | startClear {requestId : CString} {sampleRate channels : Int}
      (at_ : system.ws = .gated (.start requestId sampleRate channels)) :
      WsMove timedOut system { system with ws := .beginning requestId sampleRate channels }
  | chunkFound {requestId : CString} {pcm : List UInt8} {seq : Int}
      (at_ : system.ws = .gated (.chunk requestId pcm seq)) :
      WsMove timedOut system { system with ws := .pushing requestId pcm }
  | chunkDropped {requestId : CString} {pcm : List UInt8} {seq : Int}
      (at_ : system.ws = .gated (.chunk requestId pcm seq))
      (inactive : system.audio.streamActive = false) :
      WsMove timedOut system { system with ws := .idle }
  | signalled {requestId : CString} {totalSeq : Int}
      (at_ : system.ws = .gated (.finish requestId totalSeq)) :
      WsMove timedOut system { system with
        ws := .idle
        ttsEndBit := true
        log := system.log ++ [.signalled requestId] }
  | endNothing {requestId : CString} {sampleRate channels : Int}
      (at_ : system.ws = .ending requestId sampleRate channels) :
      WsMove timedOut system { system with ws := .beginning requestId sampleRate channels }
  | released {requestId : CString} {sampleRate channels : Int}
      (at_ : system.ws = .ending requestId sampleRate channels)
      (active : system.audio.streamActive = true) (idle : system.audio.streamDraining = false) :
      WsMove timedOut system { system with
        audio := releaseStream { system.audio with streamStopRequest := true }
        ws := .beginning requestId sampleRate channels }
  | blocked {requestId : CString} {sampleRate channels : Int}
      (at_ : system.ws = .ending requestId sampleRate channels)
      (active : system.audio.streamActive = true) (draining : system.audio.streamDraining = true) :
      WsMove timedOut system { system with
        audio := { system.audio with streamStopRequest := true }
        ws := .endWaiting requestId sampleRate channels
          (system.audio.drainDone.map DrainSemaphore.handle) }
  | returned {requestId : CString} {sampleRate channels : Int} {semaphore : Option Nat}
      {audio : AudioOut.State Sample}
      (at_ : system.ws = .endWaiting requestId sampleRate channels semaphore)
      (ret : audioOutStreamEndReturn semaphore timedOut system.audio = some audio) :
      WsMove timedOut system { system with
        audio := audio
        ws := .beginning requestId sampleRate channels }
  | began {requestId : CString} {sampleRate channels : Int} (rate chans ring : Nat)
      (at_ : system.ws = .beginning requestId sampleRate channels)
      (inactive : system.audio.streamActive = false) :
      WsMove timedOut system { system with
        audio := openSession rate 16 chans ring system.audio
        ws := .idle
        owner := requestId }
  | beginFailed {requestId : CString} {sampleRate channels : Int}
      (at_ : system.ws = .beginning requestId sampleRate channels) :
      WsMove timedOut system { system with ws := .idle }
  | pushed {requestId : CString} {pcm : List UInt8}
      (at_ : system.ws = .pushing requestId pcm) :
      WsMove timedOut system { system with
        audio := (audioOutStreamPush (tagged requestId pcm) system.audio).2
        ws := .idle }

/-- One step of the machine. -/
inductive Move (system : System) : Label → System → Prop
  | arm (pending : PendingId) (idle : system.phase = .idle)
      (fresh : pending.text ∉ system.armed) :
      Move system (.arm pending) { system with
        expectTtsRequestId := pending.text
        phase := .stored
        request := pending.text
        armed := pending.text :: system.armed
        heardBefore := system.audio.played.length
        log := system.log ++ [.stored pending.text] }
  | turn {answers : TurnAnswers} {next : System} (move : TurnMove answers system next) :
      Move system (.turn answers) next
  | dropped (event : TtsEvent) (idle : system.ws = .idle)
      (unmatched : matchesExpected system.expectTtsRequestId event.requestId = false) :
      Move system (.receive event) { system with
        received := Function.update system.received event.requestId
          (system.received event.requestId + 1) }
  | gated (event : TtsEvent) (idle : system.ws = .idle)
      (matched : matchesExpected system.expectTtsRequestId event.requestId = true) :
      Move system (.receive event) { system with
        ws := .gated event
        received := Function.update system.received event.requestId
          (system.received event.requestId + 1)
        log := system.log ++ gateRecord event true }
  | ws {alloc : BeginAlloc} {timedOut : Bool} {next : System}
      (move : WsMove timedOut system next) : Move system (.ws alloc timedOut) next
  | writer {index : Nat} {allocated : Bool} {writer : Writer} {audio : AudioOut.State Sample}
      (found : system.audio.writers[index]? = some writer)
      (move : WriterMove system.audio index allocated writer audio) :
      Move system (.writer index allocated) { system with audio := audio }

theorem turnStep_move {answers : TurnAnswers} {system next : System}
    (stepped : turnStep answers system = some next) : TurnMove answers system next := by
  unfold turnStep at stepped
  cases at_ : system.phase with
  | idle =>
      simp only [at_] at stepped
      obtain rfl := Option.some.inj stepped
      rw [← at_]
      exact .play (playOrBeep_closes ..) (at_ ▸ .single)
  | stored =>
      simp only [at_] at stepped
      obtain rfl := Option.some.inj stepped
      exact .cleared at_
  | acking =>
      simp only [at_] at stepped
      obtain rfl := Option.some.inj stepped
      split
      · exact .play (playOrBeep_closes ..) (at_ ▸ .acked)
      · exact .play (playOrBeep_closes ..) (at_ ▸ .failed)
  | checking late =>
      simp only [at_] at stepped
      obtain rfl := Option.some.inj stepped
      split_ifs with active after
      · exact .control (at_ ▸ .found active)
      · subst after
        exact .control (at_ ▸ .never (by simpa using active))
      · obtain rfl : late = false := by simpa using after
        exact .control (at_ ▸ .notYet (by simpa using active))
  | activating late =>
      simp only [at_] at stepped
      obtain rfl := Option.some.inj stepped
      rcases activate_cases answers.i2s answers.taskCreated system.audio with
        ⟨failed, same | ⟨idle, handle, closed⟩⟩ | ⟨active, idle, started⟩
      · rw [same, decide_eq_false failed]
        exact .activateFailed at_ (Or.inl rfl) (Or.inl rfl)
      · rw [closed, decide_eq_false failed]
        exact .activateFailed at_ (Or.inr ⟨handle, rfl⟩) (Or.inr idle)
      · rw [started]
        exact .activated at_ active idle
  | waiting activated =>
      simp only [at_] at stepped
      obtain rfl := Option.some.inj stepped
      exact .waited at_
  | tested ended activated =>
      simp only [at_] at stepped
      obtain rfl := Option.some.inj stepped
      exact .forgot at_
  | ending after =>
      simp only [at_] at stepped
      have move := audioOutStreamEnd_move system.audio
      cases called : audioOutStreamEnd system.audio with
      | returned err audio =>
          simp only [called] at stepped
          rw [called] at move
          obtain rfl := Option.some.inj stepped
          cases move with
          | inactive inactive => exact .control (at_ ▸ .nothing inactive)
          | released active idle => exact .released at_ active idle
      | blocked semaphore audio =>
          simp only [called] at stepped
          rw [called] at move
          obtain rfl := Option.some.inj stepped
          cases move with
          | blocked active draining => exact .blocked at_ active draining
  | endWaiting after semaphore =>
      simp only [at_] at stepped
      obtain ⟨audio, ret, rfl⟩ := Option.map_eq_some_iff.mp stepped
      exact .returned at_ ret
  | disarming exit =>
      simp only [at_] at stepped
      obtain rfl := Option.some.inj stepped
      exact .disarmed at_
  | disarmed exit =>
      simp only [at_] at stepped
      obtain rfl := Option.some.inj stepped
      exact .disarmCleared at_
  | cleaning exit =>
      simp only [at_] at stepped
      obtain rfl := Option.some.inj stepped
      split_ifs with active
      · exact .control (at_ ▸ .leftOpen active)
      · exact .control (at_ ▸ .clean (by simpa using active))
  | streamed =>
      simp only [at_] at stepped
      obtain rfl := Option.some.inj stepped
      exact .control (at_ ▸ .finished)
  | fetching =>
      simp only [at_] at stepped
      obtain rfl := Option.some.inj stepped
      exact .play (playOrBeep_closes ..) (at_ ▸ .fetched)

theorem wsStep_move {ringKb : Nat} {alloc : BeginAlloc} {timedOut : Bool} {system next : System}
    (shape : SessionShape system.audio)
    (stepped : wsStep ringKb alloc timedOut system = some next) : WsMove timedOut system next := by
  unfold wsStep at stepped
  cases at_ : system.ws with
  | idle =>
      simp only [at_] at stepped
      contradiction
  | gated event =>
      cases event with
      | start requestId sampleRate channels =>
          simp only [at_] at stepped
          obtain rfl := Option.some.inj stepped
          split_ifs
          · exact .startFound at_
          · exact .startClear at_
      | chunk requestId pcm seq =>
          simp only [at_] at stepped
          obtain rfl := Option.some.inj stepped
          split_ifs with active
          · exact .chunkFound at_
          · exact .chunkDropped at_ (by simpa using active)
      | finish requestId totalSeq =>
          simp only [at_] at stepped
          obtain rfl := Option.some.inj stepped
          exact .signalled at_
  | ending requestId sampleRate channels =>
      simp only [at_] at stepped
      have move := audioOutStreamEnd_move system.audio
      cases called : audioOutStreamEnd system.audio with
      | returned err audio =>
          simp only [called] at stepped
          rw [called] at move
          obtain rfl := Option.some.inj stepped
          cases move with
          | inactive inactive => exact .endNothing at_
          | released active idle => exact .released at_ active idle
      | blocked semaphore audio =>
          simp only [called] at stepped
          rw [called] at move
          obtain rfl := Option.some.inj stepped
          cases move with
          | blocked active draining => exact .blocked at_ active draining
  | endWaiting requestId sampleRate channels semaphore =>
      simp only [at_] at stepped
      obtain ⟨audio, ret, rfl⟩ := Option.map_eq_some_iff.mp stepped
      exact .returned at_ ret
  | beginning requestId sampleRate channels =>
      simp only [at_] at stepped
      obtain rfl := Option.some.inj stepped
      rcases shape.begin_cases alloc (sampleRate % 4294967296).toNat 16 (channels % 256).toNat
        (ringKb * 1024) with ⟨err, failed, same⟩ | ⟨inactive, opened⟩
      · rw [same, if_neg failed]
        exact .beginFailed at_
      · rw [opened, if_pos rfl]
        exact .began _ _ _ at_ inactive
  | pushing requestId pcm =>
      simp only [at_] at stepped
      obtain rfl := Option.some.inj stepped
      exact .pushed at_

/-- What one step can do, given that the session variables are in shape. -/
theorem systemStep_move {ringKb : Nat} {system next : System} {label : Label}
    (shape : SessionShape system.audio)
    (stepped : systemStep ringKb system label = some next) : Move system label next := by
  cases label with
  | arm pending =>
      simp only [systemStep, arm] at stepped
      split_ifs at stepped with ready
      obtain rfl := Option.some.inj stepped
      rw [strncpyTerminated_of_fits pending.short]
      exact .arm pending ready.1 fun known => ready.2 pending.text known rfl
  | turn answers => exact .turn (turnStep_move stepped)
  | receive event =>
      by_cases idle : system.ws = .idle
      · cases matched : matchesExpected system.expectTtsRequestId event.requestId with
        | false =>
            have dropped := Move.dropped event idle matched
            simp only [systemStep, receiveEvent, idle, matched, if_true, Bool.false_eq_true,
              if_false] at stepped
            obtain rfl := Option.some.inj stepped
            have silent : gateRecord event false = [] := by cases event <;> rfl
            rwa [silent, List.append_nil, ← idle]
        | true =>
            simp only [systemStep, receiveEvent, idle, matched, if_true] at stepped
            obtain rfl := Option.some.inj stepped
            exact .gated event idle matched
      · rw [systemStep, receiveEvent, if_neg idle] at stepped
        contradiction
  | ws alloc timedOut => exact .ws (wsStep_move shape stepped)
  | writer index allocated =>
      obtain ⟨audio, moved, rfl⟩ := Option.map_eq_some_iff.mp stepped
      obtain ⟨writer, found, move⟩ := writerStep_cases moved
      exact .writer found move

end WallUnit.Firmware.TwoPhase
