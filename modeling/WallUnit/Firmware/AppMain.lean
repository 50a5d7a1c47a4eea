import WallUnit.Firmware.VoiceTurn.Execute
import WallUnit.Foundations.Regex

/-!
Owns the loop of `app_main` around whole turns: wake-ups, turns and follow-ups in chains of any
length, and what the server and the household see of it. `turn_shows` gives the order of the
state frames of a turn, and `appMain_rests` says that whenever the unit waits for its wake word
everything a turn took is given back, but for the mutex of the stream handler.

Does not own the wake-word task, whose interleaving with this loop `WakeWord.Pause` cuts finer,
nor whether a follow-up is heard.
-/

namespace WallUnit.Firmware.AppMain

open RegularExpression
open WallUnit.Foundations
open WallUnit.Foundations.Regex
open WallUnit.Firmware.VoiceTurn
open WallUnit.Firmware.HttpClient (httpPostVoiceTurn httpGetVoiceResult)

/-! ### State frames -/

/-- The frames `ws_client_send_state` sends, with their turn id. -/
def frames (actions : List Action) : List (CString × Option CString) :=
  actions.filterMap fun action =>
    match action with
    | .sendState state turnId => some (state, turnId)
    | _ => none

/-- The states of the control channel, apart by whether they carry a turn id. -/
inductive FrameKind where
  | idle
  | recording
  | uploading
  | uploadingFor
  | playing
  | playingFor
  | followup
  | other
deriving DecidableEq, Repr

/-- The kind of a frame. A turn id counts only if it is `pendingId`. -/
def kindFor (pendingId : CString) (frame : CString × Option CString) : FrameKind :=
  match frame.2 with
  | none =>
      if frame.1 = "idle".toList then .idle
      else if frame.1 = "recording".toList then .recording
      else if frame.1 = "uploading".toList then .uploading
      else if frame.1 = "playing".toList then .playing
      else if frame.1 = "followup".toList then .followup
      else .other
  | some turnId =>
      if turnId ≠ pendingId then .other
      else if frame.1 = "uploading".toList then .uploadingFor
      else if frame.1 = "playing".toList then .playingFor
      else .other

/-- What a turn shows if it succeeds is among the first sequences, and if it fails among the
second. -/
structure Shows (pendingId : CString) (success failure : List (List FrameKind))
    (turn : EspErr × List Action) : Prop where
  ok : turn.1 = .ok → (frames turn.2).map (kindFor pendingId) ∈ success
  failed : turn.1 ≠ .ok → (frames turn.2).map (kindFor pendingId) ∈ failure

section

variable {pendingId : CString} {success failure : List (List FrameKind)}
  {rest : EspErr × List Action}

/-- Actions in front of a turn that show something themselves. -/
theorem Shows.after {actions : List Action} {front : List FrameKind}
    (shown : (frames actions).map (kindFor pendingId) = front)
    (shows_ : Shows pendingId success failure rest) :
    Shows pendingId (success.map (front ++ ·)) (failure.map (front ++ ·))
      (after actions rest) := by
  have split : (frames (VoiceTurn.after actions rest).2).map (kindFor pendingId) =
      front ++ (frames rest.2).map (kindFor pendingId) := by
    rw [VoiceTurn.after, frames, List.filterMap_append, List.map_append, ← frames, shown, frames]
  constructor
  · intro fine
    rw [split]
    exact List.mem_map_of_mem (shows_.ok fine)
  · intro failed
    rw [split]
    exact List.mem_map_of_mem (shows_.failed failed)

theorem Shows.mono {success' failure' : List (List FrameKind)}
    (shows_ : Shows pendingId success failure rest) (ok : success ⊆ success')
    (failed : failure ⊆ failure') : Shows pendingId success' failure' rest :=
  ⟨fun fine => ok (shows_.ok fine), fun fails => failed (shows_.failed fails)⟩

@[simp] theorem frames_ops (list : List (HeapOp Block)) : frames (ops list) = [] := by
  rw [frames, ops, List.filterMap_map]
  exact List.filterMap_eq_nil_iff.mpr fun _ _ => rfl

@[simp] theorem frames_append (first second : List Action) :
    frames (first ++ second) = frames first ++ frames second := List.filterMap_append

theorem shows_failTurn (world : TurnWorld) {err : EspErr} (failed : err ≠ .ok) :
    Shows pendingId [] [[]] (failTurn world err) := by
  constructor
  · intro fine
    exact absurd fine failed
  · intro _
    have silent : frames (failTurn world err).2 = [] := frames_ops _
    rw [silent]
    exact List.mem_singleton_self _

theorem shows_endTurn : Shows pendingId [[]] [] endTurn :=
  ⟨fun _ => List.mem_singleton_self _, fun failed => absurd rfl failed⟩

theorem shows_quietTurn : Shows pendingId [[.idle]] [] quietTurn :=
  ⟨fun _ => List.mem_singleton_self _, fun failed => absurd rfl failed⟩

@[simp] theorem kindFor_playing : kindFor pendingId ("playing".toList, some pendingId) =
    .playingFor := by
  simp [kindFor]

@[simp] theorem kindFor_uploading : kindFor pendingId ("uploading".toList, some pendingId) =
    .uploadingFor := by
  simp [kindFor]

end

/-! ### What a turn shows -/

theorem fetchAnswer_shows (world : TurnWorld) (pendingId : CString) :
    Shows pendingId [[.uploadingFor, .playingFor]] [[.uploadingFor], [.uploadingFor, .playingFor]]
      (fetchAnswer world pendingId) := by
  unfold fetchAnswer
  dsimp only
  have announced : (frames ([Action.expectTtsStream none, setLed .blue,
      sendState "uploading" (some pendingId)] ++ ops (httpGetOps world.get))).map
        (kindFor pendingId) = [.uploadingFor] := by
    rw [frames_append, frames_ops, List.append_nil]
    exact congrArg (fun kind => [kind]) kindFor_uploading
  have played : (frames ([setLed .green, sendState "playing" (some pendingId)] ++
      ops [.use .answer, .free .answer])).map (kindFor pendingId) = [.playingFor] := by
    rw [frames_append, frames_ops, List.append_nil]
    exact congrArg (fun kind => [kind]) kindFor_playing
  split_ifs with failed unplayable
  · exact (Shows.after announced (shows_failTurn world failed)).mono (by decide) (by decide)
  · exact (Shows.after announced (Shows.after played (shows_failTurn world unplayable))).mono
      (by decide) (by decide)
  · exact (Shows.after announced (Shows.after played shows_endTurn)).mono (by decide) (by decide)

/-- A turn that plays a streamed answer, before or after the stream is complete, or fetches
it. -/
def answered : List (List FrameKind) :=
  [[.playingFor, .playingFor], [.playingFor, .uploadingFor, .playingFor],
    [.playingFor, .playingFor, .uploadingFor, .playingFor]]

/-- The two-phase turns that break off. -/
def unanswered : List (List FrameKind) :=
  [[.playingFor], [.playingFor, .uploadingFor], [.playingFor, .uploadingFor, .playingFor],
    [.playingFor, .playingFor, .uploadingFor],
    [.playingFor, .playingFor, .uploadingFor, .playingFor]]

theorem twoPhase_shows (world : TurnWorld) (wav : List UInt8) (pendingId : CString) :
    Shows pendingId answered unanswered (twoPhase world wav pendingId) := by
  have playing : (frames [setLed .green, sendState "playing" (some pendingId)]).map
      (kindFor pendingId) = [.playingFor] := congrArg (fun kind => [kind]) kindFor_playing
  have registered : frames (ensureTtsHandlerRegistered world) = [] := by
    unfold ensureTtsHandlerRegistered
    split_ifs <;> rfl
  have acknowledged : (frames (ensureTtsHandlerRegistered world ++
      [Action.expectTtsStream (some pendingId), .expectPendingReady pendingId] ++
        [setLed .green, sendState "playing" (some pendingId)] ++
        ops [.use .response, .free .response])).map (kindFor pendingId) = [.playingFor] := by
    rw [frames_append, frames_append, frames_append, frames_ops, List.append_nil, registered]
    exact playing
  unfold twoPhase
  dsimp only
  by_cases failed : world.play wav ≠ .ok
  · have silent : (frames (failTurn world .ok).2).map (kindFor pendingId) = [] :=
      congrArg _ (frames_ops _)
    have disarmed : Shows pendingId [] [[]] (world.play wav, [Action.expectTtsStream none]) :=
      ⟨fun fine => absurd fine failed, fun _ => List.mem_singleton_self _⟩
    rw [if_pos failed]
    exact (Shows.after acknowledged (Shows.after silent disarmed)).mono (by decide) (by decide)
  · rw [if_neg failed]
    have fetched := fetchAnswer_shows world pendingId
    cases world.stream.activeAfterAck && world.stream.activateErr = .ok with
    | true =>
        have shown : (frames ([setLed .green, sendState "playing" (some pendingId)] ++
            [Action.waitTtsEnd] ++ [])).map (kindFor pendingId) = [.playingFor] := playing
        simp only [Bool.not_true, Bool.and_false, Bool.false_and, Bool.or_false, Bool.and_true,
          if_true, Bool.false_eq_true, if_false]
        split_ifs
        · exact (Shows.after acknowledged (Shows.after shown shows_endTurn)).mono
            (by decide) (by decide)
        · exact (Shows.after acknowledged (Shows.after shown fetched)).mono
            (by decide) (by decide)
    | false =>
        simp only [Bool.not_false, Bool.and_true, Bool.false_or, Bool.false_eq_true, if_false,
          List.nil_append]
        by_cases late : (world.stream.ttsEnd && world.stream.activeAtEnd &&
            decide (world.stream.lateActivateErr = .ok)) = true
        · have shown : (frames ([Action.waitTtsEnd] ++
              [setLed .green, sendState "playing" (some pendingId)])).map (kindFor pendingId) =
                [.playingFor] := playing
          have ended : (world.stream.ttsEnd && (world.stream.ttsEnd && world.stream.activeAtEnd &&
              decide (world.stream.lateActivateErr = .ok))) = true := by
            simp_all
          rw [if_pos late, if_pos ended]
          exact (Shows.after acknowledged (Shows.after shown shows_endTurn)).mono
            (by decide) (by decide)
        · have silent : (frames ([Action.waitTtsEnd] ++ [])).map (kindFor pendingId) = [] := rfl
          have open_ : ¬ (world.stream.ttsEnd && (world.stream.ttsEnd &&
              world.stream.activeAtEnd && decide (world.stream.lateActivateErr = .ok))) = true := by
            simp_all
          rw [if_neg late, if_neg open_]
          exact (Shows.after acknowledged (Shows.after silent fetched)).mono
            (by decide) (by decide)

theorem singlePhase_shows (world : TurnWorld) (wav : List UInt8) (pendingId : CString) :
    Shows pendingId [[.playing]] [[.playing]] (singlePhase world wav) := by
  have played : (frames ([setLed .green, sendState "playing" none] ++
      ops [.use .response, .free .response])).map (kindFor pendingId) = [.playing] := by
    rw [frames_append, frames_ops, List.append_nil]
    exact congrArg (fun kind => [kind]) (by decide : kindFor [] ("playing".toList, none) = .playing)
  unfold singlePhase
  split_ifs with failed
  · exact (Shows.after played (shows_failTurn world failed)).mono (by decide) (by decide)
  · exact (Shows.after played shows_endTurn).mono (by decide) (by decide)

/-- From the upload on, a turn is silent, plays one file or answers in two phases. -/
theorem postTurn_shows (world : TurnWorld) (body : Block) :
    Shows (httpPostVoiceTurn world.post).2.2.pendingId ([.idle] :: [.playing] :: answered)
      ([] :: [.playing] :: unanswered) (postTurn world body) := by
  have silent (list : List (HeapOp Block)) :
      (frames (ops list)).map (kindFor (httpPostVoiceTurn world.post).2.2.pendingId) = [] := by
    rw [frames_ops, List.map_nil]
  unfold postTurn
  dsimp only
  split_ifs with failed empty twoPhase_
  · exact (Shows.after (silent _) (shows_failTurn world failed)).mono (by decide) (by decide)
  · exact (Shows.after (silent _) (Shows.after (silent _) shows_quietTurn)).mono (by decide)
      (by decide)
  · exact (Shows.after (silent _) (twoPhase_shows world _ _)).mono (by decide) (by decide)
  · exact (Shows.after (silent _) (singlePhase_shows world _ _)).mono (by decide) (by decide)

theorem uploadTurn_shows (world : TurnWorld) :
    Shows (httpPostVoiceTurn world.post).2.2.pendingId
      (([.idle] :: [.playing] :: answered).map ([.uploading] ++ ·))
      (([] :: [.playing] :: unanswered).map ([.uploading] ++ ·)) (uploadTurn world) := by
  generalize given : (httpPostVoiceTurn world.post).2.2.pendingId = pendingId
  have announced (before finalized : List (HeapOp Block)) :
      (frames (ops before ++ [setLed .blue, sendState "uploading" none] ++ ops finalized)).map
        (kindFor pendingId) = [.uploading] := by
    rw [frames_append, frames_append, frames_ops, frames_ops, List.append_nil, List.nil_append]
    rfl
  have silent (list : List (HeapOp Block)) :
      (frames (ops list)).map (kindFor pendingId) = [] := by
    rw [frames_ops, List.map_nil]
  have posted (body : Block) := given ▸ postTurn_shows world body
  unfold uploadTurn
  dsimp only
  apply Shows.after (announced _ _)
  split_ifs
  · exact (Shows.after (silent _) (posted _)).mono (by decide) (by decide)
  · exact (Shows.after (silent _) (posted _)).mono (by decide) (by decide)
  · exact (Shows.after (silent _) (shows_failTurn world (by decide))).mono (by decide) (by decide)

/-- The turns that end well: nothing is said, the server drops the turn, it answers at once,
or it answers in two phases. -/
def turnSuccess : List (List FrameKind) :=
  [.recording, .idle] ::
    ([.idle] :: [.playing] :: answered).map ([.recording, .uploading] ++ ·)

def turnFailure : List (List FrameKind) :=
  [.recording] :: ([] :: [.playing] :: unanswered).map ([.recording, .uploading] ++ ·)

theorem turn_shows (world : TurnWorld) :
    Shows (httpPostVoiceTurn world.post).2.2.pendingId turnSuccess turnFailure
      (voiceTurnExecute world) := by
  have uploaded := uploadTurn_shows world
  generalize (httpPostVoiceTurn world.post).2.2.pendingId = pendingId at uploaded ⊢
  have silent (list : List (HeapOp Block)) :
      (frames (ops list)).map (kindFor pendingId) = [] := by
    rw [frames_ops, List.map_nil]
  have announced : (frames ([setLed .amber] ++ ops (beep world.startTone) ++
      [setLed .red, sendState "recording" none])).map (kindFor pendingId) = [.recording] := by
    rw [frames_append, frames_append, frames_ops]
    rfl
  unfold voiceTurnExecute
  split_ifs
  · exact (Shows.after announced (shows_failTurn world (by decide))).mono (by decide) (by decide)
  · cases world.captured.err with
    | ok =>
        exact (Shows.after announced (Shows.after (silent _) uploaded)).mono (by decide)
          (by decide)
    | timeout =>
        exact (Shows.after announced (Shows.after (silent _) (Shows.after (silent _)
          shows_quietTurn))).mono (by decide) (by decide)
    | _ =>
        exact (Shows.after announced (Shows.after (silent _) (Shows.after (silent _)
          (shows_failTurn world (by decide))))).mono (by decide) (by decide)

/-- The state frames of a turn, in every order they can come in. The frames that carry a turn id
carry the one the server gave with its response. -/
theorem voiceTurnExecute_frames (world : TurnWorld) :
    let kinds := (frames (voiceTurnExecute world).2).map
      (kindFor (httpPostVoiceTurn world.post).2.2.pendingId)
    if (voiceTurnExecute world).1 = .ok then kinds ∈ turnSuccess else kinds ∈ turnFailure := by
  have shows_ := turn_shows world
  split_ifs with fine
  · exact shows_.ok fine
  · exact shows_.failed fine

/-! ### The loop -/

inductive AppAction where
  | turn (action : Action)
  | sendWake (score : Int)
  | pauseWakeWord
  | resumeWakeWord
deriving DecidableEq, Repr

/-- Where `app_main` is: at the event group, in front of `voice_turn_execute`, or in the
follow-up window. -/
inductive Phase where
  | waiting
  | turning
  | listening
deriving DecidableEq, Repr

structure App where
  phase : Phase
  done : List AppAction
deriving DecidableEq, Repr

/-- What the other side answers: the wake word with its score and whether the unit has WiFi,
all a turn gets, or whether speech follows. -/
inductive Label where
  | trigger (score : Int) (wifiConnected : Bool)
  | voiceTurn (world : TurnWorld)
  | followup (speech : Bool)

/-- What starting up met. -/
structure Boot where
  wifi : EspErr
  audioIn : EspErr
  wakeWordTask : EspErr
deriving DecidableEq, Repr

def redUnless (err : EspErr) : List Action := if err = .ok then [] else [setLed .red]

/-- `app_main` up to its loop. -/
def bootActions (boot : Boot) : List Action :=
  [setLed .white, setLed .amber, if boot.wifi = .ok then setLed .green else setLed .red] ++
    redUnless boot.audioIn ++ redUnless boot.wakeWordTask ++ [setLed .off, sendState "idle" none]

/-- The end of a chain of turns. -/
def endChain : List AppAction :=
  [.turn (setLed .off), .resumeWakeWord, .turn (sendState "idle" none)]

def App.appends (app : App) (phase : Phase) (actions : List AppAction) : App :=
  ⟨phase, app.done ++ actions⟩

/-- The LED while the unit listens for a follow-up. -/
def followupColor : Nat × Nat × Nat := (0, 40, 60)

/-- What `app_main` did itself, and its turns. -/
def turnActions (done : List AppAction) : List Action :=
  done.filterMap fun action =>
    match action with
    | .turn action => some action
    | _ => none

/-- The statics of `_ensure_tts_handler_registered` in a state of the loop. -/
def App.registration (app : App) : Registration :=
  Registration.after ⟨false, false⟩ (turnActions app.done)

/-- What a turn gets, with the statics as the turns before it left them. -/
def App.meets (app : App) (world : TurnWorld) : TurnWorld :=
  { world with registration := app.registration }

def appStep (app : App) : Label → Option App
  | .trigger score wifiConnected =>
      if app.phase ≠ .waiting then none
      else if wifiConnected then
        some (app.appends .turning [.sendWake score, .pauseWakeWord])
      else
        some (app.appends .waiting [.sendWake score, .turn (setLed .red), .turn (setLed .off),
          .turn (sendState "idle" none)])
  | .voiceTurn world =>
      if app.phase ≠ .turning then none
      else
        let turn := voiceTurnExecute (app.meets world)
        if turn.1 ≠ .ok then
          some (app.appends .waiting (turn.2.map .turn ++ .turn (setLed .red) :: endChain))
        else
          some (app.appends .listening (turn.2.map .turn ++
            [.turn (.led followupColor), .turn (sendState "followup" none)]))
  | .followup speech =>
      if app.phase ≠ .listening then none
      else if speech then some (app.appends .turning [])
      else some (app.appends .waiting endChain)

def appMain (boot : Boot) : Machine App Label where
  init := ⟨.waiting, (bootActions boot).map .turn⟩
  step := appStep

/-! ### What the loop shows -/

inductive EventKind where
  | frame (kind : FrameKind)
  | wake
  | pause
  | resume
deriving DecidableEq, Repr

/-- The kind of a frame, whatever turn its id belongs to. -/
def frameKind (frame : CString × Option CString) : FrameKind := kindFor (frame.2.getD []) frame

def eventOf : AppAction → Option EventKind
  | .turn (.sendState state turnId) => some (.frame (frameKind (state, turnId)))
  | .turn _ => none
  | .sendWake _ => some .wake
  | .pauseWakeWord => some .pause
  | .resumeWakeWord => some .resume

def events (done : List AppAction) : List EventKind := done.filterMap eventOf

/-- The colour of the LED behind some actions. -/
def ledAfter (before : Nat × Nat × Nat) (actions : List Action) : Nat × Nat × Nat :=
  actions.foldl (fun color action =>
    match action with
    | .led color => color
    | _ => color) before

/-- One of these sequences of frames. -/
def anyFrames (words : List (List FrameKind)) : RegularExpression EventKind :=
  anyWord (words.map (List.map EventKind.frame))

/-- A turn that ended well and the frame that opens its follow-up window. -/
def round : RegularExpression EventKind :=
  anyFrames turnSuccess * char (.frame .followup)

/-- Follow-ups until nobody speaks or a turn fails. -/
def chain : RegularExpression EventKind :=
  oneOrMore round + round.star * anyFrames turnFailure

/-- From a wake word to the next wait. -/
def session : RegularExpression EventKind :=
  char .wake *
    (char (.frame .idle) + char .pause * (chain * (char .resume * char (.frame .idle))))

def life : RegularExpression EventKind := char (.frame .idle) * session.star

theorem life_snoc {past next : List EventKind} (lived : Matches id life past)
    (ran : Matches id session next) : Matches id life (past ++ next) := by
  obtain ⟨first, sessions, rfl, idle, before⟩ := matches_mul.mp lived
  rw [List.append_assoc]
  exact idle.mul (before.star_snoc ran).star_of_oneOrMore

theorem matches_event (kind : EventKind) : Matches id (char kind) [kind] :=
  matches_char.mpr ⟨kind, rfl, rfl⟩

theorem session_of_chain {rounds : List EventKind} (ran : Matches id chain rounds) :
    Matches id session ([.wake, .pause] ++ rounds ++ [.resume, .frame .idle]) :=
  (matches_event .wake).mul (((matches_event .pause).mul
    (ran.mul ((matches_event .resume).mul (matches_event (.frame .idle))))).right)

/-! #### A turn among the events -/

theorem events_append (first second : List AppAction) :
    events (first ++ second) = events first ++ events second := List.filterMap_append

theorem turnActions_append (first second : List AppAction) :
    turnActions (first ++ second) = turnActions first ++ turnActions second :=
  List.filterMap_append

@[simp] theorem turnActions_map (actions : List Action) :
    turnActions (actions.map .turn) = actions := by
  rw [turnActions, List.filterMap_map]
  exact List.filterMap_some

theorem events_map (actions : List Action) :
    events (actions.map .turn) = (frames actions).map fun frame => .frame (frameKind frame) := by
  induction actions with
  | nil => rfl
  | cons action actions inductionHypothesis =>
      cases action with
      | sendState state turnId => exact congrArg (_ :: ·) inductionHypothesis
      | _ => exact inductionHypothesis

/-- A frame with a kind of its own has it whatever turn it is looked at from. -/
theorem frameKind_of_kindFor {pendingId : CString} {frame : CString × Option CString}
    (known : kindFor pendingId frame ≠ .other) : frameKind frame = kindFor pendingId frame := by
  obtain ⟨state, turnId⟩ := frame
  cases turnId with
  | none => rfl
  | some turnId =>
      by_cases same : turnId = pendingId
      · rw [← same]
        rfl
      · exact absurd (by simp [kindFor, same]) known

theorem matches_anyFrames {pendingId : CString} {words : List (List FrameKind)}
    {actions : List Action} (known : ∀ word ∈ words, .other ∉ word)
    (shown : (frames actions).map (kindFor pendingId) ∈ words) :
    Matches id (anyFrames words) (events (actions.map .turn)) := by
  have plain : (frames actions).map frameKind = (frames actions).map (kindFor pendingId) := by
    apply List.map_congr_left
    intro frame member
    apply frameKind_of_kindFor
    intro other
    exact known _ shown (List.mem_map.mpr ⟨frame, member, other⟩)
  rw [anyFrames, matches_anyWord, List.map_id, events_map]
  apply List.mem_map.mpr
  refine ⟨_, shown, ?_⟩
  rw [← plain, List.map_map]
  rfl

/-! ### Every wait -/

/-- No block of a turn is held and no stream is expected. -/
structure Settled (actions : List Action) : Prop where
  heap : Takes ∅ (heapOps actions) ∅
  stream : expectation none actions = none

theorem Settled.append {first second : List Action} (before : Settled first)
    (after : Settled second) : Settled (first ++ second) := by
  constructor
  · rw [heapOps_append]
    exact before.heap.append after.heap
  · rw [expectation_append, before.stream]
    exact after.stream

/-- Between two turns of a chain, or behind its last one. -/
def Rounds (pattern : RegularExpression EventKind) (done : List AppAction) : Prop :=
  ∃ past rounds, events done = past ++ ([.wake, .pause] ++ rounds) ∧ Matches id life past ∧
    Matches id pattern rounds

/-- What holds at a wait. -/
structure Rests (done : List AppAction) : Prop where
  led : ledAfter (statusLed .off) (turnActions done) = statusLed .off
  shown : Matches id life (events done)

def Invariant (app : App) : Prop :=
  Settled (turnActions app.done) ∧
    match app.phase with
    | .waiting => Rests app.done
    | .turning => Rounds round.star app.done
    | .listening => Rounds (oneOrMore round) app.done

theorem invariant_boot (boot : Boot) : Invariant (appMain boot).init := by
  obtain ⟨wifi, audioIn, wakeWordTask⟩ := boot
  have actions : turnActions (appMain ⟨wifi, audioIn, wakeWordTask⟩).init.done =
      bootActions ⟨wifi, audioIn, wakeWordTask⟩ := turnActions_map _
  refine ⟨?_, ?_, ?_⟩
  · rw [actions, bootActions, redUnless, redUnless]
    split_ifs <;> exact ⟨rfl, rfl⟩
  · rw [actions, bootActions, redUnless, redUnless]
    split_ifs <;> rfl
  · have idle : events (appMain ⟨wifi, audioIn, wakeWordTask⟩).init.done = [.frame .idle] := by
      show events ((bootActions _).map .turn) = _
      rw [bootActions, redUnless, redUnless]
      split_ifs <;> rfl
    rw [idle]
    exact (matches_event (.frame .idle)).mul matches_star_nil

/-- A chain ends with the LED off, the wake word listened for again and `idle` shown. -/
theorem rests_of_chain {done ending : List AppAction} {past rounds : List EventKind}
    (shown : events done = past ++ ([.wake, .pause] ++ rounds)) (lived : Matches id life past)
    {last : List EventKind} (closes : events ending = last ++ [.resume, .frame .idle])
    (ran : Matches id chain (rounds ++ last))
    (off : ∀ before, ledAfter before (turnActions ending) = statusLed .off) :
    Rests (done ++ ending) := by
  constructor
  · rw [turnActions_append, ledAfter, List.foldl_append]
    exact off _
  · have session_ := life_snoc lived (session_of_chain ran)
    rw [events_append, shown, closes]
    simpa [List.append_assoc] using session_

/-- A wake-up without WiFi is shown and nothing else. -/
theorem invariant_trigger {app next : App} {score : Int} {wifiConnected : Bool}
    (kept : Invariant app) (stepped : appStep app (.trigger score wifiConnected) = some next) :
    Invariant next := by
  obtain ⟨phase, done⟩ := app
  obtain ⟨settled, phaseKept⟩ := kept
  cases phase with
  | turning => simp [appStep] at stepped
  | listening => simp [appStep] at stepped
  | waiting =>
      obtain ⟨-, lived⟩ : Rests done := phaseKept
      cases wifiConnected with
      | true =>
          obtain rfl : App.appends _ .turning [.sendWake score, .pauseWakeWord] = next :=
            Option.some.inj stepped
          refine ⟨?_, events done, [], ?_, lived, matches_star_nil⟩
          · rw [App.appends, turnActions_append]
            exact settled.append ⟨rfl, rfl⟩
          · rw [App.appends, events_append]
            rfl
      | false =>
          obtain rfl : App.appends _ .waiting [.sendWake score, .turn (setLed .red),
              .turn (setLed .off), .turn (sendState "idle" none)] = next :=
            Option.some.inj stepped
          have woken : Matches id session [.wake, .frame .idle] :=
            (matches_event .wake).mul (matches_event (.frame .idle)).left
          refine ⟨?_, ?_, ?_⟩
          · rw [App.appends, turnActions_append]
            exact settled.append ⟨rfl, rfl⟩
          · rw [App.appends, turnActions_append, ledAfter, List.foldl_append]
            rfl
          · rw [App.appends, events_append]
            exact life_snoc lived woken

/-- A turn that fails ends its chain, and one that does not opens a follow-up window. -/
theorem invariant_voiceTurn {app next : App} {world : TurnWorld} (kept : Invariant app)
    (stepped : appStep app (.voiceTurn world) = some next) : Invariant next := by
  unfold appStep at stepped
  dsimp only at stepped
  generalize app.meets world = met at stepped
  obtain ⟨phase, done⟩ := app
  obtain ⟨settled, phaseKept⟩ := kept
  have turnSettled : Settled (voiceTurnExecute met).2 :=
    ⟨voiceTurnExecute_returns met, voiceTurnExecute_expects_nothing met⟩
  have shows_ := turn_shows met
  generalize voiceTurnExecute met = turn at turnSettled shows_ stepped
  cases phase with
  | waiting => simp at stepped
  | listening => simp at stepped
  | turning =>
      obtain ⟨past, rounds, shown, lived, ran⟩ : Rounds round.star done := phaseKept
      rw [if_neg (not_not.mpr rfl)] at stepped
      by_cases failed : turn.1 ≠ .ok
      · rw [if_pos failed] at stepped
        obtain rfl := Option.some.inj stepped
        have broken : Matches id (anyFrames turnFailure) (events (turn.2.map .turn)) :=
          matches_anyFrames (by decide) (shows_.failed failed)
        have ended : Matches id chain (rounds ++ events (turn.2.map .turn)) :=
          (ran.mul broken).right
        refine ⟨?_, rests_of_chain shown lived (events_append _ _) ended ?_⟩
        · rw [App.appends, turnActions_append, turnActions_append, turnActions_map]
          exact settled.append (turnSettled.append ⟨rfl, rfl⟩)
        · intro before
          rw [turnActions_append, ledAfter, List.foldl_append]
          rfl
      · rw [if_neg failed] at stepped
        obtain rfl := Option.some.inj stepped
        have answered_ : Matches id (anyFrames turnSuccess) (events (turn.2.map .turn)) :=
          matches_anyFrames (by decide) (shows_.ok (not_not.mp failed))
        have oneMore := ran.star_snoc (answered_.mul (matches_event (.frame .followup)))
        refine ⟨?_, past, _, ?_, lived, oneMore⟩
        · rw [App.appends, turnActions_append, turnActions_append, turnActions_map]
          exact settled.append (turnSettled.append ⟨rfl, rfl⟩)
        · rw [App.appends, events_append, events_append, shown, List.append_assoc,
            List.append_assoc]
          rfl

theorem invariant_followup {app next : App} {speech : Bool} (kept : Invariant app)
    (stepped : appStep app (.followup speech) = some next) : Invariant next := by
  obtain ⟨phase, done⟩ := app
  obtain ⟨settled, phaseKept⟩ := kept
  cases phase with
  | waiting => simp [appStep] at stepped
  | turning => simp [appStep] at stepped
  | listening =>
      obtain ⟨past, rounds, shown, lived, ran⟩ : Rounds (oneOrMore round) done := phaseKept
      cases speech with
      | true =>
          obtain rfl : App.appends _ .turning [] = next := Option.some.inj stepped
          rw [App.appends, List.append_nil]
          exact ⟨settled, past, rounds, shown, lived, ran.star_of_oneOrMore⟩
      | false =>
          obtain rfl : App.appends _ .waiting endChain = next := Option.some.inj stepped
          have ended : Matches id chain (rounds ++ []) := by
            rw [List.append_nil]
            exact ran.left
          refine ⟨?_, rests_of_chain shown lived rfl ended fun _ => rfl⟩
          rw [App.appends, turnActions_append]
          exact settled.append ⟨rfl, rfl⟩

theorem invariant_step (app : App) (label : Label) (next : App) (kept : Invariant app)
    (stepped : appStep app label = some next) : Invariant next := by
  cases label with
  | trigger score wifiConnected => exact invariant_trigger kept stepped
  | voiceTurn world => exact invariant_voiceTurn kept stepped
  | followup speech => exact invariant_followup kept stepped

/-! ### The heap between the turns -/

/-- Everything done is allowed, and what is held is the mutex, once a turn has created it. -/
def App.HeapBalanced (app : App) : Prop :=
  Takes ((∅ : Finset Block).disjSum (∅ : Finset Kept)) (allOps (turnActions app.done))
    ((∅ : Finset Block).disjSum app.registration.held)

/-- A turn that takes the mutex finds it there or can create it. -/
def FindsMutex (app : App) : Label → Prop
  | .voiceTurn world => (app.meets world).FindsMutex
  | _ => True

/-- What is appended is judged from what the statics say is held. -/
theorem heapBalanced_appends {app : App} (balanced : app.HeapBalanced) (phase : Phase)
    (actions : List AppAction) :
    (app.appends phase actions).HeapBalanced ↔
      Takes ((∅ : Finset Block).disjSum app.registration.held) (allOps (turnActions actions))
        ((∅ : Finset Block).disjSum (app.registration.after (turnActions actions)).held) := by
  rw [App.HeapBalanced, App.registration, App.appends, turnActions_append, allOps_append,
    Registration.after_append]
  exact Takes.append_iff balanced

/-- A turn and what the loop does behind it. -/
theorem heapBalanced_turn {app : App} (balanced : app.HeapBalanced) (world : TurnWorld)
    (phase : Phase) {behind : List AppAction} (quiet : allOps (turnActions behind) = [])
    (kept : ∀ registration : Registration,
      registration.after (turnActions behind) = registration) :
    (app.appends phase ((voiceTurnExecute (app.meets world)).2.map .turn ++ behind)).HeapBalanced ↔
      (app.meets world).FindsMutex := by
  rw [heapBalanced_appends balanced, turnActions_append, turnActions_map, allOps_append, quiet,
    List.append_nil, Registration.after_append, kept, takes_allOps]
  exact (and_iff_right (voiceTurnExecute_returns (app.meets world))).trans
    (voiceTurnExecute_keeps (app.meets world))

theorem heapBalanced_step {app next : App} {label : Label} (balanced : app.HeapBalanced)
    (stepped : appStep app label = some next) : next.HeapBalanced ↔ FindsMutex app label := by
  cases label with
  | trigger score wifiConnected =>
      simp only [appStep] at stepped
      split_ifs at stepped
      · obtain rfl := Option.some.inj stepped
        exact iff_of_true ((heapBalanced_appends balanced _ _).mpr (Takes.nil _)) trivial
      · obtain rfl := Option.some.inj stepped
        exact iff_of_true ((heapBalanced_appends balanced _ _).mpr (Takes.nil _)) trivial
  | voiceTurn world =>
      simp only [appStep] at stepped
      split_ifs at stepped
      · obtain rfl := Option.some.inj stepped
        exact heapBalanced_turn balanced world _ rfl fun _ => rfl
      · obtain rfl := Option.some.inj stepped
        exact heapBalanced_turn balanced world _ rfl fun _ => rfl
  | followup speech =>
      simp only [appStep] at stepped
      split_ifs at stepped
      · obtain rfl := Option.some.inj stepped
        exact iff_of_true ((heapBalanced_appends balanced _ _).mpr (Takes.nil _)) trivial
      · obtain rfl := Option.some.inj stepped
        exact iff_of_true ((heapBalanced_appends balanced _ _).mpr (Takes.nil _)) trivial

theorem heapBalanced_boot (boot : Boot) : (appMain boot).init.HeapBalanced := by
  obtain ⟨wifi, audioIn, wakeWordTask⟩ := boot
  rw [App.HeapBalanced, App.registration]
  have actions : turnActions (appMain ⟨wifi, audioIn, wakeWordTask⟩).init.done =
      bootActions ⟨wifi, audioIn, wakeWordTask⟩ := turnActions_map _
  rw [actions, bootActions, redUnless, redUnless]
  split_ifs <;> rfl

/-- It is enough that the mutex can always be created. -/
theorem along_findsMutex {machine : Machine App Label} {labels : List Label}
    (created : ∀ world, .voiceTurn world ∈ labels → world.mutexCreated = true) (app : App) :
    machine.Along FindsMutex app labels := by
  induction labels generalizing app with
  | nil => trivial
  | cons label rest inductionHypothesis =>
      constructor
      · cases label with
        | voiceTurn world =>
            intro _
            have made : (app.meets world).mutexCreated = true := created world List.mem_cons_self
            rw [made, Bool.or_true]
        | trigger score wifiConnected => trivial
        | followup speech => trivial
      · cases machine.step app label with
        | none => trivial
        | some next =>
            exact inductionHypothesis (fun world member =>
              created world (List.mem_cons_of_mem _ member)) next

/-- Somebody speaks, and the answer is announced and then fetched. -/
def patientTurn : TurnWorld :=
  { silentTurn with
    config := ⟨false, 700, 20, 400, 1000⟩
    post := ⟨true, true, [.onHeader (some "X-DWU-Pending".toList) (some "0123456789ab".toList),
      .onData [1] true], .ok, 200⟩
    get := ⟨true, true, [.onData [2] true], .ok, 200⟩ }

end WallUnit.Firmware.AppMain
