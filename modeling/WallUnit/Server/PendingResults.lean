import Mathlib
import WallUnit.Firmware.WavUtil
import WallUnit.Foundations.Machine
import WallUnit.Foundations.Python
import WallUnit.Server.Streaming

/-!
Owns the pending results of `voice_server.py`: the entry `voice_turn` creates, the
background task that fills it, the `GET /voice_result` calls that wait for it and
the sweep, each cut at its awaits. What a stage returns, or that it raises, is an
input; so is every timeout.

Does not own what the stages compute, nor the fields of an entry that
`voice_result` does not read. Two turns are never given one request id, which is a
fresh UUID.
-/

namespace WallUnit.Server.Pending

open WallUnit.Foundations
open WallUnit.Foundations.Python (Text isSpace)
open WallUnit.Firmware.Wav (littleEndian ascii)
open WallUnit.Server.Streaming

/-- `PENDING_TTL`, in seconds. -/
def pendingTtl : Int := 120

/-- `fallback`. -/
def fallback : Text := "Sorry, something went wrong.".toList

/-- `_wrap_wav` with one channel. It raises when a field of the header overflows. -/
def wrapWav (pcm : List UInt8) (sampleRate : Nat) : Option (List UInt8) :=
  if sampleRate = 0 ∨ 4294967296 ≤ sampleRate * 2 ∨ 4294967296 ≤ 36 + pcm.length then none
  else
    some (ascii "RIFF" ++ littleEndian 4 (36 + pcm.length) ++ ascii "WAVE" ++
      ascii "fmt " ++ littleEndian 4 16 ++ littleEndian 2 1 ++ littleEndian 2 1 ++
      littleEndian 4 sampleRate ++ littleEndian 4 (sampleRate * 2) ++ littleEndian 2 2 ++
      littleEndian 2 16 ++ ascii "data" ++ littleEndian 4 pcm.length ++ pcm)

/-- `s.split()`. -/
def splitSpace (text : Text) : List Text :=
  (text.splitOnP isSpace).filter fun word => !word.isEmpty

/-- `_hdr_safe`. -/
def hdrSafe (text : Text) : Text := (List.intercalate [' '] (splitSpace text)).take 500

/-! ### Entries and tasks -/

/-- The timings `_stage2_from_decision` returns with its reply. -/
structure Debug where
  toolMs : Nat
  composeMs : Nat
deriving DecidableEq, Repr

/-- A value of `_pending`. -/
structure Entry where
  event : Bool
  wav : Option (List UInt8)
  replyText : Option Text
  debug : Option Debug
  created : Int
  unitId : Option Text
deriving DecidableEq, Repr

/-- What `v.synthesize` yields, and whether it ends without raising. -/
structure Synthesis where
  sentences : List (List UInt8)
  completed : Bool
deriving DecidableEq, Repr

/-- Where `_slow_background` stands, named by what it waits for. -/
inductive Phase where
  | scheduled
  | dispatching
  | streaming (voice : Voice)
  | apologizing
  | notifying
  | finished
  | crashed

/-- What the stages have produced for a request: the reply, the PCM synthesized
for the reply and its sample rate, and the WAV synthesized for the apology. -/
structure Produced where
  reply : Option Text
  spoken : Synthesis
  sampleRate : Nat
  apology : Option (List UInt8)
deriving DecidableEq, Repr

/-- The entry of a request, whether `_pending` still lists it, and the task that
fills it. -/
structure Record where
  entry : Entry
  listed : Bool
  phase : Phase
  produced : Produced

/-- What a step of the task gets from outside. -/
inductive TaskInput where
  | start
  | stage2 (result : Option (Text × Debug)) (voice : Option Voice) (inline : Synthesis)
  | sentence (pcm : List UInt8)
  | synthesized (completed : Bool) (link : Nat → SendOutcome)
  | apology (result : Option (List (List UInt8) × Voice))
  | notified

/-- The entry `voice_turn` creates, and the task it schedules. -/
def voiceTurnEntry (unitId : Option Text) (now : Int) : Record where
  entry := ⟨false, none, none, none, now, unitId⟩
  listed := true
  phase := .scheduled
  produced := ⟨none, ⟨[], false⟩, 0, none⟩

/-- The `finally` clause, up to its await. -/
def settle (record : Record) : Record :=
  { record with
    entry := { record.entry with event := true }
    phase := if record.entry.unitId.isSome then .notifying else .finished }

/-- The assignment of `entry["wav"]` once all PCM is there. -/
def materialize (pcm : List UInt8) (record : Record) : Record :=
  match wrapWav pcm record.produced.sampleRate with
  | none => { record with phase := .apologizing }
  | some wav => settle { record with entry := { record.entry with wav := some wav } }

/-- `_slow_background` after `_stage2_from_decision` has returned or raised. -/
def afterStage2 (result : Option (Text × Debug)) (voice : Option Voice) (inline : Synthesis)
    (record : Record) : Record :=
  match result with
  | none => { record with phase := .apologizing }
  | some (reply, debug) =>
      let replied := { record with
        entry := { record.entry with replyText := some reply, debug := some debug }
        produced := { record.produced with reply := some reply } }
      match voice with
      | none => { replied with phase := .apologizing }
      | some voice =>
          if record.entry.unitId.isSome then
            { replied with
              phase := .streaming voice
              produced := { replied.produced with sampleRate := voice.sampleRate } }
          else
            let spoken := { replied with
              produced :=
                { replied.produced with spoken := inline, sampleRate := voice.sampleRate } }
            if inline.completed then materialize inline.sentences.flatten spoken
            else { spoken with phase := .apologizing }

/-- `_slow_background` after `_stream_synthesis_to_ws` has returned or raised. -/
def afterStream (request : Text) (voice : Voice) (completed : Bool)
    (link : Nat → SendOutcome) (record : Record) : Record :=
  let sentences := record.produced.spoken.sentences
  let spoken := { record with
    produced := { record.produced with spoken := ⟨sentences, completed⟩ } }
  if completed then
    materialize (streamSynthesisToWs request voice link sentences).sink spoken
  else { spoken with phase := .apologizing }

/-- `synthesize(fallback)`. -/
def synthesizeFallback (result : Option (List (List UInt8) × Voice)) : Option (List UInt8) :=
  result.bind fun chunks => wrapWav chunks.1.flatten chunks.2.sampleRate

/-- The rest of the `except` clause. -/
def afterApology (result : Option (List (List UInt8) × Voice)) (record : Record) : Record :=
  let apology := synthesizeFallback result
  settle { record with
    produced := { record.produced with apology := apology }
    entry := { record.entry with wav := some (apology.getD []), replyText := some fallback } }

/-- One step of `_slow_background`. It reads `_pending` first, which may no longer
list the request. -/
def taskStep (request : Text) (input : TaskInput) (record : Record) : Option Record :=
  match record.phase, input with
  | .scheduled, .start =>
      some { record with phase := if record.listed then .dispatching else .crashed }
  | .dispatching, .stage2 result voice inline => some (afterStage2 result voice inline record)
  | .streaming _, .sentence pcm =>
      let sentences := record.produced.spoken.sentences ++ [pcm]
      some { record with
        produced := { record.produced with spoken := ⟨sentences, false⟩ } }
  | .streaming voice, .synthesized completed link =>
      some (afterStream request voice completed link record)
  | .apologizing, .apology result => some (afterApology result record)
  | .notifying, .notified => some { record with phase := .finished }
  | _, _ => none

/-! ### The server -/

/-- A `GET /voice_result` call. -/
inductive Call where
  | absent
  | waiting (request : Text)
  | answered
deriving DecidableEq, Repr

/-- What a call is answered with. -/
inductive Response where
  | notFound
  | timeout
  | serverError
  | ok (body : Option (List UInt8)) (replyHeader : Text) (debug : Option Debug)
deriving DecidableEq, Repr

structure State where
  records : Text → Option Record
  calls : Nat → Call
  answers : List (Text × Response)

inductive Label where
  | turn (request : Text) (unitId : Option Text) (now : Int)
  | task (request : Text) (input : TaskInput)
  | get (call : Nat) (request : Text)
  | wake (call : Nat)
  | timeout (call : Nat)
  | sweep (now : Int)

/-- `_pending.pop(request_id, None)`. -/
def State.pop (state : State) (request : Text) : State :=
  { state with
    records := Function.update state.records request
      ((state.records request).map fun record => { record with listed := false }) }

def State.answer (state : State) (call : Nat) (request : Text) (response : Response) : State :=
  { state with
    calls := Function.update state.calls call .answered
    answers := state.answers ++ [(request, response)] }

/-- `voice_result` once its event is set. `_hdr_safe(None)` raises. -/
def resultResponse (entry : Entry) : Response :=
  match entry.replyText with
  | none => .serverError
  | some replyText => .ok entry.wav (hdrSafe replyText) entry.debug

/-- `_cleanup_pending` on one entry. -/
def sweepRecord (now : Int) (record : Record) : Record :=
  { record with listed := record.listed && !decide (pendingTtl < now - record.entry.created) }

def step (state : State) : Label → Option State
  | .turn request unitId now =>
      if (state.records request).isSome then none
      else some { state with
        records := Function.update state.records request (some (voiceTurnEntry unitId now)) }
  | .task request input => do
      let record ← state.records request
      let next ← taskStep request input record
      return { state with records := Function.update state.records request (some next) }
  | .get call request =>
      if state.calls call ≠ .absent then none
      else if ((state.records request).map Record.listed).getD false then
        some { state with calls := Function.update state.calls call (.waiting request) }
      else some (state.answer call request .notFound)
  | .wake call =>
      match state.calls call with
      | .waiting request => do
          let record ← state.records request
          if record.entry.event then
            some ((state.pop request).answer call request (resultResponse record.entry))
          else none
      | _ => none
  | .timeout call =>
      match state.calls call with
      | .waiting request => some ((state.pop request).answer call request .timeout)
      | _ => none
  | .sweep now => some { state with
      records := fun request => (state.records request).map (sweepRecord now) }

def service : Machine State Label where
  init := ⟨fun _ => none, fun _ => .absent, []⟩
  step := step

/-! ### What a task can do to its record -/

/-- The wav and the text of an entry belong together: the reply with all PCM
synthesized for it, or the apology with its WAV or nothing. -/
inductive Paired (produced : Produced) : List UInt8 → Text → Prop where
  | reply {wav : List UInt8} {reply : Text} (returned : produced.reply = some reply)
      (whole : produced.spoken.completed = true)
      (wrapped : wrapWav produced.spoken.sentences.flatten produced.sampleRate = some wav) :
      Paired produced wav reply
  | apology {wav : List UInt8} (synthesized : produced.apology = some wav) :
      Paired produced wav fallback
  | silent : Paired produced [] fallback

/-- The invariant of a record: a streaming task has its reply in the entry, an
entry whose event is set is complete, and only a task that is done has set it. -/
structure Valid (record : Record) : Prop where
  streaming : ∀ voice, record.phase = .streaming voice →
    ∃ reply, record.produced.reply = some reply ∧ record.entry.replyText = some reply
  done : record.entry.event = true → record.phase = .notifying ∨ record.phase = .finished
  paired : record.entry.event = true → ∃ wav replyText, record.entry.wav = some wav ∧
    record.entry.replyText = some replyText ∧ Paired record.produced wav replyText

theorem valid_voiceTurnEntry (unitId : Option Text) (now : Int) :
    Valid (voiceTurnEntry unitId now) where
  streaming := by
    intro voice streaming
    contradiction
  done := by
    intro set
    contradiction
  paired := by
    intro set
    contradiction

/-- A record whose event is not set has nothing to prove outside the streaming. -/
theorem valid_of_unset {record : Record} (unset : record.entry.event = false)
    (elsewhere : ∀ voice, record.phase ≠ .streaming voice) : Valid record where
  streaming := fun voice streaming => absurd streaming (elsewhere voice)
  done := by simp [unset]
  paired := by simp [unset]

theorem valid_settle {record : Record} {wav : List UInt8} {replyText : Text}
    (filled : record.entry.wav = some wav) (answered : record.entry.replyText = some replyText)
    (paired : Paired record.produced wav replyText) : Valid (settle record) where
  streaming := by
    intro voice streaming
    simp only [settle] at streaming
    split_ifs at streaming
  done := by
    intro _
    simp only [settle]
    split_ifs
    · exact Or.inl rfl
    · exact Or.inr rfl
  paired := by
    intro _
    exact ⟨wav, replyText, filled, answered, paired⟩

/-- The wav is assigned last, when the reply is in the entry and all its PCM is
there. -/
theorem valid_materialize {record : Record} {pcm : List UInt8} {reply : Text}
    (unset : record.entry.event = false) (returned : record.produced.reply = some reply)
    (answered : record.entry.replyText = some reply)
    (whole : record.produced.spoken.completed = true)
    (all : pcm = record.produced.spoken.sentences.flatten) : Valid (materialize pcm record) := by
  unfold materialize
  cases wrapped : wrapWav pcm record.produced.sampleRate with
  | none => exact valid_of_unset unset (by simp)
  | some wav =>
      rw [all] at wrapped
      exact valid_settle rfl answered (.reply returned whole wrapped)

theorem valid_afterStage2 (result : Option (Text × Debug)) (voice : Option Voice)
    (inline : Synthesis) {record : Record} (unset : record.entry.event = false) :
    Valid (afterStage2 result voice inline record) := by
  unfold afterStage2
  cases result with
  | none => exact valid_of_unset unset (by simp)
  | some returned =>
      obtain ⟨reply, debug⟩ := returned
      cases voice with
      | none => exact valid_of_unset unset (by simp)
      | some voice =>
          simp only
          split_ifs with connected completed
          · exact ⟨fun _ _ => ⟨reply, rfl, rfl⟩, by simp [unset], by simp [unset]⟩
          · exact valid_materialize unset rfl rfl completed rfl
          · exact valid_of_unset unset (by simp)

theorem valid_afterStream (request : Text) (voice : Voice) (completed : Bool)
    (link : Nat → SendOutcome) {record : Record} {reply : Text}
    (unset : record.entry.event = false) (returned : record.produced.reply = some reply)
    (answered : record.entry.replyText = some reply) :
    Valid (afterStream request voice completed link record) := by
  unfold afterStream
  split_ifs with whole
  · exact valid_materialize unset returned answered whole
      (sink_streamSynthesisToWs request voice link _)
  · exact valid_of_unset unset (by simp)

/-- An apology overwrites whatever the entry already holds of the reply. -/
theorem valid_afterApology (result : Option (List (List UInt8) × Voice)) (record : Record) :
    Valid (afterApology result record) := by
  unfold afterApology
  apply valid_settle rfl rfl
  cases made : synthesizeFallback result with
  | none => exact .silent
  | some wav => exact .apology rfl

theorem Valid.unset {record : Record} (valid : Valid record)
    (working : record.phase ≠ .notifying ∧ record.phase ≠ .finished) :
    record.entry.event = false := by
  by_contra set
  rcases valid.done (by simpa using set) with notifying | finished
  · exact working.1 notifying
  · exact working.2 finished

/-- A step of the task keeps the invariant, and leaves an entry alone whose event
is set. -/
theorem taskStep_valid {request : Text} {input : TaskInput} {record next : Record}
    (valid : Valid record) (stepped : taskStep request input record = some next) :
    Valid next ∧ (record.entry.event = true → next.entry = record.entry) := by
  have working : record.phase ≠ .notifying ∧ record.phase ≠ .finished →
      record.entry.event = true → next.entry = record.entry := by
    intro busy set
    rw [valid.unset busy] at set
    contradiction
  unfold taskStep at stepped
  split at stepped
  · rename_i here
    have busy : record.phase ≠ .notifying ∧ record.phase ≠ .finished := by simp [here]
    obtain rfl := Option.some.inj stepped
    refine ⟨valid_of_unset (valid.unset busy) ?_, working busy⟩
    intro voice
    split_ifs <;> simp
  · rename_i result voice inline here
    have busy : record.phase ≠ .notifying ∧ record.phase ≠ .finished := by simp [here]
    obtain rfl := Option.some.inj stepped
    exact ⟨valid_afterStage2 result voice inline (valid.unset busy), working busy⟩
  · rename_i voice pcm here
    have busy : record.phase ≠ .notifying ∧ record.phase ≠ .finished := by simp [here]
    obtain rfl := Option.some.inj stepped
    exact ⟨⟨valid.streaming, by simp [valid.unset busy], by simp [valid.unset busy]⟩, working busy⟩
  · rename_i voice completed link here
    have busy : record.phase ≠ .notifying ∧ record.phase ≠ .finished := by simp [here]
    obtain ⟨reply, returned, answered⟩ := valid.streaming voice here
    obtain rfl := Option.some.inj stepped
    exact ⟨valid_afterStream request voice completed link (valid.unset busy) returned answered,
      working busy⟩
  · rename_i result here
    have busy : record.phase ≠ .notifying ∧ record.phase ≠ .finished := by simp [here]
    obtain rfl := Option.some.inj stepped
    exact ⟨valid_afterApology result record, working busy⟩
  · obtain rfl := Option.some.inj stepped
    exact ⟨⟨by simp, fun _ => Or.inr rfl, valid.paired⟩, fun _ => rfl⟩
  · contradiction

/-! ### The whole server -/

/-- An answer that carries a result carries the entry of its request, whose event
is set. -/
def Answered (state : State) (request : Text) (response : Response) : Prop :=
  ∀ body replyHeader debug, response = .ok body replyHeader debug →
    ∃ record, state.records request = some record ∧ record.entry.event = true ∧
      resultResponse record.entry = response

structure Consistent (state : State) : Prop where
  valid : ∀ request record, state.records request = some record → Valid record
  answered : ∀ request response, (request, response) ∈ state.answers →
    Answered state request response

/-- Records may change as long as they stay valid and no entry whose event is set
is touched. -/
theorem Consistent.of_records {state : State} (consistent : Consistent state)
    (records : Text → Option Record) (calls : Nat → Call)
    (valid : ∀ request record, records request = some record → Valid record)
    (kept : ∀ request record, state.records request = some record → record.entry.event = true →
      ∃ other, records request = some other ∧ other.entry = record.entry) :
    Consistent ⟨records, calls, state.answers⟩ where
  valid := valid
  answered := by
    intro request response given body replyHeader debug carries
    obtain ⟨record, found, set, same⟩ :=
      consistent.answered request response given body replyHeader debug carries
    obtain ⟨other, there, entry⟩ := kept request record found set
    exact ⟨other, there, by rw [entry]; exact set, by rw [entry]; exact same⟩

/-- One record changes. -/
theorem Consistent.update {state : State} (consistent : Consistent state) (calls : Nat → Call)
    {request : Text} {next : Record} (valid : Valid next)
    (kept : ∀ record, state.records request = some record → record.entry.event = true →
      next.entry = record.entry) :
    Consistent ⟨Function.update state.records request (some next), calls, state.answers⟩ := by
  apply consistent.of_records
  · intro other record found
    by_cases same : other = request
    · rw [same, Function.update_self] at found
      exact Option.some.inj found ▸ valid
    · rw [Function.update_of_ne same] at found
      exact consistent.valid other record found
  · intro other record found set
    by_cases same : other = request
    · rw [same] at found ⊢
      exact ⟨next, Function.update_self _ _ _, kept record found set⟩
    · exact ⟨record, by rwa [Function.update_of_ne same], rfl⟩

theorem Valid.relisted {record : Record} (valid : Valid record) (listed : Bool) :
    Valid { record with listed := listed } :=
  ⟨valid.streaming, valid.done, valid.paired⟩

theorem consistent_pop {state : State} (consistent : Consistent state) (request : Text) :
    Consistent (state.pop request) := by
  unfold State.pop
  cases found : state.records request with
  | none =>
      have same : Function.update state.records request none = state.records := by
        rw [← found, Function.update_eq_self]
      rw [Option.map_none, same]
      exact consistent
  | some record =>
      apply consistent.update
      · exact (consistent.valid request record found).relisted false
      · intro other there _
        rw [found] at there
        cases there
        rfl

theorem consistent_answer {state : State} (consistent : Consistent state) {call : Nat}
    {request : Text} {response : Response} (answered : Answered state request response) :
    Consistent (state.answer call request response) where
  valid := consistent.valid
  answered := by
    intro other given member
    rcases List.mem_append.mp member with earlier | last
    · exact consistent.answered other given earlier
    · cases List.mem_singleton.mp last
      exact answered

theorem consistent_init : Consistent service.init where
  valid := by
    intro request record found
    contradiction
  answered := by
    intro request response given
    contradiction

theorem step_consistent {state next : State} {label : Label} (consistent : Consistent state)
    (stepped : step state label = some next) : Consistent next := by
  cases label with
  | turn request unitId now =>
      simp only [step] at stepped
      split_ifs at stepped with taken
      obtain rfl := Option.some.inj stepped
      apply consistent.update _ (valid_voiceTurnEntry unitId now)
      intro record found
      simp [found] at taken
  | task request input =>
      simp only [step, Option.bind_eq_bind, Option.bind_eq_some_iff] at stepped
      obtain ⟨record, found, moved, ran, same⟩ := stepped
      cases same
      obtain ⟨valid, kept⟩ := taskStep_valid (consistent.valid request record found) ran
      apply consistent.update _ valid
      intro other there
      rw [found] at there
      cases there
      exact kept
  | get call request =>
      simp only [step] at stepped
      split_ifs at stepped
      · obtain rfl := Option.some.inj stepped
        exact ⟨consistent.valid, consistent.answered⟩
      · obtain rfl := Option.some.inj stepped
        exact consistent_answer consistent (by simp [Answered])
  | wake call =>
      simp only [step] at stepped
      split at stepped
      · rename_i request here
        simp only [Option.bind_eq_bind, Option.bind_eq_some_iff] at stepped
        obtain ⟨record, found, ready⟩ := stepped
        split_ifs at ready with set
        obtain rfl := Option.some.inj ready
        apply consistent_answer (consistent_pop consistent request)
        intro body replyHeader debug carries
        refine ⟨{ record with listed := false }, ?_, set, rfl⟩
        simp [State.pop, found]
      · contradiction
  | timeout call =>
      simp only [step] at stepped
      split at stepped
      · obtain rfl := Option.some.inj stepped
        exact consistent_answer (consistent_pop consistent _) (by simp [Answered])
      · contradiction
  | sweep now =>
      obtain rfl := Option.some.inj stepped
      apply consistent.of_records
      · intro request record found
        obtain ⟨before, there, rfl⟩ := Option.map_eq_some_iff.mp found
        exact (consistent.valid request before there).relisted _
      · intro request record found _
        exact ⟨sweepRecord now record, by simp [found], rfl⟩

/-- What a 200 answer is entitled to carry: a wav, and a text of the same request
that belongs to it. -/
def Whole (state : State) (request : Text) (body : Option (List UInt8)) (replyHeader : Text) :
    Prop :=
  ∃ record wav replyText, state.records request = some record ∧ body = some wav ∧
    replyHeader = hdrSafe replyText ∧ Paired record.produced wav replyText

/-- However tasks, calls and sweeps interleave, and whatever stage raises, no
answer carries half a result. -/
theorem result_whole {labels : List Label} {final : State}
    (ran : service.run labels = some final) :
    ∀ request body replyHeader debug,
      (request, Response.ok body replyHeader debug) ∈ final.answers →
      Whole final request body replyHeader := by
  have consistent : Consistent final := Machine.invariant consistent_init
    (fun _ _ _ kept stepped => step_consistent kept stepped) ran
  intro request body replyHeader debug given
  obtain ⟨record, found, set, same⟩ := consistent.answered request _ given _ _ _ rfl
  obtain ⟨wav, replyText, filled, answered, paired⟩ :=
    (consistent.valid request record found).paired set
  simp only [resultResponse, answered, filled, Response.ok.injEq] at same
  obtain ⟨rfl, rfl, -⟩ := same
  exact ⟨record, wav, replyText, found, rfl, rfl, paired⟩

/-- A turn without a unit, awaited by two calls. -/
def sharedRun : List Label :=
  [.turn ['a'] none 0, .get 0 ['a'], .get 1 ['a'], .task ['a'] .start,
    .task ['a'] (.stage2 (some ("All done.".toList, ⟨7, 3⟩)) (some ⟨16000, by decide⟩)
      ⟨[[1, 0], [2, 0]], true⟩),
    .wake 0, .wake 1]

theorem result_whole_shared :
    ∃ final, service.run sharedRun = some final ∧
      Whole final ['a'] (wrapWav [1, 0, 2, 0] 16000) "All done.".toList := by
  have answers : (service.run sharedRun).map State.answers =
      some (List.replicate 2 (['a'], .ok (wrapWav [1, 0, 2, 0] 16000) "All done.".toList
        (some ⟨7, 3⟩))) := by
    decide +kernel
  obtain ⟨final, ran, given⟩ := Option.map_eq_some_iff.mp answers
  exact ⟨final, ran, result_whole ran _ _ _ _ (by rw [given]; exact List.mem_cons_self)⟩

end WallUnit.Server.Pending
