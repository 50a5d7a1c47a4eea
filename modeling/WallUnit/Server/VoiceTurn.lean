import WallUnit.Server.Composer
import WallUnit.Server.OpusDecode
import WallUnit.Server.Transcript

/-!
Owns `POST /voice_turn` of `voice_server.py`: what the handler answers for every outcome of its
stages, with the headers of each answer, and the pending result it creates. `voiceTurn_one_line`
says that nothing a speaker, a model or a service returns can break out of a header.

Does not own the stages. What whisper, the router, Piper and the second stage return, or that
they raise, is an input; so are the clock and the fresh request id.
-/

namespace WallUnit.Server.VoiceTurn

open WallUnit.Foundations.Python
open WallUnit.Server.OpusDecode (Opuslib decodeDwuOpus)
open WallUnit.Server.Transcript (isRoutableTranscript)
open WallUnit.Server.Pending (hdrSafe splitSpace wrapWav Debug)
open WallUnit.Server.Streaming (RequestId Voice)

/-! ### Stages -/

/-- The request. A header may be missing. -/
structure Request where
  body : List UInt8
  unitId : Option Text
  contentType : Option Text
  opusRate : Option Text
  opusChannels : Option Text
  opusFrameMs : Option Text
deriving DecidableEq, Repr

/-- What the handler calls; `none` is an exception. `parseInt` is `int(…)` of a header. -/
structure Stages where
  python : Interpreter
  library : Opuslib
  parseInt : Text → Option Int
  transcribe : List UInt8 → Option Text
  isAlpha : Char → Bool
  route : Text → Option Dict
  voice : Option Voice
  piper : Text → Option (List (List UInt8))
  stage2 : Text → Dict → Option (Text × Debug)
  requestId : RequestId
  latencyMs : Nat
  routeMs : Nat

/-- `synthesize`. -/
def Stages.synthesize (stages : Stages) (text : Text) : Option (List UInt8) :=
  stages.voice.bind fun voice =>
    (stages.piper text).bind fun chunks => wrapWav chunks.flatten voice.sampleRate

/-- The unit id the server takes from a text, `(… or "").strip().lower()` on ASCII, if one is
left. `ws_handler` reads a `hello` the same way. -/
def unitIdOf (text : Text) : Option Text :=
  let unitId := (strip text).map Char.toLower
  if unitId = [] then none else some unitId

/-- `int(request.headers.get(name) or default)`. -/
def Stages.intHeader (stages : Stages) (header : Option Text) (default : Int) : Option Int :=
  match header with
  | none | some [] => some default
  | some text => stages.parseInt text

/-- The WAV for whisper: the body, or what its Opus frames decode to. -/
def Stages.wavIn (stages : Stages) (request : Request) : Option (List UInt8) :=
  let contentType := stages.python.lower (request.contentType.getD [])
  if contains "x-dwu-opus".toList contentType then do
    let rate ← stages.intHeader request.opusRate 16000
    let channels ← stages.intHeader request.opusChannels 1
    let frameMs ← stages.intHeader request.opusFrameMs 20
    (decodeDwuOpus stages.library request.body rate channels frameMs).toOption
  else some request.body

/-- The decision when the router raises. -/
def fallbackDecision (transcript : Text) : Dict :=
  [("intent".toList, .str "chat".toList), ("latency_class".toList, .str "quick".toList),
    ("verbal_response".toList, .str "answer_only".toList),
    ("tool".toList, .str "llm_chat".toList),
    ("params".toList, .dict [("prompt".toList, .str transcript)]),
    ("confidence".toList, .float true "0.0".toList)]

/-! ### Answers -/

/-- A response. The body of an error is JSON the unit does not look at. -/
structure Reply where
  status : Int
  headers : List (Text × Text)
  body : List UInt8
deriving DecidableEq, Repr

/-- The entry of `_pending` a turn creates, and what its background task works on. -/
structure Created where
  requestId : RequestId
  unitId : Option Text
  transcript : Text
  decision : Dict

def decimal (value : Nat) : Text := Nat.toDigits 10 value

def errorReply (status : Int) : Reply × Option Created := (⟨status, [], []⟩, none)

def droppedReply (stages : Stages) (transcript : Text) : Reply × Option Created :=
  (⟨204, [("X-Transcript".toList, hdrSafe transcript),
    ("X-Dropped-Reason".toList, "non_routable_transcript".toList),
    ("X-Latency-Ms".toList, decimal stages.latencyMs)], []⟩, none)

/-- `str(decision.get(key, ""))`. -/
def shown (python : Interpreter) (decision : Dict) (key : String) : Text :=
  python.format ((decision.get? key.toList).getD (.str []))

def ackReply (stages : Stages) (unitId : Option Text) (transcript ackText : Text)
    (decision : Dict) (ackWav : List UInt8) : Reply × Option Created :=
  (⟨200, [("X-Transcript".toList, hdrSafe transcript), ("X-Reply-Text".toList, hdrSafe ackText),
    ("X-Latency-Ms".toList, decimal stages.latencyMs),
    ("X-DWU-Pending".toList, stages.requestId.text),
    ("X-Router-Intent".toList, hdrSafe (shown stages.python decision "intent")),
    ("X-Router-Ms".toList, decimal stages.routeMs)], ackWav⟩,
    some ⟨stages.requestId, unitId, transcript, decision⟩)

/-- The headers of `debug["router"]`, which is missing when the second stage raised. -/
def routerHeaders (python : Interpreter) (decision : Dict) : List (Text × Text) :=
  if decision = [] then []
  else
    [("X-Router-Model", "_router_model"), ("X-Router-Intent", "intent"),
      ("X-Router-Tool", "tool"), ("X-Router-Confidence", "confidence")].map fun header =>
        (header.1.toList, hdrSafe (shown python decision header.2))

/-- The headers a finished second stage adds. -/
def debugHeaders (stages : Stages) (decision : Dict) : Option Debug → List (Text × Text)
  | none => [("X-Router-Ms".toList, decimal stages.routeMs)]
  | some debug =>
      routerHeaders stages.python decision ++
        [("X-Router-Ms".toList, decimal stages.routeMs),
          ("X-Tool-Ms".toList, decimal debug.toolMs),
          ("X-Compose-Ms".toList, decimal debug.composeMs)]

def answerReply (stages : Stages) (transcript reply : Text) (decision : Dict)
    (debug : Option Debug) (wavOut : List UInt8) : Reply × Option Created :=
  (⟨200, [("X-Transcript".toList, hdrSafe transcript), ("X-Reply-Text".toList, hdrSafe reply),
    ("X-Latency-Ms".toList, decimal stages.latencyMs)] ++ debugHeaders stages decision debug,
    wavOut⟩, none)

/-! ### The handler -/

/-- The single-phase part. -/
def singlePhase (stages : Stages) (transcript : Text) (decision : Dict) :
    Reply × Option Created :=
  let stage2 := stages.stage2 transcript decision
  let reply := (stage2.map Prod.fst).getD "Sorry, something went wrong.".toList
  match stages.synthesize reply with
  | none => errorReply 500
  | some wavOut => answerReply stages transcript reply decision (stage2.map Prod.snd) wavOut

/-- `decision.get("ack_phrase") or "One moment."`, synthesized. Piper raises on what is not a
string. -/
def ackWav (stages : Stages) (decision : Dict) : Option (Text × List UInt8) :=
  match decision.getOr "ack_phrase".toList "One moment.".toList with
  | .str ackText => (stages.synthesize ackText).map fun wav => (ackText, wav)
  | _ => none

/-- From the decision on. -/
def answer (stages : Stages) (unitId : Option Text) (transcript : Text) (decision : Dict) :
    Reply × Option Created :=
  if fieldIs decision "latency_class".toList "slow".toList &&
      fieldIs decision "verbal_response".toList "acknowledge_first".toList then
    match ackWav stages decision with
    | some (ackText, wav) =>
        if wav ≠ [] then ackReply stages unitId transcript ackText decision wav
        else singlePhase stages transcript decision
    | none => singlePhase stages transcript decision
  else singlePhase stages transcript decision

/-- `voice_turn`: the response, and the pending result it leaves behind. -/
def voiceTurn (stages : Stages) (request : Request) : Reply × Option Created :=
  match stages.wavIn request with
  | none => errorReply 400
  | some wavIn =>
      match stages.transcribe wavIn with
      | none => errorReply 500
      | some transcript =>
          if !isRoutableTranscript stages.isAlpha transcript then droppedReply stages transcript
          else
            answer stages (request.unitId.bind unitIdOf) transcript
              ((stages.route transcript).getD (fallbackDecision transcript))

/-! ### Header values are one line -/

/-- No white space but blanks, and so no line break. -/
def OneLine (text : Text) : Prop := ∀ char ∈ text, isSpace char = true → char = ' '

instance : DecidablePred OneLine :=
  List.decidableBAll fun char => isSpace char = true → char = ' '

theorem solid_of_mem_splitOnP {text word : Text} (member : word ∈ text.splitOnP isSpace) :
    ∀ char ∈ word, isSpace char = false := by
  induction text generalizing word with
  | nil =>
      rw [List.mem_singleton.mp member]
      simp
  | cons first rest inductionHypothesis =>
      rw [List.splitOnP_cons_eq_if_modifyHead] at member
      split_ifs at member with white
      · rcases List.mem_cons.mp member with rfl | later
        · simp
        · exact inductionHypothesis later
      · cases pieces : rest.splitOnP isSpace with
        | nil => exact absurd pieces (List.splitOnP_ne_nil _ _)
        | cons head others =>
            rw [pieces, List.modifyHead_cons] at member
            rcases List.mem_cons.mp member with rfl | later
            · have solid := inductionHypothesis (pieces ▸ List.mem_cons_self : head ∈ _)
              exact List.forall_mem_cons.mpr ⟨Bool.not_eq_true _ ▸ white, solid⟩
            · exact inductionHypothesis (pieces ▸ List.mem_cons_of_mem _ later)

/-- Words without white space, joined by blanks. -/
theorem oneLine_intercalate {words : List Text}
    (solid : ∀ word ∈ words, ∀ char ∈ word, isSpace char = false) :
    OneLine (List.intercalate [' '] words) := by
  have blank {word : Text} (member : word ∈ words.intersperse [' ']) :
      word = [' '] ∨ word ∈ words := by
    clear solid
    induction words with
    | nil => contradiction
    | cons first rest inductionHypothesis =>
        cases rest with
        | nil => exact Or.inr member
        | cons second rest =>
            rw [List.intersperse_cons_cons, List.mem_cons, List.mem_cons] at member
            rcases member with rfl | rfl | later
            · exact Or.inr List.mem_cons_self
            · exact Or.inl rfl
            · exact (inductionHypothesis later).imp id (List.mem_cons_of_mem _)
  intro char member white
  obtain ⟨word, among, inside⟩ := List.mem_flatten.mp member
  rcases blank among with rfl | below
  · exact List.mem_singleton.mp inside
  · rw [solid word below char inside] at white
    contradiction

theorem oneLine_hdrSafe (text : Text) : OneLine (hdrSafe text) := by
  have joined : OneLine (List.intercalate [' '] (splitSpace text)) := by
    apply oneLine_intercalate
    intro word member
    exact solid_of_mem_splitOnP (List.mem_filter.mp member).1
  intro char member
  exact joined char (List.mem_of_mem_take member)

/-- A visible ASCII character is no white space. -/
theorem isSpace_of_visible {char : Char} (lower : 33 ≤ char.toNat) (upper : char.toNat < 127) :
    isSpace char = false := by
  simp only [isSpace, Bool.or_eq_false_iff, Bool.and_eq_false_iff, decide_eq_false_iff_not]
  omega

theorem oneLine_of_visible {text : Text}
    (visible : ∀ char ∈ text, 33 ≤ char.toNat ∧ char.toNat < 127) : OneLine text := by
  intro char member white
  obtain ⟨lower, upper⟩ := visible char member
  rw [isSpace_of_visible lower upper] at white
  contradiction

theorem oneLine_decimal (value : Nat) : OneLine (decimal value) := by
  apply oneLine_of_visible
  intro char member
  have digit := Nat.isDigit_of_mem_toDigits (by decide) (by decide) member
  rw [Char.isDigit, Bool.and_eq_true, decide_eq_true_iff, decide_eq_true_iff] at digit
  have lower : 48 ≤ char.toNat := digit.1
  have upper : char.toNat ≤ 57 := digit.2
  omega

theorem oneLine_requestId (requestId : RequestId) : OneLine requestId.text := by
  have hex : ∀ char ∈ "0123456789abcdef".toList, 33 ≤ char.toNat ∧ char.toNat < 127 := by
    simp
  apply oneLine_of_visible
  intro char member
  exact hex char (requestId.hex char member)

/-- The value of every header is one line. Their names are constants. -/
def Reply.OneLined (reply : Reply) : Prop := ∀ header ∈ reply.headers, OneLine header.2

theorem droppedReply_oneLined (stages : Stages) (transcript : Text) :
    (droppedReply stages transcript).1.OneLined := by
  intro header member
  simp only [droppedReply, List.mem_cons, List.not_mem_nil, or_false] at member
  rcases member with rfl | rfl | rfl
  · exact oneLine_hdrSafe _
  · exact oneLine_of_visible (by simp)
  · exact oneLine_decimal _

theorem ackReply_oneLined (stages : Stages) (unitId : Option Text) (transcript ackText : Text)
    (decision : Dict) (ackWav : List UInt8) :
    (ackReply stages unitId transcript ackText decision ackWav).1.OneLined := by
  intro header member
  simp only [ackReply, List.mem_cons, List.not_mem_nil, or_false] at member
  rcases member with rfl | rfl | rfl | rfl | rfl | rfl
  · exact oneLine_hdrSafe _
  · exact oneLine_hdrSafe _
  · exact oneLine_decimal _
  · exact oneLine_requestId _
  · exact oneLine_hdrSafe _
  · exact oneLine_decimal _

theorem routerHeaders_oneLined (python : Interpreter) (decision : Dict) :
    ∀ header ∈ routerHeaders python decision, OneLine header.2 := by
  rw [routerHeaders]
  split_ifs
  · simp
  · intro header member
    simp only [List.map_cons, List.map_nil, List.mem_cons, List.not_mem_nil, or_false] at member
    rcases member with rfl | rfl | rfl | rfl
    all_goals exact oneLine_hdrSafe _

theorem debugHeaders_oneLined (stages : Stages) (decision : Dict) (debug : Option Debug) :
    ∀ header ∈ debugHeaders stages decision debug, OneLine header.2 := by
  intro header member
  cases debug with
  | none =>
      rw [List.mem_singleton.mp member]
      exact oneLine_decimal _
  | some debug =>
      rcases List.mem_append.mp member with router | timing
      · exact routerHeaders_oneLined _ _ header router
      · simp only [List.mem_cons, List.not_mem_nil, or_false] at timing
        rcases timing with rfl | rfl | rfl
        all_goals exact oneLine_decimal _

theorem answerReply_oneLined (stages : Stages) (transcript reply : Text) (decision : Dict)
    (debug : Option Debug) (wavOut : List UInt8) :
    (answerReply stages transcript reply decision debug wavOut).1.OneLined := by
  intro header member
  rcases List.mem_append.mp member with fixed | more
  · simp only [List.mem_cons, List.not_mem_nil, or_false] at fixed
    rcases fixed with rfl | rfl | rfl
    · exact oneLine_hdrSafe _
    · exact oneLine_hdrSafe _
    · exact oneLine_decimal _
  · exact debugHeaders_oneLined _ _ _ header more

/-! ### The four kinds of answer -/

/-- What the handler can answer, and what it then leaves in `_pending`. A body that is played
is a whole WAV container. -/
inductive Answers (stages : Stages) (unitId : Option Text) : Reply × Option Created → Prop
  | error (status : Int) (refused : status = 400 ∨ status = 500) :
      Answers stages unitId (errorReply status)
  | dropped (transcript : Text) : Answers stages unitId (droppedReply stages transcript)
  | ack (transcript ackText : Text) (decision : Dict) (wav : List UInt8)
      (spoken : stages.synthesize ackText = some wav) :
      Answers stages unitId (ackReply stages unitId transcript ackText decision wav)
  | answer (transcript reply : Text) (decision : Dict) (debug : Option Debug) (wav : List UInt8)
      (spoken : stages.synthesize reply = some wav) :
      Answers stages unitId (answerReply stages transcript reply decision debug wav)

theorem singlePhase_answers (stages : Stages) (unitId : Option Text) (transcript : Text)
    (decision : Dict) : Answers stages unitId (singlePhase stages transcript decision) := by
  unfold singlePhase
  dsimp only
  split
  · exact .error 500 (Or.inr rfl)
  · next wav spoken => exact .answer _ _ _ _ _ spoken

theorem ackWav_spoken {stages : Stages} {decision : Dict} {ackText : Text} {wav : List UInt8}
    (found : ackWav stages decision = some (ackText, wav)) :
    stages.synthesize ackText = some wav := by
  unfold ackWav at found
  split at found
  · next text same =>
      obtain ⟨spoken, synthesized, pair⟩ := Option.map_eq_some_iff.mp found
      obtain ⟨rfl, rfl⟩ := Prod.mk.inj pair
      exact synthesized
  · contradiction

theorem answer_answers (stages : Stages) (unitId : Option Text) (transcript : Text)
    (decision : Dict) : Answers stages unitId (answer stages unitId transcript decision) := by
  unfold answer
  split_ifs
  · split
    · next ackText wav found =>
        split_ifs
        · exact .ack _ _ _ _ (ackWav_spoken found)
        · exact singlePhase_answers _ _ _ _
    · exact singlePhase_answers _ _ _ _
  · exact singlePhase_answers _ _ _ _

theorem voiceTurn_answers (stages : Stages) (request : Request) :
    Answers stages (request.unitId.bind unitIdOf) (voiceTurn stages request) := by
  unfold voiceTurn
  split
  · exact .error 400 (Or.inl rfl)
  · split
    · exact .error 500 (Or.inr rfl)
    · split_ifs
      · exact .dropped _
      · exact answer_answers _ _ _ _

/-- **No header can be broken out of**, whatever was said, whatever the models and services
returned and however the turn ends. -/
theorem voiceTurn_one_line (stages : Stages) (request : Request) :
    (voiceTurn stages request).1.OneLined := by
  have answers := voiceTurn_answers stages request
  generalize voiceTurn stages request = turn at answers
  cases answers with
  | error status refused => simp [errorReply, Reply.OneLined]
  | dropped transcript => exact droppedReply_oneLined _ _
  | ack transcript ackText decision wav spoken => exact ackReply_oneLined _ _ _ _ _ _
  | answer transcript reply decision debug wav spoken => exact answerReply_oneLined _ _ _ _ _ _

end WallUnit.Server.VoiceTurn
