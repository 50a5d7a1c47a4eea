import WallUnit.Server.ExtractJson
import WallUnit.Server.Router
import WallUnit.Server.VoiceTurn

/-!
Owns `route` of `router.py`: which models are asked, in which order, and what becomes of their
answers, the exceptions of a call, of `json.loads` and of `float` among them. Whatever a model
answers or raises, `route` returns a decision that passes `_validate` and says where it comes
from: `route_decides`.

Does not own the HTTP exchange with a model, `json.loads` or how Python writes a float; they are
the `Models`.
-/

namespace WallUnit.Server.Route

open WallUnit.Foundations.Python
open WallUnit.Server.ExtractJson (extractJson)
open WallUnit.Server.VoiceTurn (Stages Request voiceTurn)

inductive Tier where
  | llama3b
  | gptOss120b
deriving DecidableEq, Repr

/-- `_router_model` of a tier's decision. -/
def Tier.name : Tier → Text
  | .llama3b => "llama-3b".toList
  | .gptOss120b => "gpt-oss-120b".toList

/-- An `Exception`, as far as the code tells them apart. -/
inductive Raised where
  | typeError
  | valueError
  | other
deriving DecidableEq, Repr

/-- Whether a float is zero, and its text. -/
abbrev Float64 := Bool × Text

/-- What `route` calls. `loads` is `json.loads`, and `none` is its `JSONDecodeError`. `reply` is
`_call_llm`, whose answer need not be a string. `confident` is the comparison with
`CONFIDENCE_THRESHOLD`. -/
structure Models where
  loads : Text → Option (Except Raised Value)
  floatOfInt : Int → Except Raised Float64
  floatOfStr : Text → Except Raised Float64
  confident : Float64 → Bool
  reply : Tier → Text → Except Raised Value

def confidenceKey : Text := "confidence".toList

def modelKey : Text := "_router_model".toList

/-- `float(value)`. -/
def Models.toFloat (models : Models) : Value → Except Raised Float64
  | .float zero text => .ok (zero, text)
  | .bool true => .ok (false, "1.0".toList)
  | .bool false => .ok (true, "0.0".toList)
  | .int value => models.floatOfInt value
  | .str text => models.floatOfStr text
  | .none | .list _ | .dict _ => .error .typeError

/-- `raw[:300]`, which the log shows of an answer. -/
def logged : Value → Except Raised Unit
  | .str _ | .list _ => .ok ()
  | .none | .bool _ | .int _ | .float _ _ => .error .typeError
  -- a `TypeError` or a `KeyError`, by the version of Python
  | .dict _ => .error .other

/-- `_extract_json`, of whatever the model answered. -/
def Models.extract (models : Models) : Value → Except Raised (Option Value)
  | .str raw =>
      match extractJson models.loads raw with
      | none => .ok none
      | some loaded => loaded.map some
  -- what is not a string has no `strip`
  | value => if value.truthy then .error .other else .ok none

/-- `_validate`, with the object as it leaves it and the float in it. -/
def Models.validated (models : Models) (decision : Dict) :
    Except Raised (Option (Dict × Float64)) :=
  if ∀ field ∈ requiredFields, (decision.get? field).isSome = true then
    match (decision.get? confidenceKey).map models.toFloat with
    | some (.ok float) =>
        .ok (some (decision.set confidenceKey (.float float.1 float.2), float))
    | some (.error .typeError) | some (.error .valueError) => .ok none
    -- an integer too large for a float is an `OverflowError`, which `_validate` lets through
    | some (.error .other) | none => .error .other
  else .ok none

/-- A tier's answer, as far as `route` accepts it. -/
def Models.ask (models : Models) (tier : Tier) (transcript : Text) :
    Except Raised (Option (Dict × Float64)) := do
  let raw ← models.reply tier transcript
  logged raw
  match ← models.extract raw with
  | some (.dict decision) => if decision = [] then pure none else models.validated decision
  | _ => pure none

/-- The decision about an empty transcript. -/
def silentDecision : Dict :=
  [("intent".toList, .str "system".toList), ("latency_class".toList, .str "instant".toList),
    ("verbal_response".toList, .str "answer_only".toList),
    ("tool".toList, .str "llm_chat".toList),
    ("params".toList, .dict [("prompt".toList, .str "User said nothing.".toList)]),
    ("confidence".toList, .float false "1.0".toList),
    ("fallback_reason".toList, .str "empty_transcript".toList),
    ("_router_model".toList, .str "none".toList)]

/-- The decision if no model made one. -/
def fallbackDecision (transcript : Text) : Dict :=
  [("intent".toList, .str "chat".toList), ("latency_class".toList, .str "quick".toList),
    ("verbal_response".toList, .str "answer_only".toList),
    ("tool".toList, .str "llm_chat".toList),
    ("params".toList, .dict [("prompt".toList, .str transcript)]),
    ("confidence".toList, .float true "0.0".toList),
    ("fallback_reason".toList, .str "all_routers_failed".toList),
    ("_router_model".toList, .str "fallback".toList)]

/-- `obj["_router_model"] = …`. -/
def tagged (tier : Tier) (decision : Dict) : Dict := decision.set modelKey (.str tier.name)

/-- The first `try` of `route`: a decision, if the 3B model is sure of it. -/
def Models.firstTry (models : Models) (transcript : Text) : Except Raised (Option Dict) :=
  tryCatch
    (do
      match ← models.ask .llama3b transcript with
      | some (decision, confidence) =>
          let parsed := tagged .llama3b decision
          if models.confident confidence then pure (some parsed) else pure none
      | none => pure none)
    fun _ => pure none

/-- The second `try`. -/
def Models.secondTry (models : Models) (transcript : Text) : Except Raised (Option Dict) :=
  tryCatch
    (do
      match ← models.ask .gptOss120b transcript with
      | some (decision, _) => pure (some (tagged .gptOss120b decision))
      | none => pure none)
    fun _ => pure none

/-- `route`, and the tiers it has asked. -/
def Models.route (models : Models) (transcript : Text) : Except Raised (Dict × List Tier) := do
  if strip transcript = [] then
    pure (silentDecision, [])
  else
    match ← models.firstTry transcript with
    | some decision => pure (decision, [.llama3b])
    | none =>
        match ← models.secondTry transcript with
        | some decision => pure (decision, [.llama3b, .gptOss120b])
        | none => pure (fallbackDecision transcript, [.llama3b, .gptOss120b])

/-! ### Decisions -/

/-- The decision is the object that the tier wrote, with its confidence as a float and the
tier's name added. -/
def Wrote (models : Models) (tier : Tier) (transcript : Text) (decision : Dict) : Prop :=
  ∃ (raw : Text) (written : Dict) (confidence : Value) (float : Float64),
    models.reply tier transcript = .ok (.str raw) ∧
    extractJson models.loads raw = some (.ok (.dict written)) ∧
    (∀ field ∈ requiredFields, (written.get? field).isSome = true) ∧
    written.get? confidenceKey = some confidence ∧ models.toFloat confidence = .ok float ∧
    decision.get? modelKey = some (.str tier.name) ∧
    decision.get? confidenceKey = some (.float float.1 float.2) ∧
    ∀ key, key ≠ modelKey → key ≠ confidenceKey → decision.get? key = written.get? key

/-- The tier's answer is a valid decision. -/
def Models.Answers (models : Models) (tier : Tier) (transcript : Text) (float : Float64) : Prop :=
  ∃ decision, models.ask tier transcript = .ok (some (decision, float))

/-- Where a decision comes from, and which tiers have been asked for it. -/
inductive Origin (models : Models) (transcript : Text) : Dict → List Tier → Prop
  | silent (nothing : strip transcript = []) : Origin models transcript silentDecision []
  | llama (decision : Dict) (wrote : Wrote models .llama3b transcript decision)
      (confident : ∀ zero text, decision.get? confidenceKey = some (.float zero text) →
        models.confident (zero, text) = true) :
      Origin models transcript decision [.llama3b]
  | gptOss (decision : Dict) (wrote : Wrote models .gptOss120b transcript decision) :
      Origin models transcript decision [.llama3b, .gptOss120b]
  | fallback (unanswered : ∀ float, ¬ models.Answers .gptOss120b transcript float) :
      Origin models transcript (fallbackDecision transcript) [.llama3b, .gptOss120b]

section

variable {models : Models} {transcript : Text}

/-- A computation goes through if both of its parts do. -/
theorem bind_eq_ok_iff {α β : Type} {first : Except Raised α} {next : α → Except Raised β}
    {result : β} :
    (first >>= next) = .ok result ↔ ∃ value, first = .ok value ∧ next value = .ok result := by
  cases first with
  | error raised => simp [bind, Except.bind]
  | ok value => simp [bind, Except.bind]

theorem validate_iff (python : Interpreter) (decision : Dict) :
    validate python decision = true ↔
      (∀ field ∈ requiredFields, (decision.get? field).isSome = true) ∧
        ∃ value, decision.get? confidenceKey = some value ∧
          convertsToFloat python value = true := by
  have unfolded : validate python decision =
      (requiredFields.all (fun field => (decision.get? field).isSome) &&
        (decision.get? confidenceKey).any (convertsToFloat python)) := rfl
  rw [unfolded, Bool.and_eq_true, List.all_eq_true]
  refine and_congr_right fun _ => ?_
  cases decision.get? confidenceKey with
  | none => simp
  | some value => simp

/-- What `_validate` leaves of an object it accepts. -/
theorem validated_cases {decision checked : Dict} {float : Float64}
    (accepted : models.validated decision = .ok (some (checked, float))) :
    (∀ field ∈ requiredFields, (decision.get? field).isSome = true) ∧
      (∃ value, decision.get? confidenceKey = some value ∧ models.toFloat value = .ok float) ∧
      checked = decision.set confidenceKey (.float float.1 float.2) := by
  rw [Models.validated] at accepted
  split_ifs at accepted with complete
  · split at accepted
    · next other converted =>
        obtain ⟨value, found, made⟩ := Option.map_eq_some_iff.mp converted
        obtain ⟨rfl, rfl⟩ := Prod.mk.inj (Option.some.inj (Except.ok.inj accepted))
        exact ⟨complete, ⟨value, found, made⟩, rfl⟩
    all_goals cases accepted
  · cases accepted

theorem extract_cases {raw : Value} {written : Dict}
    (extracted : models.extract raw = .ok (some (.dict written))) :
    ∃ text, raw = .str text ∧ extractJson models.loads text = some (.ok (.dict written)) := by
  unfold Models.extract at extracted
  split at extracted
  · next text =>
      split at extracted
      · cases extracted
      · next loaded found =>
          cases loaded with
          | error raised => cases extracted
          | ok value =>
              cases extracted
              exact ⟨text, rfl, found⟩
  · split_ifs at extracted
    cases extracted

theorem ask_cases {tier : Tier} {checked : Dict} {float : Float64}
    (asked : models.ask tier transcript = .ok (some (checked, float))) :
    ∃ (raw : Text) (written : Dict), models.reply tier transcript = .ok (.str raw) ∧
      extractJson models.loads raw = some (.ok (.dict written)) ∧
      models.validated written = .ok (some (checked, float)) := by
  unfold Models.ask at asked
  obtain ⟨raw, replied, rest⟩ := bind_eq_ok_iff.mp asked
  obtain ⟨-, -, rest⟩ := bind_eq_ok_iff.mp rest
  obtain ⟨parsed, extracted, accepted⟩ := bind_eq_ok_iff.mp rest
  split at accepted
  · split_ifs at accepted
    · cases accepted
    · obtain ⟨text, rfl, found⟩ := extract_cases extracted
      exact ⟨text, _, replied, found, accepted⟩
  · cases accepted

theorem modelKey_ne_confidenceKey : modelKey ≠ confidenceKey := by decide

/-- What a tier's answer becomes. -/
theorem wrote_of_ask {tier : Tier} {checked : Dict} {float : Float64}
    (asked : models.ask tier transcript = .ok (some (checked, float))) :
    Wrote models tier transcript (tagged tier checked) ∧
      (tagged tier checked).get? confidenceKey = some (.float float.1 float.2) := by
  obtain ⟨raw, written, replied, extracted, accepted⟩ := ask_cases asked
  obtain ⟨complete, ⟨value, found, converted⟩, rfl⟩ := validated_cases accepted
  have confidence : (tagged tier (written.set confidenceKey (.float float.1 float.2))).get?
      confidenceKey = some (.float float.1 float.2) := by
    rw [tagged, Dict.get?_set_ne modelKey_ne_confidenceKey.symm, Dict.get?_set_self]
  refine ⟨⟨raw, written, value, float, replied, extracted, complete, found, converted,
    Dict.get?_set_self, confidence, ?_⟩, confidence⟩
  intro key notModel notConfidence
  rw [tagged, Dict.get?_set_ne notModel, Dict.get?_set_ne notConfidence]

/-- Whatever the 3B model does, the first `try` ends without an exception. -/
theorem firstTry_cases (models : Models) (transcript : Text) :
    (∃ decision float, models.ask .llama3b transcript = .ok (some (decision, float)) ∧
      models.confident float = true ∧
      models.firstTry transcript = .ok (some (tagged .llama3b decision))) ∨
    ((∀ float, models.Answers .llama3b transcript float → models.confident float = false) ∧
      models.firstTry transcript = .ok none) := by
  unfold Models.firstTry Models.Answers
  cases asked : models.ask .llama3b transcript with
  | error raised => exact Or.inr ⟨fun float ⟨_, answered⟩ => (by cases answered), rfl⟩
  | ok answer =>
      cases answer with
      | none => exact Or.inr ⟨fun float ⟨_, answered⟩ => (by cases answered), rfl⟩
      | some pair =>
          obtain ⟨decision, float⟩ := pair
          dsimp only [bind, Except.bind]
          cases confident : models.confident float with
          | true => exact Or.inl ⟨decision, float, rfl, confident, rfl⟩
          | false =>
              refine Or.inr ⟨?_, rfl⟩
              rintro other ⟨_, answered⟩
              cases answered
              exact confident

/-- And so does the second. -/
theorem secondTry_cases (models : Models) (transcript : Text) :
    (∃ decision float, models.ask .gptOss120b transcript = .ok (some (decision, float)) ∧
      models.secondTry transcript = .ok (some (tagged .gptOss120b decision))) ∨
    ((∀ float, ¬ models.Answers .gptOss120b transcript float) ∧
      models.secondTry transcript = .ok none) := by
  unfold Models.secondTry Models.Answers
  cases asked : models.ask .gptOss120b transcript with
  | error raised => exact Or.inr ⟨fun float ⟨_, answered⟩ => (by cases answered), rfl⟩
  | ok answer =>
      cases answer with
      | none => exact Or.inr ⟨fun float ⟨_, answered⟩ => (by cases answered), rfl⟩
      | some pair => exact Or.inl ⟨pair.1, pair.2, rfl, rfl⟩

/-- What `route` returns. -/
theorem route_cases (models : Models) (transcript : Text) :
    ∃ decision asked, models.route transcript = .ok (decision, asked) ∧
      Origin models transcript decision asked ∧
      (asked = [] ↔ strip transcript = []) ∧
      (asked = [.llama3b] ↔ strip transcript ≠ [] ∧
        ∃ float, models.Answers .llama3b transcript float ∧ models.confident float = true) := by
  unfold Models.route
  by_cases nothing : strip transcript = []
  · rw [if_pos nothing]
    exact ⟨_, _, rfl, .silent nothing, by simp [nothing], by simp [nothing]⟩
  · rw [if_neg nothing]
    rcases firstTry_cases models transcript with
      ⟨decision, float, answered, confident, first⟩ | ⟨unsure, first⟩
    · obtain ⟨wrote, found⟩ := wrote_of_ask answered
      rw [first]
      refine ⟨_, _, rfl, .llama _ wrote fun zero text same => ?_, by simp [nothing], ?_⟩
      · rw [found] at same
        obtain ⟨rfl, rfl⟩ := Value.float.inj (Option.some.inj same)
        exact confident
      · exact iff_of_true rfl ⟨nothing, float, ⟨decision, answered⟩, confident⟩
    · have notSure : ¬ ∃ float, models.Answers .llama3b transcript float ∧
          models.confident float = true := by
        rintro ⟨float, answers, confident⟩
        rw [unsure float answers] at confident
        cases confident
      rw [first]
      dsimp only [bind, Except.bind]
      rcases secondTry_cases models transcript with
        ⟨decision, float, answered, second⟩ | ⟨unanswered, second⟩
      · rw [second]
        exact ⟨_, _, rfl, .gptOss _ (wrote_of_ask answered).1, by simp [nothing],
          by simp [notSure]⟩
      · rw [second]
        exact ⟨_, _, rfl, .fallback unanswered, by simp [nothing], by simp [notSure]⟩

/-! ### What the server does with them -/

theorem Wrote.valid {tier : Tier} {decision : Dict}
    (wrote : Wrote models tier transcript decision) :
    (∀ field ∈ requiredFields, (decision.get? field).isSome = true) ∧
      ∃ zero text, decision.get? confidenceKey = some (.float zero text) := by
  obtain ⟨-, written, -, float, -, -, fields, -, -, -, confidence, others⟩ := wrote
  refine ⟨fun field required => ?_, _, _, confidence⟩
  by_cases same : field = confidenceKey
  · rw [same, confidence]
    rfl
  · have notModel : field ≠ modelKey := by
      rintro rfl
      exact absurd required (by decide)
    rw [others field notModel same]
    exact fields field required

theorem Origin.valid {decision : Dict} {asked : List Tier}
    (origin : Origin models transcript decision asked) :
    (∀ field ∈ requiredFields, (decision.get? field).isSome = true) ∧
      ∃ zero text, decision.get? confidenceKey = some (.float zero text) := by
  cases origin with
  | silent nothing => exact ⟨by decide, _, _, rfl⟩
  | llama decision wrote confident => exact wrote.valid
  | gptOss decision wrote => exact wrote.valid
  | fallback unanswered =>
      refine ⟨fun field required => ?_, _, _, rfl⟩
      fin_cases required <;> rfl

/-- `_validate` accepts a complete decision with a float. -/
theorem validated_of_complete {decision : Dict} {zero : Bool} {text : Text}
    (complete : ∀ field ∈ requiredFields, (decision.get? field).isSome = true)
    (confidence : decision.get? confidenceKey = some (.float zero text)) :
    models.validated decision =
        .ok (some (decision.set confidenceKey (.float zero text), zero, text)) ∧
      ∀ python, validate python decision = true := by
  refine ⟨?_, fun python => (validate_iff python decision).mpr ⟨complete, _, confidence, rfl⟩⟩
  rw [Models.validated, if_pos complete, confidence]
  rfl

/-- A turn leaves a pending result only for a decision that is slow. -/
theorem created_slow {stages : Stages} {request : Request} {entry : VoiceTurn.Created}
    (created : (voiceTurn stages request).2 = some entry) :
    entry.decision = (stages.route entry.transcript).getD
        (VoiceTurn.fallbackDecision entry.transcript) ∧
      fieldIs entry.decision "latency_class".toList "slow".toList = true := by
  have single (transcript : Text) (decision : Dict) :
      (VoiceTurn.singlePhase stages transcript decision).2 = none := by
    unfold VoiceTurn.singlePhase
    dsimp only
    split <;> rfl
  unfold voiceTurn at created
  split at created
  · cases created
  · split at created
    · cases created
    · split_ifs at created
      · cases created
      · unfold VoiceTurn.answer at created
        split_ifs at created with slow
        · split at created
          · split_ifs at created
            · cases created
              exact ⟨rfl, ((Bool.and_eq_true _ _).mp slow).1⟩
            · rw [single] at created
              cases created
          · rw [single] at created
            cases created
        · rw [single] at created
          cases created

theorem Origin.wrote_of_slow {decision : Dict} {asked : List Tier}
    (origin : Origin models transcript decision asked)
    (slow : fieldIs decision "latency_class".toList "slow".toList = true) :
    ∃ tier ∈ asked, Wrote models tier transcript decision := by
  cases origin with
  | silent nothing => exact absurd slow (by decide)
  | llama decision wrote confident => exact ⟨_, List.mem_singleton_self _, wrote⟩
  | gptOss decision wrote => exact ⟨_, by simp, wrote⟩
  | fallback unanswered => cases slow

end

/-- For every transcript and whatever the models answer or raise: `route` raises nothing; the
decision passes `_validate` with a float for its confidence; it is a constant, or the object that
a model wrote with its name added, the first model's only if it is confident and the second's only
if the first was not; and a turn of the server that routes so leaves a pending result only for
what a model wrote. -/
theorem route_decides (models : Models) (transcript : Text) :
    (∃ decision asked, models.route transcript = .ok (decision, asked) ∧
      (∃ zero text, decision.get? confidenceKey = some (.float zero text) ∧
        models.validated decision =
          .ok (some (decision.set confidenceKey (.float zero text), zero, text)) ∧
        ∀ python, validate python decision = true) ∧
      Origin models transcript decision asked ∧
      (asked = [] ↔ strip transcript = []) ∧
      (asked = [.llama3b] ↔ strip transcript ≠ [] ∧
        ∃ float, models.Answers .llama3b transcript float ∧ models.confident float = true)) ∧
    ∀ stages request entry,
      stages.route = (fun said => (models.route said).toOption.map Prod.fst) →
      (voiceTurn stages request).2 = some entry →
      ∃ asked, models.route entry.transcript = .ok (entry.decision, asked) ∧
        ∃ tier ∈ asked, Wrote models tier entry.transcript entry.decision := by
  refine ⟨?_, fun stages request entry routes created => ?_⟩
  · obtain ⟨decision, asked, returned, origin, none, llama⟩ := route_cases models transcript
    obtain ⟨complete, zero, text, confidence⟩ := origin.valid
    exact ⟨decision, asked, returned,
      ⟨zero, text, confidence, validated_of_complete complete confidence⟩, origin, none, llama⟩
  · obtain ⟨decided, slow⟩ := created_slow created
    obtain ⟨decision, asked, returned, origin, -⟩ := route_cases models entry.transcript
    have made : entry.decision = decision := by
      rw [decided, routes]
      dsimp only
      rw [returned]
      rfl
    rw [made] at slow ⊢
    exact ⟨asked, returned, origin.wrote_of_slow slow⟩

/-! ### A turn the first model is unsure of -/

def said : Text := "what is on today".toList

/-- What the 3B model answers. -/
def doubtedText : Text :=
  ["\x7b\"intent\":\"chat\",", "\"latency_class\":\"quick\",",
    "\"verbal_response\":\"answer_only\",", "\"tool\":\"llm_chat\",", "\"params\":\x7b\x7d,",
    "\"confidence\":0.3\x7d"].flatMap String.toList

def doubtedDecision : Dict :=
  [("intent".toList, .str "chat".toList), ("latency_class".toList, .str "quick".toList),
    ("verbal_response".toList, .str "answer_only".toList),
    ("tool".toList, .str "llm_chat".toList), ("params".toList, .dict []),
    ("confidence".toList, .float false "0.3".toList)]

/-- What the 120B model answers. -/
def slowText : Text :=
  ["\x7b\"intent\":\"calendar\",", "\"latency_class\":\"slow\",",
    "\"verbal_response\":\"acknowledge_first\",", "\"tool\":\"n8n_calendar\",",
    "\"params\":\x7b\"query\":\"today\"\x7d,", "\"ack_phrase\":\"Let me check\",",
    "\"confidence\":0.95\x7d"].flatMap String.toList

def slowDecision : Dict :=
  [("intent".toList, .str "calendar".toList), ("latency_class".toList, .str "slow".toList),
    ("verbal_response".toList, .str "acknowledge_first".toList),
    ("tool".toList, .str "n8n_calendar".toList),
    ("params".toList, .dict [("query".toList, .str "today".toList)]),
    ("ack_phrase".toList, .str "Let me check".toList),
    ("confidence".toList, .float false "0.95".toList)]

/-- The 3B model is unsure, and the 120B model puts its answer behind some words. -/
def doubtingModels : Models where
  loads := fun text =>
    if text = doubtedText then some (.ok (.dict doubtedDecision))
    else if text = slowText then some (.ok (.dict slowDecision))
    else none
  floatOfInt := fun _ => .error .other
  floatOfStr := fun _ => .error .valueError
  confident := fun float => float.2 = "0.95".toList
  reply := fun tier _ =>
    match tier with
    | .llama3b => .ok (.str doubtedText)
    | .gptOss120b => .ok (.str ("The intent is: ".toList ++ slowText))

theorem fits_sampleRate : 22050 < 2 ^ 31 := by decide

def doubtingStages : Stages where
  python := .ascii (fun _ => []) (fun _ => false)
  library := ⟨Unit, false, fun _ _ => .error "", fun _ _ _ => .error ""⟩
  parseInt := fun _ => none
  transcribe := fun _ => some said
  isAlpha := Transcript.asciiAlpha
  route := fun transcript => (doubtingModels.route transcript).toOption.map Prod.fst
  voice := some ⟨22050, fits_sampleRate⟩
  piper := fun _ => some [[1, 2]]
  stage2 := fun _ _ => none
  requestId := ⟨"5e1f00c0ffee".toList, rfl, by simp⟩
  latencyMs := 420
  routeMs := 180

def wavRequest : Request := ⟨[], none, none, none, none, none⟩

/-- What the turn leaves pending. -/
theorem doubting_created :
    ((voiceTurn doubtingStages wavRequest).2.map fun entry =>
      (entry.transcript, (entry.decision.get? modelKey).any (Value.isStr Tier.gptOss120b.name))) =
        some (said, true) := by
  decide +kernel

theorem doubting_asked :
    (doubtingModels.route said).map Prod.snd = .ok [.llama3b, .gptOss120b] := by
  decide +kernel

theorem route_decides_doubted :
    (∃ decision, doubtingModels.route said = .ok (decision, [.llama3b, .gptOss120b]) ∧
      Origin doubtingModels said decision [.llama3b, .gptOss120b]) ∧
    ∃ entry, (voiceTurn doubtingStages wavRequest).2 = some entry ∧
      Wrote doubtingModels .gptOss120b said entry.decision := by
  obtain ⟨⟨decision, asked, returned, -, origin, -⟩, pending⟩ := route_decides doubtingModels said
  have both := doubting_asked
  rw [returned] at both
  obtain rfl : asked = [.llama3b, .gptOss120b] := Except.ok.inj both
  obtain ⟨entry, created, told⟩ := Option.map_eq_some_iff.mp doubting_created
  obtain ⟨heard, named⟩ := Prod.mk.inj told
  obtain ⟨-, -, tier, -, wrote⟩ := pending doubtingStages wavRequest entry rfl created
  rw [heard] at wrote
  refine ⟨⟨decision, returned, origin⟩, entry, created, ?_⟩
  cases tier with
  | gptOss120b => exact wrote
  | llama3b =>
      obtain ⟨-, -, -, -, -, -, -, -, -, key, -⟩ := wrote
      rw [key] at named
      exact absurd named (by decide)

end WallUnit.Server.Route
