import Mathlib.Data.Bool.AllAny
import WallUnit.Server.Router
import WallUnit.Server.Tools

/-!
Owns `composer.py` and the second stage of a turn, dispatch and compose, and the
question whether "Got it." is an honest answer to a device command. The composer
only sees the tool's text, so it is exactly when that text is classified right:
`honest_iff_classified`.

Does not own the summarizing model, which is a function of its two arguments.
-/

namespace WallUnit.Server

open WallUnit.Foundations.Python

/-- `GOT_IT_PHRASES[0]`. -/
def gotIt : Text := "Got it.".toList

/-- The phrases `compose` looks for. -/
def notFoundEntityPhrase : Text := "could not find entity".toList

def notFoundPhrase : Text := "could not find".toList

def errorPhrase : Text := "error".toList

def failedPhrase : Text := "failed".toList

/-- `router.get(key) == text`. -/
def fieldIs (decision : Dict) (key text : Text) : Bool :=
  (decision.get? key).any (Value.isStr text)

/-- `compose`. -/
def compose (python : Interpreter) (summarize : Text → Text → Text) (decision : Dict)
    (toolResult userQuery : Text) : Text :=
  if fieldIs decision "intent".toList "ha_command".toList then
    if contains notFoundEntityPhrase toolResult || contains notFoundPhrase toolResult then
      "I couldn't find that device.".toList
    else if contains errorPhrase (python.lower toolResult) ||
        contains failedPhrase (python.lower toolResult) then
      "Something went wrong. ".toList ++ toolResult
    else gotIt
  else if fieldIs decision "tool".toList "ha_query".toList then
    if contains notFoundPhrase toolResult then "I couldn't find that sensor.".toList
    else summarize userQuery toolResult
  else if fieldIs decision "tool".toList "llm_chat".toList then toolResult
  else if fieldIs decision "tool".toList "n8n_calendar".toList ||
      fieldIs decision "tool".toList "n8n_email".toList then summarize userQuery toolResult
  else toolResult

/-- `_stage2_from_decision`: the dispatched tool's service call and the reply. -/
def stage2FromDecision (python : Interpreter) (backends : Backends)
    (summarize : Text → Text → Text) (decision : Dict) (transcript : Text) :
    Except Error (Text × Option ServiceCall) :=
  match decision.get? "tool".toList with
  | none => .error .keyError
  | some tool =>
      match dispatch python backends tool ((decision.get? "params".toList).getD (.dict [])) with
      | .error err => .error err
      | .ok (toolResult, call) =>
          .ok (compose python summarize decision toolResult transcript, call)

/-! ### Honest confirmation -/

/-- What the composer reads as a failure. -/
def FailurePhrase (python : Interpreter) (toolResult : Text) : Prop :=
  notFoundPhrase <:+: toolResult ∨ errorPhrase <:+: python.lower toolResult ∨
    failedPhrase <:+: python.lower toolResult

/-- The turn says "Got it." if and only if it made a service call that succeeded. -/
def HonestConfirmation : Except Error (Text × Option ServiceCall) → Prop
  | .error _ => True
  | .ok (reply, call) => reply = gotIt ↔ call.any ServiceCall.succeeded = true

/-- The text of the tool falls on the right side: `ha_action`'s line about a call
that goes through shows no failure phrase, and whatever another tool answers
shows one. -/
def Classified (python : Interpreter) (backends : Backends) (tool : Text) (params : Dict) : Prop :=
  if tool = "ha_action".toList then
    ∀ text entityId, backends.homeAssistant = .answered text →
      haResolveEntity python backends.states (haDomain params) (haHint params) =
        .ok (some entityId) →
      ¬ FailurePhrase python (calledLine python (haDomain params) (haService params) entityId)
  else
    ∀ answer call, dispatch python backends (.str tool) (.dict params) = .ok (answer, call) →
      FailurePhrase python answer

theorem compose_eq_gotIt_iff {python : Interpreter} {summarize : Text → Text → Text}
    {decision : Dict} {toolResult userQuery : Text}
    (command : fieldIs decision "intent".toList "ha_command".toList = true) :
    compose python summarize decision toolResult userQuery = gotIt ↔
      ¬ FailurePhrase python toolResult := by
  have shorter : notFoundEntityPhrase <:+: toolResult → notFoundPhrase <:+: toolResult :=
    (show notFoundPhrase <:+: notFoundEntityPhrase by decide).trans
  rw [compose, if_pos command]
  by_cases lost : notFoundPhrase <:+: toolResult
  · have matched :
        (contains notFoundEntityPhrase toolResult ||
          contains notFoundPhrase toolResult) = true := by
      simp [contains, lost]
    rw [if_pos matched]
    exact ⟨fun same => absurd same (by decide), fun clear => absurd (Or.inl lost) clear⟩
  · have unmatched : ¬ (contains notFoundEntityPhrase toolResult ||
        contains notFoundPhrase toolResult) = true := by
      simp only [contains, Bool.or_eq_true, decide_eq_true_eq, not_or]
      exact ⟨fun entity => lost (shorter entity), lost⟩
    rw [if_neg unmatched]
    by_cases failed : errorPhrase <:+: python.lower toolResult ∨
        failedPhrase <:+: python.lower toolResult
    · have matched : (contains errorPhrase (python.lower toolResult) ||
          contains failedPhrase (python.lower toolResult)) = true := by
        simpa only [contains, Bool.or_eq_true, decide_eq_true_eq] using failed
      rw [if_pos matched]
      refine ⟨fun same => ?_, fun clear => absurd (Or.inr failed) clear⟩
      have first := congrArg List.head? same
      cases first
    · have unmatched : ¬ (contains errorPhrase (python.lower toolResult) ||
          contains failedPhrase (python.lower toolResult)) = true := by
        simpa only [contains, Bool.or_eq_true, decide_eq_true_eq] using failed
      rw [if_neg unmatched]
      exact ⟨fun _ phrase => phrase.elim lost failed, fun _ => rfl⟩

/-- Every status string of a call that did not go through shows a failure phrase. -/
theorem failurePhrase_notFoundLine (python : Interpreter) (hint : Value) :
    FailurePhrase python (notFoundLine python hint) :=
  Or.inl ((show notFoundPhrase <:+: "could not find entity matching '".toList by
    decide).trans (List.prefix_append _ _).isInfix)

theorem failurePhrase_httpErrorLine (python : Interpreter) (status : Nat) (text : Text) :
    FailurePhrase python (httpErrorLine status text) :=
  Or.inr (Or.inl (python.lower_infix _ (List.all_iff_forall_prop.mp (by decide)) (by decide)))

theorem failurePhrase_raisedLine (python : Interpreter) (message : Text) :
    FailurePhrase python (raisedLine message) :=
  Or.inr (Or.inr (python.lower_infix _ (List.all_iff_forall_prop.mp (by decide)) (by decide)))

/-- The second stage, with the composer's part of it said in terms of phrases. -/
theorem honest_stage2_iff {python : Interpreter} {backends : Backends}
    {summarize : Text → Text → Text} {decision : Dict} {transcript : Text} {tool params : Value}
    (command : fieldIs decision "intent".toList "ha_command".toList = true)
    (toolIs : decision.get? "tool".toList = some tool)
    (paramsAre : decision.get? "params".toList = some params) :
    HonestConfirmation (stage2FromDecision python backends summarize decision transcript) ↔
      ∀ answer call, dispatch python backends tool params = .ok (answer, call) →
        (¬ FailurePhrase python answer ↔ call.any ServiceCall.succeeded = true) := by
  unfold stage2FromDecision
  rw [toolIs, paramsAre, Option.getD_some]
  cases dispatched : dispatch python backends tool params with
  | error err =>
      constructor
      · intro _ answer call contra
        cases contra
      · intro _
        simp only [dispatched]
        trivial
  | ok result =>
      simp only [dispatched]
      show (compose python summarize decision result.1 transcript = gotIt ↔ _) ↔ _
      rw [compose_eq_gotIt_iff command]
      constructor
      · intro honest answer call same
        cases same
        exact honest
      · intro all
        exact all result.1 result.2 rfl

/-- A status of `ha_action` is read right exactly when the line about a call that goes
through shows no failure phrase. -/
theorem haAction_read_iff {python : Interpreter} {backends : Backends} {params : Dict} :
    (∀ answer call,
      dispatch python backends (.str "ha_action".toList) (.dict params) = .ok (answer, call) →
        (¬ FailurePhrase python answer ↔ call.any ServiceCall.succeeded = true)) ↔
      ∀ text entityId, backends.homeAssistant = .answered text →
        haResolveEntity python backends.states (haDomain params) (haHint params) =
          .ok (some entityId) →
        ¬ FailurePhrase python
          (calledLine python (haDomain params) (haService params) entityId) := by
  rw [dispatch_haAction]
  constructor
  · intro honest text entityId answered resolved
    obtain ⟨made, succeeded, acted⟩ := haAction_of_answered answered resolved
    exact (honest _ _ acted).mpr succeeded
  · intro clear answer call acted
    rcases haAction_cases acted with ⟨rfl, rfl⟩ | ⟨entityId, made, resolved, rfl, outcome⟩
    · have phrase := failurePhrase_notFoundLine python (haHint params)
      exact ⟨fun none => absurd phrase none, fun contra => by cases contra⟩
    · cases answered : backends.homeAssistant with
      | answered text =>
          rw [answered] at outcome
          obtain ⟨succeeded, rfl⟩ := outcome
          exact ⟨fun _ => succeeded, fun _ => clear text entityId answered resolved⟩
      | httpError status text message =>
          rw [answered] at outcome
          obtain ⟨rejected, rfl⟩ := outcome
          have phrase := failurePhrase_httpErrorLine python status text
          refine ⟨fun none => absurd phrase none, fun contra => ?_⟩
          exact absurd (rejected.symm.trans contra) (by decide)
      | raised message =>
          rw [answered] at outcome
          obtain ⟨rejected, rfl⟩ := outcome
          have phrase := failurePhrase_raisedLine python message
          refine ⟨fun none => absurd phrase none, fun contra => ?_⟩
          exact absurd (rejected.symm.trans contra) (by decide)

/-- Another tool makes no call, so all it answers has to read as a failure. -/
theorem otherTool_read_iff {python : Interpreter} {backends : Backends} {tool : Text}
    {params : Dict} (other : tool ≠ "ha_action".toList) :
    (∀ answer call, dispatch python backends (.str tool) (.dict params) = .ok (answer, call) →
      (¬ FailurePhrase python answer ↔ call.any ServiceCall.succeeded = true)) ↔
      ∀ answer call, dispatch python backends (.str tool) (.dict params) = .ok (answer, call) →
        FailurePhrase python answer := by
  constructor
  · intro honest answer call dispatched
    have none := dispatch_call_none other dispatched
    by_contra clear
    have succeeded := (honest answer call dispatched).mp clear
    rw [none] at succeeded
    cases succeeded
  · intro classified answer call dispatched
    have none := dispatch_call_none other dispatched
    rw [none]
    exact ⟨fun clear => absurd (classified answer call dispatched) clear,
      fun contra => by cases contra⟩

/-- "Got it." is honest exactly when the tool's text is classified right. -/
theorem honest_iff_classified (python : Interpreter) (backends : Backends)
    (summarize : Text → Text → Text) (decision : Dict) (transcript tool : Text) (params : Dict)
    (_accepted : validate python decision = true)
    (intent : decision.get? "intent".toList = some (.str "ha_command".toList))
    (toolIs : decision.get? "tool".toList = some (.str tool))
    (paramsAre : decision.get? "params".toList = some (.dict params)) :
    HonestConfirmation (stage2FromDecision python backends summarize decision transcript) ↔
      Classified python backends tool params := by
  have command : fieldIs decision "intent".toList "ha_command".toList = true := by
    rw [fieldIs, intent]
    rfl
  rw [honest_stage2_iff command toolIs paramsAre, Classified]
  by_cases own : tool = "ha_action".toList
  · rw [if_pos own, own]
    exact haAction_read_iff
  · rw [if_neg own]
    exact otherTool_read_iff own

/-- A Home Assistant with one lamp that answers. -/
def lampBackends : Backends where
  states := [⟨"light.lamp".toList, [("friendly_name".toList, .str "Lamp".toList)], .none⟩]
  homeAssistant := .answered []
  n8n := .raised []
  llm := .raised []

/-- A device command for `tool`, about the lamp. -/
def lampCommand (tool : Text) : Dict :=
  [("intent".toList, .str "ha_command".toList), ("latency_class".toList, .str "instant".toList),
    ("verbal_response".toList, .str "got_it".toList), ("tool".toList, .str tool),
    ("params".toList, .dict [("entity".toList, .str "lamp".toList)]), ("confidence".toList, .int 1)]

def asciiPython : Interpreter := .ascii (fun _ => []) (fun _ => false)

theorem honest_of_lampCommand :
    HonestConfirmation (stage2FromDecision asciiPython lampBackends (fun _ answer => answer)
      (lampCommand "ha_action".toList) []) := by
  refine (honest_iff_classified asciiPython lampBackends _ (lampCommand "ha_action".toList) []
    "ha_action".toList [("entity".toList, .str "lamp".toList)] rfl rfl rfl rfl).mpr ?_
  intro text entityId _ resolved
  have lamp : haResolveEntity asciiPython lampBackends.states
      (haDomain [("entity".toList, .str "lamp".toList)])
      (haHint [("entity".toList, .str "lamp".toList)]) =
        .ok (some (.str "light.lamp".toList)) := rfl
  rw [lamp] at resolved
  cases resolved
  unfold FailurePhrase
  decide

theorem honest_not_of_unknownTool :
    ¬ ∀ (python : Interpreter) (backends : Backends) (summarize : Text → Text → Text)
      (decision : Dict) (transcript tool : Text) (params : Dict),
      validate python decision = true →
      decision.get? "intent".toList = some (.str "ha_command".toList) →
      decision.get? "tool".toList = some (.str tool) →
      decision.get? "params".toList = some (.dict params) →
        HonestConfirmation (stage2FromDecision python backends summarize decision transcript) := by
  intro all
  have honest := all asciiPython lampBackends (fun _ answer => answer)
    (lampCommand "lights_off".toList) [] "lights_off".toList
    [("entity".toList, .str "lamp".toList)] rfl rfl rfl rfl
  have claimed : (gotIt = gotIt ↔ (none : Option ServiceCall).any ServiceCall.succeeded = true) :=
    honest
  exact absurd (claimed.mp rfl) (by decide)

end WallUnit.Server
