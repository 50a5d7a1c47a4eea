import Mathlib.Data.List.Dedup
import WallUnit.Foundations.Python

/-!
Owns `tools.py`: the entity matcher, the Home Assistant handlers and the
dispatcher. A handler's answer comes with the Home Assistant service call it
made, if it made one.

Does not own the backends: what a request answers is an input, and the text an
n8n webhook or a chat model comes down to is taken as it is.
-/

namespace WallUnit.Server

open WallUnit.Foundations.Python

/-- How a request ends: an answer, a response `raise_for_status` rejects, or
another exception. `message` is `str(e)`. -/
inductive RequestOutcome where
  | answered (text : Text)
  | httpError (status : Nat) (text message : Text)
  | raised (message : Text)
deriving DecidableEq, Repr

/-- An element of `/api/states`. -/
structure Entity where
  entityId : Text
  attributes : Dict
  state : Value

/-- What the tools can reach. -/
structure Backends where
  states : List Entity
  homeAssistant : RequestOutcome
  n8n : RequestOutcome
  llm : RequestOutcome

/-- A POST to `/api/services/{domain}/{service}`. `entityId` is absent when the
body is empty. -/
structure ServiceCall where
  domain : Text
  service : Text
  entityId : Option Value
  succeeded : Bool

/-- A handler's answer and its service call. -/
abbrev ToolResult := Except Error (Text × Option ServiceCall)

/-! ### Entity matching -/

/-- `_TOKEN_RX.findall`: the maximal runs of `[a-z0-9]`. -/
def findWords (text : Text) : List Text :=
  (text.splitOnP fun char => !(char.isLower || char.isDigit)).filter fun word => word ≠ []

/-- `_STOPWORDS`. -/
def stopwords : List Text :=
  ["the", "a", "an", "in", "on", "at", "of", "to", "for", "is", "are", "and", "or", "hey",
    "please", "can", "you", "my"].map String.toList

/-- `_stem`. -/
def stem (word : Text) : Text :=
  if 3 < word.length ∧ "ies".toList <:+ word then word.take (word.length - 3) ++ ['y']
  else if 3 < word.length ∧ "es".toList <:+ word ∧
      word[word.length - 3]?.any "sxz".toList.contains then
    word.take (word.length - 2)
  else if 3 < word.length ∧ ['s'] <:+ word ∧ ¬ "ss".toList <:+ word then
    word.take (word.length - 1)
  else word

/-- `_tokens`. -/
def tokens (python : Interpreter) (text : Text) : List Text :=
  ((findWords (python.lower text)).filter fun word => word ∉ stopwords).map stem

/-- `candidate_score`. A friendly name that is not a string has no `lower`. -/
def candidateScore (python : Interpreter) (hint : Text) (hintTokens : List Text)
    (domainFilter : Text) (entity : Entity) : Except Error (Option Int) :=
  if domainFilter ≠ [] ∧ ¬ (domainFilter ++ ['.']) <+: entity.entityId then .ok none
  else
    match (entity.attributes.get? "friendly_name".toList).getD (.str []) with
    | .str friendlyName =>
        let nameTokens := (tokens python friendlyName).dedup
        let idTokens := tokens python entity.entityId
        if !(hintTokens.all fun token => token ∈ nameTokens ∨ token ∈ idTokens) then .ok none
        else if removeSpace (python.lower friendlyName) = removeSpace (python.lower hint) then
          .ok (some 1000)
        else
          let score := if hintTokens.all fun token => token ∈ nameTokens then 100 else 0
          .ok (some (score - nameTokens.length))
    | _ => .error .attributeError

/-- The loop over the states: the first of the best candidates. -/
def pickBest (score : Entity → Except Error (Option Int)) :
    List Entity → Option (Int × Entity) → Except Error (Option Entity)
  | [], best => .ok (best.map Prod.snd)
  | entity :: rest, best =>
      match score entity with
      | .error err => .error err
      | .ok none => pickBest score rest best
      | .ok (some points) =>
          match best with
          | none => pickBest score rest (some (points, entity))
          | some (bestScore, leader) =>
              if bestScore < points then pickBest score rest (some (points, entity))
              else pickBest score rest (some (bestScore, leader))

/-- `_ha_find_entity`. An empty domain filter filters nothing. -/
def haFindEntity (python : Interpreter) (states : List Entity) (hint : Value)
    (domainFilter : Text) : Except Error (Option Entity) :=
  if !hint.truthy then .ok none
  else
    match hint.contains ['.'] with
    | .error err => .error err
    | .ok true => .ok (states.find? fun entity => hint.isStr entity.entityId)
    | .ok false =>
        match hint with
        | .str text =>
            let hintTokens := tokens python text
            if hintTokens = [] then .ok none
            else pickBest (candidateScore python text hintTokens domainFilter) states none
        | _ => .error .attributeError

/-- `_ha_resolve_entity`. -/
def haResolveEntity (python : Interpreter) (states : List Entity) (domain hint : Value) :
    Except Error (Option Value) :=
  if !hint.truthy then .ok (some (.str (python.format domain ++ ".all".toList)))
  else
    match hint.contains ['.'] with
    | .error err => .error err
    | .ok true => .ok (some hint)
    | .ok false =>
        match hint with
        | .str text =>
            if python.lower text ∈ ["all", "every", "everything"].map String.toList then
              .ok (some (.str "all".toList))
            else
              match haFindEntity python states hint
                  (if domain.truthy then python.format domain else []) with
              | .error err => .error err
              | .ok found => .ok (found.map fun entity => .str entity.entityId)
        | _ => .error .attributeError

/-! ### Home Assistant handlers -/

def haDomain (params : Dict) : Value := params.getOr "domain".toList "light".toList

def haService (params : Dict) : Value := params.getOr "service".toList "turn_off".toList

def haHint (params : Dict) : Value := params.getOr "entity".toList "all".toList

/-- The status string of a service call that went through. -/
def calledLine (python : Interpreter) (domain service entityId : Value) : Text :=
  "called ".toList ++ python.format domain ++ ".".toList ++ python.format service ++
    " on ".toList ++ python.format entityId

/-- The status strings of `ha_action` when no entity matches, the response is an
error, and the request raises. -/
def notFoundLine (python : Interpreter) (hint : Value) : Text :=
  "could not find entity matching '".toList ++ (python.format hint ++ "'".toList)

def httpErrorLine (status : Nat) (text : Text) : Text :=
  "HA error ".toList ++ ((toString status).toList ++ ": ".toList ++ text.take 200)

def raisedLine (message : Text) : Text := "HA call failed: ".toList ++ message

/-- `ha_action`. -/
def haAction (python : Interpreter) (backends : Backends) (params : Dict) : ToolResult :=
  let domain := haDomain params
  let service := haService params
  let hint := haHint params
  match haResolveEntity python backends.states domain hint with
  | .error err => .error err
  | .ok none => .ok (notFoundLine python hint, none)
  | .ok (some entityId) =>
      let call (succeeded : Bool) : ServiceCall :=
        ⟨python.format domain, python.format service,
          if entityId.isStr "all".toList then none else some entityId, succeeded⟩
      match backends.homeAssistant with
      | .answered _ => .ok (calledLine python domain service entityId, some (call true))
      | .httpError status text _ => .ok (httpErrorLine status text, some (call false))
      | .raised message => .ok (raisedLine message, some (call false))

/-- `ha_query`. -/
def haQuery (python : Interpreter) (backends : Backends) (params : Dict) : Except Error Text :=
  let hint := params.getOr "entity".toList []
  match haFindEntity python backends.states hint [] with
  | .error err => .error err
  | .ok none =>
      .ok ("could not find an entity matching '".toList ++ python.format hint ++ "'".toList)
  | .ok (some entity) =>
      let name := python.format
        ((entity.attributes.get? "friendly_name".toList).getD (.str entity.entityId))
      let attr := (params.get? "attribute".toList).getD .none
      if attr.truthy then
        match attr with
        | .list _ | .dict _ => .error .typeError
        | _ =>
            let value := match attr with
              | .str key => (entity.attributes.get? key).getD .none
              | _ => .none
            match value with
            | .none =>
                .ok (name ++ " has no attribute '".toList ++ python.format attr ++
                  "'".toList)
            | value =>
                .ok (name ++ " ".toList ++ python.format attr ++ ": ".toList ++
                  python.format value)
      else
        let unit :=
          (entity.attributes.get? "unit_of_measurement".toList).getD (.str [])
        .ok (strip (name ++ " is ".toList ++ python.format entity.state ++ " ".toList ++
          python.format unit))

/-! ### The other handlers and the dispatcher -/

/-- `n8n_calendar` and `n8n_email`, by the name they give themselves in errors. -/
def n8nLookup (kind : Text) : RequestOutcome → Text
  | .answered text => text
  | .httpError status text _ =>
      kind ++ " lookup error ".toList ++ (toString status).toList ++ ": ".toList ++ text.take 200
  | .raised message => kind ++ " lookup failed: ".toList ++ message

def n8nCalendar (backends : Backends) : Text := n8nLookup "calendar".toList backends.n8n

def n8nEmail (backends : Backends) : Text := n8nLookup "email".toList backends.n8n

/-- `llm_chat`. -/
def llmChat (backends : Backends) : Text :=
  match backends.llm with
  | .answered text => if text = [] then "I'm not sure how to answer that.".toList else text
  | .httpError _ _ message | .raised message =>
      "I had trouble answering that: ".toList ++ message

/-- `DISPATCH.get(tool)`. -/
def handlerFor (python : Interpreter) (backends : Backends) (tool : Text) :
    Option (Dict → ToolResult) :=
  if tool = "ha_action".toList then some (haAction python backends)
  else if tool = "ha_query".toList then
    some fun params => (haQuery python backends params).map fun answer => (answer, none)
  else if tool = "n8n_calendar".toList then some fun _ => .ok (n8nCalendar backends, none)
  else if tool = "n8n_email".toList then some fun _ => .ok (n8nEmail backends, none)
  else if tool = "llm_chat".toList then some fun _ => .ok (llmChat backends, none)
  else none

/-- `dispatch`. An unhashable tool cannot be looked up, and a handler asks its
parameters for `get`. -/
def dispatch (python : Interpreter) (backends : Backends) (tool params : Value) : ToolResult :=
  let unknown : ToolResult :=
    .ok ("no dispatcher for tool '".toList ++ python.format tool ++ "'".toList, none)
  match tool with
  | .list _ | .dict _ => .error .typeError
  | .str name =>
      match handlerFor python backends name with
      | none => unknown
      | some handler =>
          match params with
          | .dict entries => handler entries
          | _ => .error .attributeError
  | _ => unknown

theorem dispatch_haAction (python : Interpreter) (backends : Backends) (params : Dict) :
    dispatch python backends (.str "ha_action".toList) (.dict params) =
      haAction python backends params := rfl

/-- What `ha_action` can answer. -/
theorem haAction_cases {python : Interpreter} {backends : Backends} {params : Dict} {answer : Text}
    {call : Option ServiceCall} (acted : haAction python backends params = .ok (answer, call)) :
    (answer = notFoundLine python (haHint params) ∧ call = none) ∨
      ∃ entityId made, haResolveEntity python backends.states (haDomain params) (haHint params) =
          .ok (some entityId) ∧ call = some made ∧
        match backends.homeAssistant with
        | .answered _ => made.succeeded = true ∧
            answer = calledLine python (haDomain params) (haService params) entityId
        | .httpError status text _ => made.succeeded = false ∧ answer = httpErrorLine status text
        | .raised message => made.succeeded = false ∧ answer = raisedLine message := by
  unfold haAction at acted
  dsimp only at acted
  cases resolved : haResolveEntity python backends.states (haDomain params) (haHint params) with
  | error err =>
      rw [resolved] at acted
      cases acted
  | ok found =>
      rw [resolved] at acted
      cases found with
      | none =>
          cases acted
          exact Or.inl ⟨rfl, rfl⟩
      | some entityId =>
          right
          cases outcome : backends.homeAssistant with
          | answered text | httpError status text message | raised message =>
              simp only [outcome] at acted
              cases acted
              exact ⟨entityId, _, rfl, rfl, rfl, rfl⟩

/-- A resolved entity and a request that is answered make a call that succeeds. -/
theorem haAction_of_answered {python : Interpreter} {backends : Backends} {params : Dict}
    {entityId : Value} {text : Text} (answered : backends.homeAssistant = .answered text)
    (resolved : haResolveEntity python backends.states (haDomain params) (haHint params) =
      .ok (some entityId)) :
    ∃ made, made.succeeded = true ∧ haAction python backends params =
      .ok (calledLine python (haDomain params) (haService params) entityId, some made) := by
  unfold haAction
  dsimp only
  rw [resolved, answered]
  exact ⟨_, rfl, rfl⟩

/-- Only `ha_action` makes a service call. -/
theorem dispatch_call_none {python : Interpreter} {backends : Backends} {tool : Text}
    {params : Value} {answer : Text} {call : Option ServiceCall}
    (other : tool ≠ "ha_action".toList)
    (dispatched : dispatch python backends (.str tool) params = .ok (answer, call)) :
    call = none := by
  simp only [dispatch, handlerFor, if_neg other] at dispatched
  split at dispatched
  · cases dispatched
    rfl
  · next handler found =>
      cases params with
      | dict entries =>
          split_ifs at found
          · cases found
            cases answered : haQuery python backends entries with
            | error err => simp [answered, Except.map] at dispatched
            | ok text =>
                simp only [answered, Except.map] at dispatched
                cases dispatched
                rfl
          all_goals
            cases found
            cases dispatched
            rfl
      | _ => cases dispatched

end WallUnit.Server
