import WallUnit.Server.EntityMatch

/-!
Owns which entity a device command reaches: the four ways `_ha_resolve_entity` takes with a
hint, and when what comes back is a real entity of the command's domain.
`staysInDomain_iff` says exactly when it is.

Does not own the matcher behind the fuzzy way, nor what Home Assistant does with a call.
-/

namespace WallUnit.Server

open WallUnit.Foundations
open WallUnit.Foundations.Python

/-! ### What the matcher can return -/

section

variable {python : Interpreter} {domain hint : Text} {states : List Entity}
  {entity : Entity}

theorem inDomain_of_candidateScore {hintTokens : List Text} {points : Int}
    (scored : candidateScore python hint hintTokens domain entity = .ok (some points)) :
    InDomain domain entity := by
  by_contra outside
  rw [candidateScore, if_pos (not_not.mp (mt inDomain_iff.mp outside))] at scored
  cases scored

/-- A loop that returns has scored every entity. -/
theorem scores_of_pickBest {score : Entity → Except Error (Option Int)}
    {best : Option (Int × Entity)} {found : Option Entity}
    (picked : pickBest score states best = .ok found) :
    ∀ entity ∈ states, ∃ points, score entity = .ok points := by
  induction states generalizing best with
  | nil =>
      intro entity member
      contradiction
  | cons head states inductionHypothesis =>
      rw [pickBest] at picked
      cases scored : score head with
      | error err =>
          rw [scored] at picked
          cases picked
      | ok points =>
          have rest : ∃ next, pickBest score states next = .ok found := by
            rw [scored] at picked
            cases points with
            | none => exact ⟨best, picked⟩
            | some points =>
                cases best with
                | none => exact ⟨_, picked⟩
                | some held =>
                    dsimp only at picked
                    split_ifs at picked
                    · exact ⟨_, picked⟩
                    · exact ⟨_, picked⟩
          obtain ⟨next, picked⟩ := rest
          intro entity member
          rcases List.mem_cons.mp member with rfl | later
          · exact ⟨points, scored⟩
          · exact inductionHypothesis picked entity later

/-- What the loop returns has a score. -/
theorem exists_score_of_pickBest {score : Entity → Except Error (Option Int)}
    (picked : pickBest score states none = .ok (some entity)) :
    entity ∈ states ∧ ∃ points, score entity = .ok (some points) := by
  have scores := scores_of_pickBest picked
  choose! total scored using scores
  rw [pickBest_eq states none scored] at picked
  obtain ⟨points, leads⟩ := exists_leads_of_firstBest (Except.ok.inj picked)
  refine ⟨leads.mem, points, ?_⟩
  rw [scored entity leads.mem, leads.scored]

theorem haFindEntity_scores (something : hint ≠ []) (undotted : '.' ∉ hint)
    (found : haFindEntity python states (.str hint) domain = .ok (some entity)) :
    tokens python hint ≠ [] ∧
      pickBest (candidateScore python hint (tokens python hint) domain) states none =
        .ok (some entity) := by
  rw [haFindEntity_undotted something undotted] at found
  split_ifs at found with silent
  · cases found
  · exact ⟨silent, found⟩

/-- What the matcher finds is in the list and in the domain. -/
theorem mem_of_haFindEntity (something : hint ≠ []) (undotted : '.' ∉ hint)
    (found : haFindEntity python states (.str hint) domain = .ok (some entity)) :
    entity ∈ states ∧ InDomain domain entity := by
  obtain ⟨member, points, scored⟩ :=
    exists_score_of_pickBest (haFindEntity_scores something undotted found).2
  exact ⟨member, inDomain_of_candidateScore scored⟩

/-- Without a domain the matcher looks at every friendly name. -/
theorem named_of_haFindEntity (something : hint ≠ []) (undotted : '.' ∉ hint)
    (found : haFindEntity python states (.str hint) [] = .ok (some entity)) :
    ∀ entity ∈ states, Named entity := by
  intro entity member value given
  obtain ⟨points, scored⟩ :=
    scores_of_pickBest (haFindEntity_scores something undotted found).2 entity member
  rw [candidateScore, if_neg fun both => both.1 rfl, given] at scored
  cases value with
  | str name => exact ⟨name, rfl⟩
  | _ => cases scored

end

/-! ### The four ways of a hint -/

/-- The hints that stand for every entity. -/
def allWords : List Text := ["all", "every", "everything"].map String.toList

section

variable {python : Interpreter} {domain hint : Text} {states : List Entity}

theorem haResolveEntity_empty :
    haResolveEntity python states (.str domain) (.str []) =
      .ok (some (.str (domain ++ ".all".toList))) := rfl

theorem haResolveEntity_dotted (dotted : '.' ∈ hint) :
    haResolveEntity python states (.str domain) (.str hint) = .ok (some (.str hint)) := by
  rw [haResolveEntity, truthy_str (List.ne_nil_of_mem dotted), Bool.not_true,
    if_neg Bool.false_ne_true, contains_dot, decide_eq_true dotted]

theorem haResolveEntity_undotted (something : hint ≠ []) (undotted : '.' ∉ hint) :
    haResolveEntity python states (.str domain) (.str hint) =
      if python.lower hint ∈ allWords then .ok (some (.str "all".toList))
      else
        (haFindEntity python states (.str hint) domain).map fun found =>
          found.map fun entity => .str entity.entityId := by
  have filter : (if (Value.str domain).truthy = true then python.format (.str domain) else []) =
      domain := by
    cases domain with
    | nil => rfl
    | cons char rest => rfl
  rw [haResolveEntity, truthy_str something, Bool.not_true, if_neg Bool.false_ne_true,
    contains_dot, decide_eq_false undotted]
  dsimp only
  rw [filter, allWords]
  cases haFindEntity python states (.str hint) domain <;> rfl

end

/-! ### Staying in the domain -/

/-- The id of an entity in the list, of the domain by its text. -/
def RealIn (states : List Entity) (domain : Text) (entityId : Value) : Prop :=
  ∃ entity ∈ states, entityId = .str entity.entityId ∧ (domain ++ ['.']) <+: entity.entityId

/-- What `_ha_resolve_entity` returns is nothing, "all" or a real entity of the domain. -/
def ResolvesInside (python : Interpreter) (states : List Entity) (domain hint : Text) : Prop :=
  ∀ entityId, haResolveEntity python states (.str domain) (.str hint) = .ok (some entityId) →
    entityId = .str "all".toList ∨ RealIn states domain entityId

/-- A service that `ha_action` calls for this domain and hint is called on a real entity of
the service's domain, if it is called on one at all. -/
def ActsInside (python : Interpreter) (backends : Backends) (domain hint : Text) : Prop :=
  ∀ (params : Dict) (answer : Text) (call : ServiceCall),
    haDomain params = .str domain → haHint params = .str hint →
    haAction python backends params = .ok (answer, some call) →
    ∀ entityId, call.entityId = some entityId → RealIn backends.states call.domain entityId

structure StaysInDomain (python : Interpreter) (backends : Backends) (domain hint : Text) :
    Prop where
  resolves : ResolvesInside python backends.states domain hint
  acts : ActsInside python backends domain hint

/-- The condition, way by way. With a domain the fuzzy way asks for nothing. -/
structure Respects (python : Interpreter) (states : List Entity) (domain hint : Text) : Prop where
  empty : hint = [] → ∃ entity ∈ states, entity.entityId = domain ++ ".all".toList
  dotted : '.' ∈ hint →
    (∃ entity ∈ states, entity.entityId = hint) ∧ (domain ++ ['.']) <+: hint
  fuzzy : domain = [] → hint ≠ [] → '.' ∉ hint → python.lower hint ∉ allWords →
    tokens python hint ≠ [] → (∀ entity ∈ states, Named entity) →
    ∀ entity, FirstMatch python states [] hint entity →
      entity.entityId = "all".toList ∨ ['.'] <+: entity.entityId

section

variable {python : Interpreter} {domain hint : Text} {states : List Entity} {backends : Backends}

theorem resolvesInside_empty_iff :
    ResolvesInside python states domain [] ↔
      ∃ entity ∈ states, entity.entityId = domain ++ ".all".toList := by
  have long : domain ++ ".all".toList ≠ "all".toList := by
    intro same
    have lengths := congrArg List.length same
    rw [List.length_append] at lengths
    have three : "all".toList.length = 3 := rfl
    have four : ".all".toList.length = 4 := rfl
    omega
  constructor
  · intro inside
    rcases inside _ haResolveEntity_empty with all | ⟨entity, member, same, -⟩
    · exact absurd (Value.str.inj all) long
    · exact ⟨entity, member, (Value.str.inj same).symm⟩
  · rintro ⟨entity, member, same⟩ entityId resolved
    rw [haResolveEntity_empty] at resolved
    cases resolved
    right
    refine ⟨entity, member, by rw [same], ?_⟩
    rw [same]
    exact (List.prefix_append_right_inj domain).mpr (by decide)

theorem resolvesInside_dotted_iff (dotted : '.' ∈ hint) :
    ResolvesInside python states domain hint ↔
      (∃ entity ∈ states, entity.entityId = hint) ∧ (domain ++ ['.']) <+: hint := by
  constructor
  · intro inside
    rcases inside _ (haResolveEntity_dotted dotted) with all | ⟨entity, member, same, belongs⟩
    · rw [Value.str.inj all] at dotted
      exact absurd dotted (by decide)
    · rw [Value.str.inj same]
      exact ⟨⟨entity, member, rfl⟩, belongs⟩
  · rintro ⟨⟨entity, member, rfl⟩, belongs⟩ entityId resolved
    rw [haResolveEntity_dotted dotted] at resolved
    cases resolved
    exact Or.inr ⟨entity, member, rfl, belongs⟩

/-- What the fuzzy way returns comes from the matcher. -/
theorem exists_of_fuzzy {entityId : Value} (something : hint ≠ []) (undotted : '.' ∉ hint)
    (notAll : python.lower hint ∉ allWords)
    (resolved : haResolveEntity python states (.str domain) (.str hint) = .ok (some entityId)) :
    ∃ entity, haFindEntity python states (.str hint) domain = .ok (some entity) ∧
      entityId = .str entity.entityId := by
  rw [haResolveEntity_undotted something undotted, if_neg notAll] at resolved
  cases found : haFindEntity python states (.str hint) domain with
  | error err =>
      rw [found] at resolved
      cases resolved
  | ok answer =>
      rw [found] at resolved
      obtain ⟨entity, rfl, same⟩ := Option.map_eq_some_iff.mp (Except.ok.inj resolved)
      exact ⟨entity, rfl, same.symm⟩

theorem resolvesInside_fuzzy_iff (something : hint ≠ []) (undotted : '.' ∉ hint)
    (notAll : python.lower hint ∉ allWords) :
    ResolvesInside python states domain hint ↔
      (domain = [] → tokens python hint ≠ [] → (∀ entity ∈ states, Named entity) →
        ∀ entity, FirstMatch python states [] hint entity →
          entity.entityId = "all".toList ∨ ['.'] <+: entity.entityId) := by
  constructor
  · rintro inside rfl said named entity first
    have found : haFindEntity python states (.str hint) [] = .ok (some entity) := by
      rw [haFindEntity_eq named something undotted said, first.firstBest_eq]
    have resolved : haResolveEntity python states (.str []) (.str hint) =
        .ok (some (.str entity.entityId)) := by
      rw [haResolveEntity_undotted something undotted, if_neg notAll, found]
      rfl
    rcases inside _ resolved with all | ⟨other, member, same, belongs⟩
    · exact Or.inl (Value.str.inj all)
    · exact Or.inr (Value.str.inj same ▸ belongs)
  · intro respects entityId resolved
    obtain ⟨entity, found, rfl⟩ := exists_of_fuzzy something undotted notAll resolved
    obtain ⟨member, inDomain⟩ := mem_of_haFindEntity something undotted found
    rcases inDomain with rfl | belongs
    · have named := named_of_haFindEntity something undotted found
      have said := (haFindEntity_scores something undotted found).1
      rw [haFindEntity_eq named something undotted said] at found
      obtain ⟨total, leads⟩ := exists_leads_of_firstBest (Except.ok.inj found)
      rcases respects rfl said named entity (firstMatch_of_leads leads) with all | belongs
      · exact Or.inl (by rw [all])
      · exact Or.inr ⟨entity, member, rfl, belongs⟩
    · exact Or.inr ⟨entity, member, rfl, belongs⟩

theorem resolvesInside_iff :
    ResolvesInside python states domain hint ↔ Respects python states domain hint := by
  by_cases empty : hint = []
  · subst empty
    rw [resolvesInside_empty_iff]
    constructor
    · intro real
      exact ⟨fun _ => real, fun dotted => by contradiction, fun _ other => absurd rfl other⟩
    · intro respects
      exact respects.empty rfl
  by_cases dotted : '.' ∈ hint
  · rw [resolvesInside_dotted_iff dotted]
    constructor
    · intro real
      exact ⟨fun none => absurd none empty, fun _ => real, fun _ _ other => absurd dotted other⟩
    · intro respects
      exact respects.dotted dotted
  by_cases all : python.lower hint ∈ allWords
  · apply iff_of_true
    · intro entityId resolved
      rw [haResolveEntity_undotted empty dotted, if_pos all] at resolved
      cases resolved
      exact Or.inl rfl
    · exact ⟨fun none => absurd none empty, fun other => absurd other dotted,
        fun _ _ _ other => absurd all other⟩
  · rw [resolvesInside_fuzzy_iff empty dotted all]
    constructor
    · intro real
      exact ⟨fun none => absurd none empty, fun other => absurd other dotted,
        fun none _ _ _ => real none⟩
    · intro respects none
      exact respects.fuzzy none empty dotted all

/-- The call `ha_action` makes, by what it resolved. -/
theorem haAction_call {params : Dict} {answer : Text} {call : ServiceCall}
    (acted : haAction python backends params = .ok (answer, some call)) :
    ∃ entityId, haResolveEntity python backends.states (haDomain params) (haHint params) =
        .ok (some entityId) ∧
      call.domain = python.format (haDomain params) ∧
      call.entityId = if entityId.isStr "all".toList then none else some entityId := by
  rw [haAction] at acted
  dsimp only at acted
  cases resolved : haResolveEntity python backends.states (haDomain params) (haHint params) with
  | error err =>
      rw [resolved] at acted
      cases acted
  | ok found =>
      rw [resolved] at acted
      cases found with
      | none => cases acted
      | some entityId =>
          refine ⟨entityId, rfl, ?_⟩
          cases outcome : backends.homeAssistant with
          | answered text | httpError status text message | raised message =>
              rw [outcome] at acted
              cases acted
              exact ⟨rfl, rfl⟩

/-- `ha_action` acts on what was resolved. -/
theorem ResolvesInside.acts (inside : ResolvesInside python backends.states domain hint) :
    ActsInside python backends domain hint := by
  intro params answer call domainIs hintIs acted entityId called
  obtain ⟨target, resolved, callDomain, callEntity⟩ := haAction_call acted
  rw [domainIs, hintIs] at resolved
  rw [domainIs] at callDomain
  rw [callEntity] at called
  split_ifs at called with all
  cases called
  rw [callDomain]
  rcases inside _ resolved with same | real
  · rw [same] at all
    exact absurd rfl all
  · exact real

end

/-- A device command stays in its domain exactly if, on the way its hint takes, the code
happens to be given what it does not check: the made-up id of an empty hint and the id of a
dotted hint are real and of the domain, and a hint without a domain finds nothing or an
entity whose id begins with a dot. -/
theorem staysInDomain_iff (python : Interpreter) (backends : Backends) (domain hint : Text) :
    StaysInDomain python backends domain hint ↔
      Respects python backends.states domain hint := by
  constructor
  · intro stays
    exact resolvesInside_iff.mp stays.resolves
  · intro respects
    have inside := resolvesInside_iff.mpr respects
    exact ⟨inside, inside.acts⟩

/-- A porch light and a lock. -/
def lockBackends : Backends where
  states := [namedEntity "light.porch".toList "Porch".toList,
    namedEntity "lock.front_door".toList "Front Door".toList]
  homeAssistant := .answered []
  n8n := .raised []
  llm := .raised []

theorem staysInDomain_not_of_lock :
    ¬ ∀ (python : Interpreter) (backends : Backends) (domain hint : Text),
      StaysInDomain python backends domain hint := by
  intro all
  have stays := all plainPython lockBackends "light".toList "lock.front_door".toList
  obtain ⟨entity, -, same, belongs⟩ := stays.acts
    [("domain".toList, .str "light".toList), ("service".toList, .str "turn_on".toList),
      ("entity".toList, .str "lock.front_door".toList)] _ _ rfl rfl rfl _ rfl
  rw [← Value.str.inj same] at belongs
  exact absurd belongs (by decide)

end WallUnit.Server
