import Mathlib
import WallUnit.Foundations.FirstBest
import WallUnit.Server.Tools

/-!
Owns what `_ha_find_entity` looks for: which entities of a domain a hint covers, which of
them are best, and that the first of the best is what the matcher returns.

Does not own what becomes of the entity.
-/

namespace WallUnit.Server

open WallUnit.Foundations
open WallUnit.Foundations.Python

/-! ### What the matcher looks for -/

/-- `entity.get("attributes", {}).get("friendly_name", "")`. -/
def friendlyName (entity : Entity) : Value :=
  (entity.attributes.get? "friendly_name".toList).getD (.str [])

/-- The friendly name of an entity, which is empty if there is none. -/
def nameOf (entity : Entity) : Text :=
  match friendlyName entity with
  | .str name => name
  | _ => []

/-- The friendly name is a string or absent. -/
def Named (entity : Entity) : Prop :=
  ∀ value, entity.attributes.get? "friendly_name".toList = some value → ∃ name, value = .str name

/-- The entity belongs to the domain. No domain is every domain. -/
def InDomain (domain : Text) (entity : Entity) : Prop :=
  domain = [] ∨ (domain ++ ['.']) <+: entity.entityId

/-- The friendly name and the entity id have every token of the hint between them. -/
def Covers (python : Interpreter) (hint : Text) (entity : Entity) : Prop :=
  ∀ token ∈ tokens python hint,
    token ∈ tokens python (nameOf entity) ∨ token ∈ tokens python entity.entityId

/-- The names are the same up to case and white space. -/
def SameName (python : Interpreter) (left right : Text) : Prop :=
  removeSpace (python.lower left) = removeSpace (python.lower right)

/-- The friendly name alone has every token of the hint. -/
def NameCovers (python : Interpreter) (hint : Text) (entity : Entity) : Prop :=
  ∀ token ∈ tokens python hint, token ∈ tokens python (nameOf entity)

instance (python : Interpreter) (hint : Text) : DecidablePred (NameCovers python hint) :=
  fun entity => decidable_of_iff
    ((tokens python hint).all fun token => (tokens python (nameOf entity)).contains token)
    (by simp only [NameCovers, List.all_eq_true, List.contains_iff_mem])

/-- A hundred if the friendly name alone covers the hint, less one for each token of the
friendly name. -/
def rank (python : Interpreter) (hint : Text) (entity : Entity) : Int :=
  (if NameCovers python hint entity then 100 else 0) -
    (tokens python (nameOf entity)).toFinset.card

structure Candidate (python : Interpreter) (domain hint : Text) (entity : Entity) : Prop where
  inDomain : InDomain domain entity
  covers : Covers python hint entity

/-- Best among the candidates: an entity of that name, or one of the highest rank if there
is none. -/
def Best (python : Interpreter) (states : List Entity) (domain hint : Text) (entity : Entity) :
    Prop :=
  SameName python (nameOf entity) hint ∨
    ∀ other ∈ states, Candidate python domain hint other →
      ¬ SameName python (nameOf other) hint ∧ rank python hint other ≤ rank python hint entity

/-- The first of the best candidates. -/
structure FirstMatch (python : Interpreter) (states : List Entity) (domain hint : Text)
    (entity : Entity) : Prop where
  candidate : Candidate python domain hint entity
  best : Best python states domain hint entity
  first : ∃ before after : List Entity, states = before ++ entity :: after ∧
    ∀ earlier ∈ before, Candidate python domain hint earlier →
      ¬ Best python states domain hint earlier

instance (domain : Text) : DecidablePred (InDomain domain) := fun entity =>
  inferInstanceAs (Decidable (domain = [] ∨ (domain ++ ['.']) <+: entity.entityId))

instance (python : Interpreter) (hint : Text) : DecidablePred (Covers python hint) :=
  fun entity => decidable_of_iff
    ((tokens python hint).all fun token => (tokens python (nameOf entity)).contains token ||
      (tokens python entity.entityId).contains token)
    (by simp only [Covers, List.all_eq_true, Bool.or_eq_true, List.contains_iff_mem])

instance (python : Interpreter) (left right : Text) : Decidable (SameName python left right) :=
  inferInstanceAs (Decidable (removeSpace (python.lower left) = removeSpace (python.lower right)))

/-! ### The scores -/

/-- What `candidate_score` answers, by what it stands for. -/
def points (python : Interpreter) (domain hint : Text) (entity : Entity) : Option Int :=
  if InDomain domain entity ∧ Covers python hint entity then
    some (if SameName python (nameOf entity) hint then 1000 else rank python hint entity)
  else none

section

variable {python : Interpreter} {domain hint : Text} {states : List Entity} {entity : Entity}

theorem Named.friendlyName_eq (named : Named entity) :
    friendlyName entity = .str (nameOf entity) := by
  rw [nameOf, friendlyName]
  cases given : entity.attributes.get? "friendly_name".toList with
  | none => rfl
  | some value =>
      obtain ⟨name, rfl⟩ := named value given
      rfl

theorem inDomain_iff :
    ¬ (domain ≠ [] ∧ ¬ (domain ++ ['.']) <+: entity.entityId) ↔ InDomain domain entity := by
  rw [not_and_not_right, InDomain, Classical.or_iff_not_imp_left]

/-- Every token is covered, as `candidate_score` asks it. -/
theorem all_covered_iff :
    (tokens python hint).all (fun token => decide (token ∈ (tokens python (nameOf entity)).dedup ∨
      token ∈ tokens python entity.entityId)) = true ↔ Covers python hint entity := by
  simp only [List.all_eq_true, decide_eq_true_eq, List.mem_dedup, Covers]

/-- The score of a name that is not the hint. -/
theorem rank_eq :
    (if (tokens python hint).all (fun token =>
        decide (token ∈ (tokens python (nameOf entity)).dedup)) = true then (100 : Int) else 0) -
      ((tokens python (nameOf entity)).dedup.length : Int) = rank python hint entity := by
  have asked : (tokens python hint).all (fun token =>
      decide (token ∈ (tokens python (nameOf entity)).dedup)) = true ↔
        NameCovers python hint entity := by
    simp only [List.all_eq_true, decide_eq_true_eq, List.mem_dedup, NameCovers]
  rw [rank, List.card_toFinset]
  by_cases covered : NameCovers python hint entity
  · rw [if_pos (asked.mpr covered), if_pos covered]
  · rw [if_neg (mt asked.mp covered), if_neg covered]

theorem candidateScore_eq (named : Named entity) :
    candidateScore python hint (tokens python hint) domain entity =
      .ok (points python domain hint entity) := by
  have name := named.friendlyName_eq
  rw [friendlyName] at name
  rw [candidateScore, points]
  by_cases inside : InDomain domain entity
  · rw [if_neg (inDomain_iff.mpr inside), name]
    dsimp only
    by_cases covered : Covers python hint entity
    · rw [all_covered_iff.mpr covered, Bool.not_true, if_neg Bool.false_ne_true,
        if_pos (And.intro inside covered)]
      by_cases same : SameName python (nameOf entity) hint
      · have equal : removeSpace (python.lower (nameOf entity)) =
          removeSpace (python.lower hint) := same
        rw [if_pos equal, if_pos same]
      · have different : removeSpace (python.lower (nameOf entity)) ≠
          removeSpace (python.lower hint) := same
        rw [if_neg different, if_neg same, rank_eq]
    · rw [Bool.eq_false_iff.mpr (mt all_covered_iff.mp covered), Bool.not_false, if_pos rfl,
        if_neg fun both : InDomain domain entity ∧ Covers python hint entity => covered both.2]
  · rw [if_pos (not_not.mp (mt inDomain_iff.mp inside)),
      if_neg fun both : InDomain domain entity ∧ Covers python hint entity => inside both.1]

/-- The loop over the states keeps the leader. -/
theorem pickBest_eq {score : Entity → Except Error (Option Int)} {total : Entity → Option Int}
    (states : List Entity) (best : Option (Int × Entity))
    (scores : ∀ entity ∈ states, score entity = .ok (total entity)) :
    pickBest score states best = .ok ((states.foldl (leader total) best).map Prod.snd) := by
  induction states generalizing best with
  | nil => rfl
  | cons entity states inductionHypothesis =>
      have rest := fun best => inductionHypothesis best fun other member =>
        scores other (List.mem_cons_of_mem _ member)
      rw [pickBest, scores entity List.mem_cons_self, List.foldl_cons]
      cases scored : total entity with
      | none =>
          dsimp only
          rw [rest, leader_of_none scored]
      | some points =>
          cases best with
          | none =>
              dsimp only
              rw [rest, leader_none scored]
          | some held =>
              dsimp only
              rw [leader_some scored, rest, rest]
              split_ifs <;> rfl

end

/-! ### What the matcher returns -/

section

variable {python : Interpreter} {domain hint : Text} {states : List Entity} {entity : Entity}
  {total : Int}

theorem rank_le (python : Interpreter) (hint : Text) (entity : Entity) :
    rank python hint entity ≤ 100 := by
  rw [rank]
  split_ifs <;> omega

theorem points_of_candidate (candidate : Candidate python domain hint entity) :
    points python domain hint entity =
      some (if SameName python (nameOf entity) hint then 1000 else rank python hint entity) :=
  if_pos ⟨candidate.inDomain, candidate.covers⟩

theorem candidate_of_points (scored : points python domain hint entity = some total) :
    Candidate python domain hint entity := by
  by_contra other
  rw [points, if_neg fun both => other ⟨both.1, both.2⟩] at scored
  contradiction

theorem points_eq_none_iff :
    points python domain hint entity = none ↔ ¬ Candidate python domain hint entity := by
  constructor
  · intro unscored candidate
    rw [points_of_candidate candidate] at unscored
    contradiction
  · intro other
    cases scored : points python domain hint entity with
    | none => rfl
    | some total => exact absurd (candidate_of_points scored) other

/-- A name that is the hint is worth the most. -/
theorem points_of_sameName (scored : points python domain hint entity = some total) :
    total ≤ 1000 ∧ (SameName python (nameOf entity) hint → total = 1000) ∧
      (¬ SameName python (nameOf entity) hint → total = rank python hint entity ∧ total ≤ 100) := by
  rw [points_of_candidate (candidate_of_points scored)] at scored
  have low := rank_le python hint entity
  by_cases same : SameName python (nameOf entity) hint
  · rw [if_pos same] at scored
    cases scored
    exact ⟨Int.le_refl _, fun _ => rfl, fun other => absurd same other⟩
  · rw [if_neg same] at scored
    cases scored
    exact ⟨by omega, fun other => absurd other same, fun _ => ⟨rfl, low⟩⟩

/-- Who leads by points is best. -/
theorem best_of_leads (leads : Leads (points python domain hint) states total entity) :
    Best python states domain hint entity := by
  by_cases same : SameName python (nameOf entity) hint
  · exact Or.inl same
  · right
    intro other member candidate
    have own := (points_of_sameName leads.scored).2.2 same
    obtain ⟨most, named, unnamed⟩ := points_of_sameName (points_of_candidate candidate)
    have behind := leads.le member (points_of_candidate candidate)
    have different : ¬ SameName python (nameOf other) hint := by
      intro sameOther
      have thousand := named sameOther
      omega
    refine ⟨different, ?_⟩
    rw [← own.1, ← (unnamed different).1]
    exact behind

/-- No candidate with fewer points is best. -/
theorem not_best_of_lt {better : Entity} {high : Int} (member : better ∈ states)
    (scored : points python domain hint entity = some total)
    (scoredBetter : points python domain hint better = some high) (less : total < high) :
    ¬ Best python states domain hint entity := by
  obtain ⟨-, named, unnamed⟩ := points_of_sameName scored
  obtain ⟨most, -, unnamedBetter⟩ := points_of_sameName scoredBetter
  rintro (same | best)
  · have thousand := named same
    omega
  · obtain ⟨different, notBetter⟩ := best better member (candidate_of_points scoredBetter)
    have rankBetter := (unnamedBetter different).1
    by_cases same : SameName python (nameOf entity) hint
    · have thousand := named same
      omega
    · have rankOwn := (unnamed same).1
      omega

theorem firstMatch_of_leads (leads : Leads (points python domain hint) states total entity) :
    FirstMatch python states domain hint entity where
  candidate := candidate_of_points leads.scored
  best := best_of_leads leads
  first := by
    obtain ⟨before, after, order, worse, -⟩ := leads.place
    refine ⟨before, after, order, ?_⟩
    intro earlier member candidate
    have scored := points_of_candidate candidate
    exact not_best_of_lt leads.mem scored leads.scored (worse earlier member _ scored)

/-- No candidate that is best stands before a first match. -/
theorem FirstMatch.not_before {first second : Entity} {more after after' : List Entity}
    (left : FirstMatch python states domain hint first)
    (rest : first :: after = more ++ second :: after')
    (earlier : ∀ entity ∈ more, Candidate python domain hint entity →
      ¬ Best python states domain hint entity) : first = second := by
  cases more with
  | nil => exact (List.cons.inj rest).1
  | cons head more =>
      rw [(List.cons.inj rest).1] at left
      exact absurd left.best (earlier head List.mem_cons_self left.candidate)

theorem FirstMatch.unique {first second : Entity}
    (left : FirstMatch python states domain hint first)
    (right : FirstMatch python states domain hint second) : first = second := by
  obtain ⟨before, after, order, earlier⟩ := left.first
  obtain ⟨before', after', order', earlier'⟩ := right.first
  have same := order.symm.trans order'
  rcases List.append_eq_append_iff.mp same with ⟨more, rfl, rest⟩ | ⟨more, rfl, rest⟩
  · apply left.not_before rest
    intro entity member
    exact earlier' entity (List.mem_append_right _ member)
  · symm
    apply right.not_before rest
    intro entity member
    exact earlier entity (List.mem_append_right _ member)

theorem FirstMatch.mem (first : FirstMatch python states domain hint entity) :
    entity ∈ states := by
  obtain ⟨before, after, rfl, -⟩ := first.first
  exact List.mem_append_right _ List.mem_cons_self

/-- A first match is what leads by points. -/
theorem FirstMatch.firstBest_eq (first : FirstMatch python states domain hint entity) :
    firstBest (points python domain hint) states = some entity := by
  cases best : firstBest (points python domain hint) states with
  | none =>
      have unscored := firstBest_eq_none_iff.mp best entity first.mem
      exact absurd first.candidate (points_eq_none_iff.mp unscored)
  | some other =>
      obtain ⟨total, leads⟩ := exists_leads_of_firstBest best
      rw [(firstMatch_of_leads leads).unique first]

theorem contains_dot (hint : Text) :
    (Value.str hint).contains ['.'] = .ok (decide ('.' ∈ hint)) := by
  rw [Value.contains, contains]
  exact congrArg Except.ok (decide_eq_decide.mpr (List.singleton_infix_iff _ _))

theorem truthy_str (something : hint ≠ []) : (Value.str hint).truthy = true :=
  decide_eq_true something

theorem ne_nil_of_tokens (lower_nil : python.lower [] = []) (said : tokens python hint ≠ []) :
    hint ≠ [] := by
  rintro rfl
  rw [tokens, lower_nil] at said
  contradiction

/-- A hint without a dot goes through the scores, unless it has no tokens. -/
theorem haFindEntity_undotted (something : hint ≠ []) (undotted : '.' ∉ hint) :
    haFindEntity python states (.str hint) domain =
      if tokens python hint = [] then .ok none
      else pickBest (candidateScore python hint (tokens python hint) domain) states none := by
  rw [haFindEntity, truthy_str something, Bool.not_true, if_neg Bool.false_ne_true,
    contains_dot, decide_eq_false undotted]

theorem haFindEntity_eq (named : ∀ entity ∈ states, Named entity) (something : hint ≠ [])
    (undotted : '.' ∉ hint) (said : tokens python hint ≠ []) :
    haFindEntity python states (.str hint) domain =
      .ok (firstBest (points python domain hint) states) := by
  rw [haFindEntity_undotted something undotted, if_neg said]
  exact pickBest_eq states none fun entity member => candidateScore_eq (named entity member)

end

/-- The matcher answers nothing exactly if the hint covers no entity of the domain, and
otherwise the first of the best it covers. An entity of the domain whose friendly name is
the hint is found under that name. Of `str.lower` it takes that nothing lowers to nothing. -/
theorem haFindEntity_spec (python : Interpreter) (states : List Entity) (domain hint : Text)
    (named : ∀ entity ∈ states, Named entity) (undotted : '.' ∉ hint)
    (lower_nil : python.lower [] = []) (said : tokens python hint ≠ []) :
    ∃ found, haFindEntity python states (.str hint) domain = .ok found ∧
      (found = none ↔ ∀ entity ∈ states, ¬ Candidate python domain hint entity) ∧
      (∀ entity, found = some entity → FirstMatch python states domain hint entity) ∧
      ((∃ entity ∈ states, InDomain domain entity ∧ friendlyName entity = .str hint) →
        ∃ entity, found = some entity ∧ SameName python (nameOf entity) hint) := by
  have nobody : firstBest (points python domain hint) states = none ↔
      ∀ entity ∈ states, ¬ Candidate python domain hint entity := by
    rw [firstBest_eq_none_iff]
    exact forall₂_congr fun _ _ => points_eq_none_iff
  have first : ∀ entity, firstBest (points python domain hint) states = some entity →
      FirstMatch python states domain hint entity := by
    intro entity best
    obtain ⟨total, leads⟩ := exists_leads_of_firstBest best
    exact firstMatch_of_leads leads
  have something := ne_nil_of_tokens lower_nil said
  refine ⟨_, haFindEntity_eq named something undotted said, nobody, first, ?_⟩
  rintro ⟨entity, member, inDomain, name⟩
  have own : nameOf entity = hint := by
    rw [nameOf, name]
  have candidate : Candidate python domain hint entity :=
    ⟨inDomain, fun token inside => Or.inl (own ▸ inside)⟩
  cases best : firstBest (points python domain hint) states with
  | none => exact absurd candidate (nobody.mp best entity member)
  | some found =>
      refine ⟨found, rfl, ?_⟩
      rcases (first found best).best with same | ranked
      · exact same
      · exact absurd (own ▸ rfl) (ranked entity member candidate).1

/-- An entity with a friendly name and nothing else. -/
def namedEntity (entityId name : Text) : Entity :=
  ⟨entityId, [("friendly_name".toList, .str name)], .none⟩

theorem named_namedEntity (entityId name : Text) : Named (namedEntity entityId name) := by
  intro value given
  cases given
  exact ⟨name, rfl⟩

/-- Some of the entities the matcher is tested on. -/
def houseStates : List Entity :=
  [namedEntity "light.basement_sitting_area_nook_lights".toList "Dan's Office Can Light".toList,
    namedEntity "light.basement_sitting_area_screen_lights".toList
      "Basement Sitting Area Screen Lights".toList,
    namedEntity "switch.back_door_flood".toList "Back Door Flood".toList]

theorem named_houseStates : ∀ entity ∈ houseStates, Named entity := by
  intro entity member
  simp only [houseStates, List.mem_cons, List.not_mem_nil, or_false] at member
  rcases member with rfl | rfl | rfl <;> exact named_namedEntity _ _

def plainPython : Interpreter := .ascii (fun _ => []) fun _ => false

theorem haFindEntity_spec_nook :
    ∃ found, haFindEntity plainPython houseStates (.str "nook lights".toList) "light".toList =
        .ok found ∧
      (found = none ↔ ∀ entity ∈ houseStates,
        ¬ Candidate plainPython "light".toList "nook lights".toList entity) ∧
      (∀ entity, found = some entity →
        FirstMatch plainPython houseStates "light".toList "nook lights".toList entity) ∧
      ((∃ entity ∈ houseStates, InDomain "light".toList entity ∧
          friendlyName entity = .str "nook lights".toList) →
        ∃ entity, found = some entity ∧
          SameName plainPython (nameOf entity) "nook lights".toList) :=
  haFindEntity_spec plainPython houseStates "light".toList "nook lights".toList named_houseStates
    (by decide) rfl (by decide)

end WallUnit.Server
