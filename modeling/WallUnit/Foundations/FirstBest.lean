import Mathlib

/-!
Owns the choice of the first of the best items of a list, where some items have a rank
and the others are not eligible.

Does not own what the ranks stand for.
-/

namespace WallUnit.Foundations

section

variable {Item Rank : Type} [LinearOrder Rank] (score : Item → Option Rank)

/-- The best so far, after one more item. An item that is only as good does not lead. -/
def leader (best : Option (Rank × Item)) (item : Item) : Option (Rank × Item) :=
  match score item, best with
  | none, best => best
  | some rank, none => some (rank, item)
  | some rank, some (high, held) => if high < rank then some (rank, item) else some (high, held)

def firstBest (items : List Item) : Option Item := (items.foldl (leader score) none).map Prod.snd

/-- The item has this rank, what stands before it is worse and what stands behind it is not
better. -/
structure Leads (items : List Item) (rank : Rank) (item : Item) : Prop where
  scored : score item = some rank
  place : ∃ before after : List Item, items = before ++ item :: after ∧
    (∀ earlier ∈ before, ∀ other, score earlier = some other → other < rank) ∧
    ∀ later ∈ after, ∀ other, score later = some other → other ≤ rank

variable {score} {items : List Item} {rank : Rank} {item last : Item}

theorem leader_of_none {best : Option (Rank × Item)} (scored : score item = none) :
    leader score best item = best := by
  simp only [leader, scored]

theorem leader_none (scored : score item = some rank) :
    leader score none item = some (rank, item) := by
  simp only [leader, scored]

theorem leader_some {high : Rank} {held : Item} (scored : score item = some rank) :
    leader score (some (high, held)) item =
      if high < rank then some (rank, item) else some (high, held) := by
  simp only [leader, scored]

theorem Leads.mem (leads : Leads score items rank item) : item ∈ items := by
  obtain ⟨before, after, rfl, -, -⟩ := leads.place
  exact List.mem_append_right _ List.mem_cons_self

/-- Nothing outranks the leader. -/
theorem Leads.le (leads : Leads score items rank item) {other : Item} {points : Rank}
    (member : other ∈ items) (scored : score other = some points) : points ≤ rank := by
  obtain ⟨before, after, rfl, worse, notBetter⟩ := leads.place
  rcases List.mem_append.mp member with earlier | rest
  · exact (worse other earlier points scored).le
  rcases List.mem_cons.mp rest with here | later
  · rw [here, leads.scored] at scored
    exact (Option.some.inj scored).ge
  · exact notBetter other later points scored

/-- A leader stays in front of what is not better. -/
theorem Leads.append (leads : Leads score items rank item)
    (low : ∀ other, score last = some other → other ≤ rank) :
    Leads score (items ++ [last]) rank item where
  scored := leads.scored
  place := by
    obtain ⟨before, after, rfl, worse, notBetter⟩ := leads.place
    refine ⟨before, after ++ [last], ?_, worse, ?_⟩
    · rw [List.append_assoc, List.cons_append]
    · intro later member
      rcases List.mem_append.mp member with inside | new
      · exact notBetter later inside
      · rw [List.mem_singleton.mp new]
        exact low

/-- What is better than everything before it leads. -/
theorem leads_last (scored : score last = some rank)
    (worse : ∀ earlier ∈ items, ∀ other, score earlier = some other → other < rank) :
    Leads score (items ++ [last]) rank last where
  scored := scored
  place := by
    refine ⟨items, [], rfl, worse, ?_⟩
    intro later member
    contradiction

/-- What the fold holds: no item was eligible, or the leader. -/
def Holds (score : Item → Option Rank) (items : List Item) : Option (Rank × Item) → Prop
  | none => ∀ item ∈ items, score item = none
  | some (rank, item) => Leads score items rank item

theorem Holds.leader {best : Option (Rank × Item)} (holds : Holds score items best) :
    Holds score (items ++ [last]) (Foundations.leader score best last) := by
  cases scored : score last with
  | none =>
      rw [leader_of_none scored]
      cases best with
      | none =>
          intro item member
          rcases List.mem_append.mp member with inside | new
          · exact holds item inside
          · rwa [List.mem_singleton.mp new]
      | some held =>
          apply Leads.append holds
          intro other eligible
          rw [scored] at eligible
          contradiction
  | some rank =>
      cases best with
      | none =>
          rw [leader_none scored]
          apply leads_last scored
          intro earlier member other eligible
          rw [holds earlier member] at eligible
          contradiction
      | some held =>
          rw [leader_some scored]
          split_ifs with better
          · apply leads_last scored
            intro earlier member other eligible
            exact (Leads.le holds member eligible).trans_lt better
          · apply Leads.append holds
            intro other eligible
            rw [scored] at eligible
            exact Option.some.inj eligible ▸ not_lt.mp better

theorem holds_foldl (items : List Item) : Holds score items (items.foldl (leader score) none) := by
  induction items using List.reverseRecOn with
  | nil =>
      intro item member
      contradiction
  | append_singleton items last inductionHypothesis =>
      rw [List.foldl_append, List.foldl_cons, List.foldl_nil]
      exact inductionHypothesis.leader

theorem firstBest_eq_none_iff :
    firstBest score items = none ↔ ∀ item ∈ items, score item = none := by
  have holds := @holds_foldl _ _ _ score items
  rw [firstBest, Option.map_eq_none_iff]
  cases best : items.foldl (leader score) none with
  | none =>
      rw [best] at holds
      exact iff_of_true rfl holds
  | some held =>
      rw [best] at holds
      refine iff_of_false (Option.some_ne_none held) ?_
      intro nobody
      have leads : Leads score items held.1 held.2 := holds
      have scored := leads.scored
      rw [nobody held.2 leads.mem] at scored
      contradiction

theorem exists_leads_of_firstBest (best : firstBest score items = some item) :
    ∃ rank, Leads score items rank item := by
  have holds := @holds_foldl _ _ _ score items
  obtain ⟨⟨rank, held⟩, folded, rfl⟩ := Option.map_eq_some_iff.mp best
  rw [folded] at holds
  exact ⟨rank, holds⟩

end

end WallUnit.Foundations
