import Mathlib.Data.Set.Finite.Range
import Mathlib.Data.Set.Finite.Basic

/-!
Owns walks: a position moves on as long as a condition holds of it. Over finitely
many positions a walk ends exactly when it never returns to a position it has
left.

Does not own any concrete loop.
-/

namespace WallUnit.Foundations

section Walk

variable {Position : Type} (next : Position → Position) (goesOn : Position → Prop)

/-- The walk makes its first `count` moves. -/
def Walks (start : Position) (count : Nat) : Prop := ∀ move < count, goesOn (next^[move] start)

/-- The walk never comes back to a position it has left. -/
def NeverReturns (start : Position) : Prop :=
  ∀ early late, early < late → Walks next goesOn start late →
    next^[early] start ≠ next^[late] start

variable {next goesOn}

theorem walks_zero (start : Position) : Walks next goesOn start 0 := by
  intro move before
  exact absurd before (Nat.not_lt_zero move)

theorem walks_succ {start : Position} {count : Nat} :
    Walks next goesOn start (count + 1) ↔
      goesOn start ∧ Walks next goesOn (next start) count := by
  constructor
  · intro walks
    exact ⟨walks 0 (Nat.succ_pos count), fun move before => walks (move + 1) (by omega)⟩
  · rintro ⟨first, rest⟩ move before
    cases move with
    | zero => exact first
    | succ move => exact rest move (by omega)

/-- A walk that returns goes round for ever. -/
theorem goesOn_of_return {start : Position} {early late : Nat} (before : early < late)
    (walks : Walks next goesOn start late) (returns : next^[early] start = next^[late] start)
    (move : Nat) : goesOn (next^[move] start) := by
  induction move using Nat.strong_induction_on with
  | _ move inductionHypothesis =>
      by_cases inside : move < late
      · exact walks move inside
      · have shifted : next^[move] start = next^[move - late + early] start := by
          calc next^[move] start
              = next^[move - late + late] start := by rw [Nat.sub_add_cancel (by omega)]
            _ = next^[move - late] (next^[late] start) := Function.iterate_add_apply ..
            _ = next^[move - late] (next^[early] start) := by rw [returns]
            _ = next^[move - late + early] start := (Function.iterate_add_apply ..).symm
        rw [shifted]
        exact inductionHypothesis _ (by omega)

theorem ends_iff_neverReturns {start : Position}
    (finite : (Set.range fun move => next^[move] start).Finite) :
    (∃ move, ¬ goesOn (next^[move] start)) ↔ NeverReturns next goesOn start := by
  constructor
  · rintro ⟨move, ends⟩ early late before walks returns
    exact ends (goesOn_of_return before walks returns move)
  · intro never
    by_contra endless
    have walks : ∀ count, Walks next goesOn start count := by
      intro count move _
      by_contra ends
      exact endless ⟨move, ends⟩
    have injective : Function.Injective fun move => next^[move] start := by
      intro left right same
      rcases Nat.lt_trichotomy left right with below | equal | above
      · exact absurd same (never left right below (walks right))
      · exact equal
      · exact absurd same.symm (never right left above (walks left))
    exact Set.infinite_range_of_injective injective finite

end Walk

end WallUnit.Foundations
