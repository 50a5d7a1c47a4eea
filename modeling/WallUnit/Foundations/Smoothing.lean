import Mathlib.Algebra.Order.Ring.Nat
import Mathlib.Logic.Function.Iterate
import Mathlib.Tactic.Ring

/-!
Owns exponential smoothing in whole numbers, rounded down: the estimate moves towards its
target and never past it, its distance shrinks geometrically down to a remainder that the
rounding keeps, and how many steps bring it there.

Does not own what is smoothed.
-/

namespace WallUnit.Foundations

/-- One step of the filter: `weight` parts of the target in `scale`. -/
def smooth (scale weight target estimate : Nat) : Nat :=
  (target * weight + estimate * (scale - weight)) / scale

section

variable {scale weight target estimate : Nat}

/-- The weights of the two parts make up a whole. -/
theorem mul_weights (within : weight ≤ scale) (value : Nat) :
    value * weight + value * (scale - weight) = value * scale := by
  rw [← Nat.mul_add, Nat.add_sub_cancel' within]

theorem smooth_le {bound : Nat} (within : weight ≤ scale)
    (targetLe : target ≤ bound) (estimateLe : estimate ≤ bound) :
    smooth scale weight target estimate ≤ bound := by
  refine Nat.div_le_of_le_mul ?_
  rw [Nat.mul_comm scale, ← mul_weights within]
  exact Nat.add_le_add (Nat.mul_le_mul_right _ targetLe) (Nat.mul_le_mul_right _ estimateLe)

theorem le_smooth {bound : Nat} (positive : 0 < scale) (within : weight ≤ scale)
    (targetGe : bound ≤ target) (estimateGe : bound ≤ estimate) :
    bound ≤ smooth scale weight target estimate := by
  refine (Nat.le_div_iff_mul_le positive).mpr ?_
  rw [← mul_weights within]
  exact Nat.add_le_add (Nat.mul_le_mul_right _ targetGe) (Nat.mul_le_mul_right _ estimateGe)

/-- From below, what is left of the distance is its `scale - weight` parts, rounded up. -/
theorem smooth_gap (positive : 0 < scale) (within : weight ≤ scale)
    (below : estimate ≤ target) :
    scale * (target - smooth scale weight target estimate)
      < (target - estimate) * (scale - weight) + scale := by
  obtain ⟨distance, rfl⟩ := Nat.exists_eq_add_of_le below
  have rounded := Nat.lt_div_mul_add positive
    (a := (estimate + distance) * weight + estimate * (scale - weight))
  have whole := mul_weights within distance
  have old := mul_weights within estimate
  rw [Nat.mul_comm scale, Nat.sub_mul, Nat.add_sub_cancel_left, smooth]
  have targetParts := Nat.add_mul estimate distance weight
  have target := Nat.add_mul estimate distance scale
  omega

/-- The filter held on one target for `steps` steps. -/
def settle (scale weight target : Nat) (steps estimate : Nat) : Nat :=
  (smooth scale weight target)^[steps] estimate

theorem settle_succ (steps : Nat) :
    settle scale weight target (steps + 1) estimate
      = smooth scale weight target (settle scale weight target steps estimate) :=
  Function.iterate_succ_apply' _ _ _

theorem settle_le (within : weight ≤ scale) (below : estimate ≤ target) (steps : Nat) :
    settle scale weight target steps estimate ≤ target := by
  induction steps with
  | zero => exact below
  | succ steps inductionHypothesis =>
      rw [settle_succ]
      exact smooth_le within (Nat.le_refl target) inductionHypothesis

theorem le_settle (positive : 0 < scale) (within : weight ≤ scale) (above : target ≤ estimate)
    (steps : Nat) : target ≤ settle scale weight target steps estimate := by
  induction steps with
  | zero => exact above
  | succ steps inductionHypothesis =>
      rw [settle_succ]
      exact le_smooth positive within (Nat.le_refl target) inductionHypothesis

theorem settle_mono (positive : 0 < scale) (within : weight ≤ scale) (below : estimate ≤ target)
    {steps later : Nat} (le : steps ≤ later) :
    settle scale weight target steps estimate ≤ settle scale weight target later estimate := by
  induction later, le using Nat.le_induction with
  | base => exact Nat.le_refl _
  | succ later _ inductionHypothesis =>
      rw [settle_succ]
      exact le_smooth positive within (settle_le within below steps) inductionHypothesis

/-- A distance of `rest` pays for the rounding with `slack` parts of it, so until then the
distance shrinks by the factor `(scale - weight + slack) / scale` a step. -/
theorem settle_gap {rest slack : Nat} (positive : 0 < scale) (within : weight ≤ scale)
    (pays : scale ≤ rest * slack) (below : estimate ≤ target) (steps : Nat) :
    target - settle scale weight target steps estimate < rest ∨
      scale ^ steps * (target - settle scale weight target steps estimate)
        ≤ (target - estimate) * (scale - weight + slack) ^ steps := by
  induction steps with
  | zero =>
      refine Or.inr ?_
      rw [Nat.pow_zero, Nat.pow_zero, Nat.one_mul, Nat.mul_one]
      exact Nat.le_refl _
  | succ steps inductionHypothesis =>
      have before := settle_le within below steps
      have kept : settle scale weight target steps estimate
          ≤ smooth scale weight target (settle scale weight target steps estimate) :=
        le_smooth positive within before (Nat.le_refl _)
      rw [settle_succ]
      rcases inductionHypothesis with near | shrunk
      · exact Or.inl (Nat.lt_of_le_of_lt (Nat.sub_le_sub_left kept target) near)
      · by_cases near : target - settle scale weight target steps estimate < rest
        · exact Or.inl (Nat.lt_of_le_of_lt (Nat.sub_le_sub_left kept target) near)
        refine Or.inr ?_
        have paid : scale ≤ (target - settle scale weight target steps estimate) * slack :=
          Nat.le_trans pays (Nat.mul_le_mul_right slack (Nat.le_of_not_lt near))
        have one := (smooth_gap positive within before).le
        calc scale ^ (steps + 1)
              * (target - smooth scale weight target (settle scale weight target steps estimate))
            = scale ^ steps * (scale * (target
                - smooth scale weight target (settle scale weight target steps estimate))) := by
              rw [Nat.pow_succ, Nat.mul_assoc]
          _ ≤ scale ^ steps * ((target - settle scale weight target steps estimate)
                * (scale - weight + slack)) := by
              refine Nat.mul_le_mul_left _ (Nat.le_trans one ?_)
              rw [Nat.mul_add]
              exact Nat.add_le_add_left paid _
          _ = scale ^ steps * (target - settle scale weight target steps estimate)
                * (scale - weight + slack) := (Nat.mul_assoc _ _ _).symm
          _ ≤ (target - estimate) * (scale - weight + slack) ^ steps
                * (scale - weight + slack) := Nat.mul_le_mul_right _ shrunk
          _ = (target - estimate) * (scale - weight + slack) ^ (steps + 1) := by
              rw [Nat.pow_succ, Nat.mul_assoc]

/-- Held on one target long enough, an estimate below it comes within `rest` of it and stays
there. -/
theorem settle_near {rest slack steps later : Nat} (positive : 0 < scale)
    (within : weight ≤ scale) (pays : scale ≤ rest * slack) (below : estimate ≤ target)
    (long : target * (scale - weight + slack) ^ steps < rest * scale ^ steps)
    (le : steps ≤ later) : target - settle scale weight target later estimate < rest := by
  refine Nat.lt_of_le_of_lt (Nat.sub_le_sub_left (settle_mono positive within below le) target) ?_
  rcases settle_gap positive within pays below steps with near | shrunk
  · exact near
  · have less : scale ^ steps * (target - settle scale weight target steps estimate)
        < scale ^ steps * rest := by
      rw [Nat.mul_comm _ rest]
      exact Nat.lt_of_le_of_lt
        (Nat.le_trans shrunk (Nat.mul_le_mul_right _ (Nat.sub_le _ _))) long
    exact Nat.lt_of_mul_lt_mul_left less

end

end WallUnit.Foundations
