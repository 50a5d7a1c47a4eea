import Mathlib.Tactic.SplitIfs
import Mathlib.Logic.Function.Basic

/-!
Owns circular buffers that are written one slot at a time and read by age: which
slot holds the item written so many writes ago.

Does not own what is written, nor a bound on how often.
-/

namespace WallUnit.Foundations

/-- The ring `slots`, to be written next at `head`, holds `items`, newest first, and
`blank` where nothing has been written yet. -/
structure Window {α : Type} (size : Nat) (blank : α) (slots : Nat → α) (head : Nat)
    (items : List α) : Prop where
  inside : head < size
  newest : ∀ age < size, slots ((head + (size - 1 - age)) % size) = items.getD age blank

namespace Window

variable {α : Type} {size : Nat} {blank : α} {slots : Nat → α} {head : Nat} {items : List α}

theorem blank_start (positive : 0 < size) : Window size blank (fun _ => blank) 0 [] :=
  ⟨positive, fun _ _ => rfl⟩

theorem mod_of_lt_double {index : Nat} (within : index < 2 * size) :
    index % size = if index < size then index else index - size := by
  by_cases inside : index < size
  · rw [if_pos inside, Nat.mod_eq_of_lt inside]
  · rw [if_neg inside, Nat.mod_eq_sub_mod (Nat.le_of_not_lt inside), Nat.mod_eq_of_lt (by omega)]

/-- Writing at the head makes everything one write older and drops the oldest. -/
theorem push (window : Window size blank slots head items) (item : α) :
    Window size blank (Function.update slots head item) ((head + 1) % size) (item :: items) := by
  have inside := window.inside
  have next : (head + 1) % size = if head + 1 < size then head + 1 else head + 1 - size :=
    mod_of_lt_double (by omega)
  have nextInside : (head + 1) % size < size := Nat.mod_lt _ (by omega)
  refine ⟨nextInside, ?_⟩
  intro age young
  have slot := @mod_of_lt_double size ((head + 1) % size + (size - 1 - age)) (by omega)
  cases age with
  | zero =>
      have same : ((head + 1) % size + (size - 1 - 0)) % size = head := by
        rw [slot, next]
        split_ifs <;> omega
      rw [same, Function.update_self]
      rfl
  | succ age =>
      have older := @mod_of_lt_double size (head + (size - 1 - age)) (by omega)
      have same : ((head + 1) % size + (size - 1 - (age + 1))) % size =
          (head + (size - 1 - age)) % size := by
        rw [slot, older, next]
        split_ifs <;> omega
      have other : (head + (size - 1 - age)) % size ≠ head := by
        rw [older]
        split_ifs <;> omega
      rw [same, Function.update_of_ne other, window.newest age (Nat.lt_of_succ_lt young)]
      rfl

/-- Counted from the head on, the slots hold the items from the oldest on. -/
theorem oldest (window : Window size blank slots head items) {index : Nat}
    (inside : index < size) :
    slots ((head + index) % size) = items.getD (size - 1 - index) blank := by
  have age := window.newest (size - 1 - index) (by omega)
  have back : size - 1 - (size - 1 - index) = index := by omega
  rwa [back] at age

end Window

end WallUnit.Foundations
