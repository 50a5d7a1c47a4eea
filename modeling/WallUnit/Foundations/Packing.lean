import Mathlib.Algebra.BigOperators.Intervals
import Mathlib.Algebra.Order.BigOperators.Group.Finset

/-!
Owns runs of items written into a memory of given size: that a run reads back, that runs apart
from each other do not disturb one another, and that a sum over a padded stretch is the sum over
the run in it.

Does not own how the runs are placed.
-/

namespace WallUnit.Foundations

section

variable {α : Type}

/-- The items, written one behind the other from `base` on. -/
def writeRun (memory : List α) (base : Nat) : List α → List α
  | [] => memory
  | item :: rest => writeRun (memory.set base item) (base + 1) rest

def writeRuns (memory : List α) (runs : List (Nat × List α)) : List α :=
  runs.foldl (fun memory run => writeRun memory run.1 run.2) memory

/-- `index` is a place of the run. -/
def InRun (run : Nat × List α) (index : Nat) : Prop := run.1 ≤ index ∧ index < run.1 + run.2.length

/-- The two runs have no place in common. -/
def Apart (first second : Nat × List α) : Prop := ∀ index, InRun first index → ¬ InRun second index

theorem Apart.symm {first second : Nat × List α} (apart : Apart first second) :
    Apart second first := fun index inside other => apart index other inside

@[simp] theorem length_writeRun (memory : List α) (base : Nat) (items : List α) :
    (writeRun memory base items).length = memory.length := by
  induction items generalizing memory base with
  | nil => rfl
  | cons item rest inductionHypothesis =>
      rw [writeRun, inductionHypothesis, List.length_set]

@[simp] theorem length_writeRuns (memory : List α) (runs : List (Nat × List α)) :
    (writeRuns memory runs).length = memory.length := by
  induction runs generalizing memory with
  | nil => rfl
  | cons run rest inductionHypothesis =>
      rw [writeRuns, List.foldl_cons, ← writeRuns, inductionHypothesis, length_writeRun]

theorem getElem?_writeRun_outside {memory items : List α} {base index : Nat}
    (outside : ¬ InRun (base, items) index) :
    (writeRun memory base items)[index]? = memory[index]? := by
  induction items generalizing memory base with
  | nil => rfl
  | cons item rest inductionHypothesis =>
      simp only [InRun, List.length_cons] at outside
      rw [writeRun, inductionHypothesis, List.getElem?_set_ne (by omega)]
      simp only [InRun]
      omega

theorem getElem?_writeRun_inside {memory items : List α} {base offset : Nat}
    (inside : offset < items.length) (fits : base + offset < memory.length) :
    (writeRun memory base items)[base + offset]? = items[offset]? := by
  induction items generalizing memory base offset with
  | nil => exact absurd inside (Nat.not_lt_zero _)
  | cons item rest inductionHypothesis =>
      rw [writeRun]
      cases offset with
      | zero =>
          rw [getElem?_writeRun_outside (by simp only [InRun]; omega), Nat.add_zero,
            List.getElem?_set_self (by omega), List.getElem?_cons_zero]
      | succ offset =>
          rw [List.getElem?_cons_succ, ← Nat.add_assoc, Nat.add_right_comm]
          apply inductionHypothesis
          · exact Nat.lt_of_succ_lt_succ inside
          · rw [List.length_set]
            omega

theorem getElem?_writeRuns_outside {memory : List α} {runs : List (Nat × List α)} {index : Nat}
    (outside : ∀ run ∈ runs, ¬ InRun run index) :
    (writeRuns memory runs)[index]? = memory[index]? := by
  induction runs generalizing memory with
  | nil => rfl
  | cons run rest inductionHypothesis =>
      rw [writeRuns, List.foldl_cons, ← writeRuns, inductionHypothesis,
        getElem?_writeRun_outside (outside run List.mem_cons_self)]
      exact fun other member => outside other (List.mem_cons_of_mem _ member)

/-- Runs that are apart from each other all read back. -/
theorem getElem?_writeRuns_inside {memory : List α} {runs : List (Nat × List α)}
    (apart : runs.Pairwise Apart) {run : Nat × List α} (member : run ∈ runs) {offset : Nat}
    (inside : offset < run.2.length) (fits : run.1 + offset < memory.length) :
    (writeRuns memory runs)[run.1 + offset]? = run.2[offset]? := by
  induction runs generalizing memory with
  | nil => contradiction
  | cons first rest inductionHypothesis =>
      rw [writeRuns, List.foldl_cons, ← writeRuns]
      rcases List.mem_cons.mp member with rfl | later
      · rw [getElem?_writeRuns_outside, getElem?_writeRun_inside inside fits]
        intro other laterOther
        exact List.rel_of_pairwise_cons apart laterOther _ ⟨by omega, by omega⟩
      · apply inductionHypothesis apart.of_cons later
        rwa [length_writeRun]

end

/-- A sum over a stretch that is zero outside a run. -/
theorem sum_padded {stretch offset width shift : Nat} {padded item : Nat → Nat}
    (fits : offset + width ≤ stretch)
    (inside : ∀ index, offset ≤ index → index < offset + width →
      padded index = item (shift + index))
    (outside : ∀ index < stretch, ¬ (offset ≤ index ∧ index < offset + width) →
      padded index = 0) :
    ∑ index ∈ Finset.range stretch, padded index =
      ∑ place ∈ Finset.Ico (shift + offset) (shift + offset + width), item place := by
  have whole : ∑ index ∈ Finset.Ico offset (offset + width), padded index =
      ∑ index ∈ Finset.range stretch, padded index := by
    apply Finset.sum_subset
    · intro index member
      have within := Finset.mem_Ico.mp member
      exact Finset.mem_range.mpr (by omega)
    · intro index member other
      exact outside index (Finset.mem_range.mp member) fun within =>
        other (Finset.mem_Ico.mpr within)
  rw [← whole, Nat.add_assoc, Nat.add_comm shift, Nat.add_comm shift, ← Finset.sum_Ico_add]
  apply Finset.sum_congr rfl
  intro index member
  have within := Finset.mem_Ico.mp member
  exact inside index within.1 within.2

/-- An accumulator in a register of `modulus` values. -/
theorem foldl_add_mod (term : Nat → Nat) (modulus start count : Nat) (fits : start < modulus) :
    (List.range count).foldl (fun total index => (total + term index) % modulus) start =
      (start + ∑ index ∈ Finset.range count, term index) % modulus := by
  induction count with
  | zero => exact (Nat.mod_eq_of_lt fits).symm
  | succ count inductionHypothesis =>
      rw [List.range_succ, List.foldl_append, inductionHypothesis, List.foldl_cons, List.foldl_nil,
        Nat.mod_add_mod, Finset.sum_range_succ, Nat.add_assoc]

end WallUnit.Foundations
