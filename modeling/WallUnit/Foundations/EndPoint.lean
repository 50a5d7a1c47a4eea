import Mathlib.Data.List.Induction
import Mathlib.Data.List.Infix

/-!
Owns sequences that end with a run of items without a mark: how long the run is, when a
run of a given length stands behind a marked item, and the first place of a sequence
where one does.

Does not own what the items or the marks are.
-/

namespace WallUnit.Foundations

section

variable {Item : Type} (marked : Item → Bool)

/-- The length of the run of unmarked items at the end, as a counter keeps it. -/
def trailingRun (items : List Item) : Nat :=
  items.foldl (fun run item => if marked item then 0 else run + 1) 0

/-- The last `count` items are unmarked and a marked item stands before them. -/
structure EndsRun (count : Nat) (items : List Item) : Prop where
  long : count ≤ items.length
  unmarked : ∀ item ∈ items.drop (items.length - count), marked item = false
  behind : ∃ item ∈ items.take (items.length - count), marked item = true

/-- `place` is the first of the places where a run of `count` has just ended and of the
end of the sequence. -/
structure FirstStop (count : Nat) (items : List Item) (place : Nat) : Prop where
  within : place ≤ items.length
  stops : EndsRun marked count (items.take place) ∨ place = items.length
  first : ∀ earlier < place, ¬ EndsRun marked count (items.take earlier)

variable {marked} {items : List Item} {count : Nat} {item : Item}

theorem trailingRun_append_marked (mark : marked item = true) :
    trailingRun marked (items ++ [item]) = 0 := by
  rw [trailingRun, List.foldl_append, List.foldl_cons, List.foldl_nil, if_pos mark]

theorem trailingRun_append_unmarked (mark : marked item = false) :
    trailingRun marked (items ++ [item]) = trailingRun marked items + 1 := by
  rw [trailingRun, List.foldl_append, List.foldl_cons, List.foldl_nil, mark,
    if_neg Bool.false_ne_true, trailingRun]

theorem trailingRun_le (items : List Item) : trailingRun marked items ≤ items.length := by
  induction items using List.reverseRecOn with
  | nil => exact Nat.le_refl _
  | append_singleton items item inductionHypothesis =>
      rw [List.length_append, List.length_singleton]
      cases mark : marked item with
      | true =>
          rw [trailingRun_append_marked mark]
          exact Nat.zero_le _
      | false =>
          rw [trailingRun_append_unmarked mark]
          exact Nat.succ_le_succ inductionHypothesis

/-- A run that takes in one more item begins where it began. -/
theorem length_append_sub (items : List Item) (item : Item) (count : Nat) :
    (items ++ [item]).length - (count + 1) = items.length - count := by
  rw [List.length_append, List.length_singleton, Nat.add_sub_add_right]

/-- The counter counts unmarked items. -/
theorem unmarked_of_le_trailingRun (inside : count ≤ trailingRun marked items) :
    ∀ item ∈ items.drop (items.length - count), marked item = false := by
  induction items using List.reverseRecOn generalizing count with
  | nil => simp
  | append_singleton items last inductionHypothesis =>
      cases count with
      | zero => simp
      | succ count =>
          cases mark : marked last with
          | true =>
              rw [trailingRun_append_marked mark] at inside
              exact absurd inside (Nat.not_succ_le_zero count)
          | false =>
              rw [trailingRun_append_unmarked mark] at inside
              rw [length_append_sub, List.drop_append_of_le_length (Nat.sub_le _ _)]
              intro item member
              rcases List.mem_append.mp member with before | here
              · exact inductionHypothesis (Nat.le_of_succ_le_succ inside) item before
              · rwa [List.mem_singleton.mp here]

theorem EndsRun.exists_marked (ends : EndsRun marked count items) :
    ∃ item ∈ items, marked item = true := by
  obtain ⟨item, member, mark⟩ := ends.behind
  exact ⟨item, List.mem_of_mem_take member, mark⟩

/-- A counter that reaches `count` behind a marked item ends a run of `count`. -/
theorem endsRun_of_le_trailingRun (some_ : ∃ item ∈ items, marked item = true)
    (inside : count ≤ trailingRun marked items) : EndsRun marked count items where
  long := inside.trans (trailingRun_le items)
  unmarked := unmarked_of_le_trailingRun inside
  behind := by
    obtain ⟨item, member, mark⟩ := some_
    rw [← List.take_append_drop (items.length - count) items] at member
    rcases List.mem_append.mp member with before | run
    · exact ⟨item, before, mark⟩
    · rw [unmarked_of_le_trailingRun inside item run] at mark
      contradiction

theorem EndsRun.le_trailingRun (ends : EndsRun marked count items) :
    count ≤ trailingRun marked items := by
  induction items using List.reverseRecOn generalizing count with
  | nil => exact ends.long
  | append_singleton items last inductionHypothesis =>
      cases count with
      | zero => exact Nat.zero_le _
      | succ count =>
          have long := ends.long
          rw [List.length_append, List.length_singleton] at long
          have unmarked := ends.unmarked
          have behind := ends.behind
          rw [length_append_sub, List.drop_append_of_le_length (Nat.sub_le _ _)] at unmarked
          rw [length_append_sub, List.take_append_of_le_length (Nat.sub_le _ _)] at behind
          have mark : marked last = false :=
            unmarked last (List.mem_append_right _ List.mem_cons_self)
          rw [trailingRun_append_unmarked mark]
          apply Nat.succ_le_succ
          apply inductionHypothesis
          exact ⟨Nat.le_of_succ_le_succ long,
            fun item member => unmarked item (List.mem_append_left _ member), behind⟩

/-- Places inside a part are places of the whole. -/
theorem endsRun_take_append {more : List Item} {place : Nat} (inside : place ≤ items.length) :
    EndsRun marked count ((items ++ more).take place) ↔
      EndsRun marked count (items.take place) := by
  rw [List.take_append_of_le_length inside]

end

end WallUnit.Foundations
