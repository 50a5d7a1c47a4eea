import Mathlib.Data.List.TakeDrop

/-!
Owns first-in first-out queues of bounded capacity whose senders may be cut
short: an offer appends the prefix that still fits, a poll removes a prefix.
The capacity bound is a field of the queue, so a queue that holds too much
cannot be built.

Does not own blocking or timeouts; a sender that waited for room is an offer
made later.
-/

namespace WallUnit.Foundations

/-- A queue that never holds more than its capacity. -/
structure BoundedFifo (α : Type) where
  capacity : Nat
  queued : List α
  bounded : queued.length ≤ capacity

namespace BoundedFifo

variable {α : Type}

def empty (capacity : Nat) : BoundedFifo α := ⟨capacity, [], Nat.zero_le _⟩

def free (fifo : BoundedFifo α) : Nat := fifo.capacity - fifo.queued.length

/-- Append the prefix of `items` that fits. -/
def offer (fifo : BoundedFifo α) (items : List α) : BoundedFifo α where
  capacity := fifo.capacity
  queued := fifo.queued ++ items.take fifo.free
  bounded := by
    have := fifo.bounded
    simp only [List.length_append, List.length_take, free]
    omega

def accepted (fifo : BoundedFifo α) (items : List α) : Nat := min fifo.free items.length

/-- Remove the first `count` items, or all of them if there are fewer. -/
def poll (fifo : BoundedFifo α) (count : Nat) : BoundedFifo α where
  capacity := fifo.capacity
  queued := fifo.queued.drop count
  bounded := by
    have := fifo.bounded
    rw [List.length_drop]
    omega

theorem mem_offer {fifo : BoundedFifo α} {items : List α} {item : α}
    (member : item ∈ (fifo.offer items).queued) : item ∈ fifo.queued ∨ item ∈ items := by
  rcases List.mem_append.mp member with old | new
  · exact Or.inl old
  · exact Or.inr (List.mem_of_mem_take new)

theorem offer_queued_of_fits {fifo : BoundedFifo α} {items : List α}
    (fits : items.length ≤ fifo.free) : (fifo.offer items).queued = fifo.queued ++ items := by
  simp [offer, List.take_of_length_le fits]

theorem accepted_eq_length_iff {fifo : BoundedFifo α} {items : List α} :
    fifo.accepted items = items.length ↔ items.length ≤ fifo.free := by
  unfold accepted
  omega

/-- Nothing is lost between what a poll hands out and what stays queued. -/
theorem take_append_poll (fifo : BoundedFifo α) (count : Nat) :
    fifo.queued.take count ++ (fifo.poll count).queued = fifo.queued :=
  List.take_append_drop _ _

end BoundedFifo

end WallUnit.Foundations
