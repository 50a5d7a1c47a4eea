import WallUnit.Firmware.AudioOut.Alignment
import WallUnit.Foundations.BoundedFifo
import WallUnit.Foundations.Machine

/-!
Owns the byte rings of `audio_in.c`: the sends of the reader task and the calls of
`ring_drain`, cut at their receives, in every interleaving. Whatever piece of the ring a
receive hands out, the calls return whole samples, each once and in order:
`ringDrain_keeps_samples`.

Does not own the samples' way from I2S, nor the rings' allocation. A receive that waits for
its timeout is a receive made later.
-/

namespace WallUnit.Firmware.AudioIn

open WallUnit.Foundations
open WallUnit.Firmware.AudioOut (pcmOf wordsOf wordsOf_append wordsOf_pcmOf length_pcmOf)

variable {α : Type}

/-! ### The ring and its two users -/

/-- A call of `ring_drain` in its loop. `dst` is what it has copied, so `got_bytes` is its
length. -/
structure Drain (α : Type) where
  wantBytes : Nat
  dst : List α
  timeoutTicks : Nat
deriving Repr

/-- A ring, the call that drains it, the samples it has accepted and the samples that calls
have returned. -/
structure RingState (α : Type) where
  ring : BoundedFifo α
  drain : Option (Drain α)
  accepted : List (α × α)
  returned : List (α × α)

def RingState.created (capacity : Nat) : RingState α := ⟨.empty capacity, none, [], []⟩

/-- The bytes a call has received and not yet returned. -/
def RingState.inFlight (state : RingState α) : List α :=
  match state.drain with
  | none => []
  | some drain => drain.dst

inductive RingLabel (α : Type) where
  | send (samples : List (α × α)) (taken : Bool)
  | call (given : Bool) (nSamples timeoutTicks : Nat)
  | receive (chunkBytes : Nat)

/-- `xRingbufferSend`: the whole item or nothing. -/
def RingState.send (samples : List (α × α)) (taken : Bool) (state : RingState α) :
    Option (RingState α) :=
  if !taken then some state
  else if (pcmOf samples).length ≤ state.ring.free then
    some { state with
      ring := state.ring.offer (pcmOf samples)
      accepted := state.accepted ++ samples }
  else none

/-- `return got_bytes / sizeof(int16_t)`: the caller finds that many samples in its buffer. -/
def RingState.finish (state : RingState α) (drain : Drain α) : RingState α :=
  { state with drain := none, returned := state.returned ++ wordsOf drain.dst }

/-- The test of the loop. -/
def RingState.proceed (state : RingState α) (drain : Drain α) : RingState α :=
  if drain.dst.length < drain.wantBytes then { state with drain := some drain }
  else state.finish drain

/-- `ring_drain` up to its loop. `given` says that the ring and the buffer are there; the
rings have one consumer each. -/
def RingState.call (given : Bool) (nSamples timeoutTicks : Nat) (state : RingState α) :
    Option (RingState α) :=
  match state.drain with
  | some _ => none
  | none =>
      if !given || nSamples = 0 then some state
      -- `n_samples * sizeof(int16_t)` in 32 bits
      else some (state.proceed ⟨nSamples * 2 % 4294967296, [], timeoutTicks⟩)

/-- `xRingbufferReceiveUpTo` and the rest of the loop's body. It hands out a prefix of the
ring of at most the length asked for, or nothing, which is `chunkBytes = 0`, if the ring is
empty. -/
def RingState.receive (chunkBytes : Nat) (state : RingState α) : Option (RingState α) :=
  match state.drain with
  | none => none
  | some drain =>
      if chunkBytes = 0 then
        if state.ring.queued.isEmpty then some (state.finish drain) else none
      else if chunkBytes ≤ drain.wantBytes - drain.dst.length ∧
          chunkBytes ≤ state.ring.queued.length then
        some (RingState.proceed { state with ring := state.ring.poll chunkBytes }
          { drain with
            dst := drain.dst ++ state.ring.queued.take chunkBytes
            timeoutTicks := 0 })
      else none

def RingState.step (state : RingState α) : RingLabel α → Option (RingState α)
  | .send samples taken => state.send samples taken
  | .call given nSamples timeoutTicks => state.call given nSamples timeoutTicks
  | .receive chunkBytes => state.receive chunkBytes

def ringMachine (α : Type) (capacity : Nat) : Machine (RingState α) (RingLabel α) where
  init := .created capacity
  step := RingState.step

/-! ### Whole samples -/

theorem pcmOf_append (first second : List (α × α)) :
    pcmOf (first ++ second) = pcmOf first ++ pcmOf second := List.flatMap_append

theorem pcmOf_wordsOf {bytes : List α} (even : bytes.length % 2 = 0) :
    pcmOf (wordsOf bytes) = bytes := by
  induction bytes using WallUnit.Firmware.AudioOut.wordsOf.induct with
  | case1 low high rest inductionHypothesis =>
      have shorter : rest.length % 2 = 0 := by
        simp only [List.length_cons] at even
        omega
      exact congrArg (fun tail => low :: high :: tail) (inductionHypothesis shorter)
  | case2 bytes short =>
      rcases bytes with _ | ⟨low, _ | ⟨high, rest⟩⟩
      · rfl
      · simp at even
      · exact absurd rfl (short low high rest)

/-- An even front of some samples' bytes is whole samples, and so is what follows. -/
theorem pcmOf_split {samples : List (α × α)} {front back : List α}
    (even : front.length % 2 = 0) (split : front ++ back = pcmOf samples) :
    samples = wordsOf front ++ wordsOf back ∧ back = pcmOf (wordsOf back) := by
  have length := congrArg List.length split
  rw [List.length_append, length_pcmOf] at length
  constructor
  · rw [← wordsOf_append even, split, wordsOf_pcmOf]
  · exact (pcmOf_wordsOf (by omega)).symm

/-- Of the samples accepted, those not yet returned are in a call's buffer and in the ring. -/
structure Whole (state : RingState α) : Prop where
  samples : ∃ rest, state.accepted = state.returned ++ rest ∧
    state.inFlight ++ state.ring.queued = pcmOf rest
  even : ∀ drain, state.drain = some drain → drain.wantBytes % 2 = 0

theorem whole_created (capacity : Nat) : Whole (RingState.created capacity : RingState α) where
  samples := ⟨[], rfl, rfl⟩
  even := by
    intro drain busy
    contradiction

theorem Whole.send {state next : RingState α} (whole : Whole state) {samples : List (α × α)}
    {taken : Bool} (sent : state.send samples taken = some next) : Whole next := by
  rw [RingState.send] at sent
  split_ifs at sent with refused fits
  · cases sent
    exact whole
  · cases sent
    obtain ⟨rest, accepted, bytes⟩ := whole.samples
    refine ⟨⟨rest ++ samples, ?_, ?_⟩, whole.even⟩
    · dsimp only
      rw [accepted, List.append_assoc]
    · show state.inFlight ++ (state.ring.offer (pcmOf samples)).queued = _
      rw [BoundedFifo.offer_queued_of_fits fits, ← List.append_assoc, bytes, pcmOf_append]

/-- A call that has received an even number of bytes returns whole samples. -/
theorem finish_whole {state : RingState α} {drain : Drain α} {rest : List (α × α)}
    (accepted : state.accepted = state.returned ++ rest)
    (bytes : drain.dst ++ state.ring.queued = pcmOf rest) (even : drain.dst.length % 2 = 0) :
    Whole (state.finish drain) := by
  obtain ⟨samples, queued⟩ := pcmOf_split even bytes
  refine ⟨⟨wordsOf state.ring.queued, ?_, queued⟩, ?_⟩
  · show state.accepted = state.returned ++ wordsOf drain.dst ++ wordsOf state.ring.queued
    rw [accepted, samples, List.append_assoc]
  · intro busy same
    contradiction

/-- The loop's test: it goes on, or the call has the even number of bytes it wants. -/
theorem proceed_whole {state : RingState α} {drain : Drain α} {rest : List (α × α)}
    (accepted : state.accepted = state.returned ++ rest)
    (bytes : drain.dst ++ state.ring.queued = pcmOf rest) (even : drain.wantBytes % 2 = 0)
    (within : drain.dst.length ≤ drain.wantBytes) : Whole (state.proceed drain) := by
  rw [RingState.proceed]
  split_ifs with more
  · refine ⟨⟨rest, accepted, bytes⟩, ?_⟩
    intro busy same
    cases same
    exact even
  · have full : drain.dst.length = drain.wantBytes := by omega
    exact finish_whole accepted bytes (full ▸ even)

theorem Whole.call {state next : RingState α} (whole : Whole state) {given : Bool}
    {nSamples timeoutTicks : Nat} (called : state.call given nSamples timeoutTicks = some next) :
    Whole next := by
  obtain ⟨rest, accepted, bytes⟩ := whole.samples
  rw [RingState.call] at called
  cases drain : state.drain with
  | some busy => rw [drain] at called; contradiction
  | none =>
      rw [drain] at called
      rw [RingState.inFlight, drain] at bytes
      dsimp only at called
      split_ifs at called with refused
      · cases called
        exact whole
      · cases called
        apply proceed_whole accepted bytes
        · show nSamples * 2 % 4294967296 % 2 = 0
          omega
        · exact Nat.zero_le _

theorem Whole.receive {state next : RingState α} (whole : Whole state) {chunkBytes : Nat}
    (received : state.receive chunkBytes = some next) : Whole next := by
  obtain ⟨rest, accepted, bytes⟩ := whole.samples
  rw [RingState.receive] at received
  cases busy : state.drain with
  | none => rw [busy] at received; contradiction
  | some drain =>
      rw [busy] at received
      rw [RingState.inFlight, busy] at bytes
      dsimp only at received bytes
      split_ifs at received with null empty fits
      · -- the ring is empty, so what the call has is all that was outstanding
        cases received
        have all := congrArg List.length bytes
        rw [List.isEmpty_iff.mp empty, List.append_nil, length_pcmOf] at all
        exact finish_whole accepted bytes (by omega)
      · cases received
        have outstanding : drain.dst ++ state.ring.queued.take chunkBytes ++
            (state.ring.poll chunkBytes).queued = pcmOf rest := by
          rw [List.append_assoc, BoundedFifo.take_append_poll, bytes]
        have within : (drain.dst ++ state.ring.queued.take chunkBytes).length ≤
            drain.wantBytes := by
          rw [List.length_append, List.length_take]
          omega
        apply proceed_whole
        · exact accepted
        · exact outstanding
        · exact whole.even drain busy
        · exact within

theorem whole_step {state next : RingState α} {label : RingLabel α} (whole : Whole state)
    (stepped : state.step label = some next) : Whole next := by
  cases label with
  | send samples taken => exact whole.send stepped
  | call given nSamples timeoutTicks => exact whole.call stepped
  | receive chunkBytes => exact whole.receive stepped

/-- **No sample is split or lost.** For every capacity and every interleaving, the samples the
calls have returned are the first ones the ring accepted, and the bytes of the others are in
the buffer of the call in progress and behind it in the ring. -/
theorem ringDrain_keeps_samples (capacity : Nat) (labels : List (RingLabel α))
    (final : RingState α) (ran : (ringMachine α capacity).run labels = some final) :
    final.returned <+: final.accepted ∧
      final.inFlight ++ final.ring.queued =
        pcmOf (final.accepted.drop final.returned.length) := by
  have whole : Whole final := by
    apply Machine.invariant (whole_created capacity) _ ran
    intro state label next kept stepped
    exact whole_step kept stepped
  obtain ⟨rest, accepted, bytes⟩ := whole.samples
  constructor
  · exact ⟨rest, accepted.symm⟩
  · rw [accepted, List.drop_left, bytes]

/-- A receive stops in the middle of a sample, and the next one brings the other half. -/
def wrappingRun : List (RingLabel Nat) :=
  [.send [(1, 2), (3, 4)] true, .call true 2 100, .receive 3, .send [(5, 6)] false, .receive 1]

theorem ringDrain_keeps_samples_wrapping :
    ∃ final, (ringMachine Nat 5).run wrappingRun = some final ∧
      final.returned = [(1, 2), (3, 4)] ∧ final.returned <+: final.accepted ∧
      final.inFlight ++ final.ring.queued =
        pcmOf (final.accepted.drop final.returned.length) :=
  ⟨_, rfl, rfl, ringDrain_keeps_samples 5 wrappingRun _ rfl⟩

end WallUnit.Firmware.AudioIn
