import Mathlib
import WallUnit.Foundations.BoundedFifo
import WallUnit.Foundations.Machine

/-!
Owns the life of the capture ring of `audio_in.c`: the reader task's look at `capture_armed` and
`capture_ring` and its send, and the main task's arm, reads and disarm, each cut where another
task can run. The reader uses a deleted ring exactly if a delete falls into its send or its look
at the ring between the delete and the `NULL`; while deletes keep clear of a block in hand, what
a capture returns is one stretch of the recording, less the sends that timed out:
`capture_gapless`.

Does not own how a receive is served, which `AudioIn` does, nor the wake ring, which is never
deleted: nothing calls `audio_in_deinit`.
-/

namespace WallUnit.Firmware.CaptureRing

open WallUnit.Foundations

structure Ring where
  id : Nat
  fifo : BoundedFifo Int

/-- Where the reader task is with a block it has read from I2S. -/
inductive Reader where
  | reading
  | filled (block : List Int)
  /-- It has seen `capture_armed`. -/
  | seen (block : List Int)
  /-- It is inside `xRingbufferSend`. -/
  | sending (block : List Int) (ring : Nat)
deriving DecidableEq, Repr

/-- The reader has seen `capture_armed` for its block. -/
def Reader.inHand : Reader → Bool
  | .reading | .filled _ => false
  | .seen _ | .sending _ _ => true

/-- Where the main task is. -/
inductive Main where
  | idle
  /-- The ring is stored and `capture_armed` is not set yet. -/
  | created
  /-- `capture_armed` is cleared. -/
  | disarming
  /-- The ring is deleted and `capture_ring` is not `NULL` yet. -/
  | deleted
deriving DecidableEq, Repr

/-- `alive` are the rings that exist. `passed` are the blocks the reader is done with, `sent`
those of this capture whose send has ended, with whether the ring took them, and `returned` the
samples `audio_in_capture_read` has returned in this capture. -/
structure CaptureState where
  captureRing : Option Nat
  captureArmed : Bool
  alive : List Ring
  created : Nat
  reader : Reader
  main : Main
  passed : List (List Int)
  sent : List (List Int × Bool)
  returned : List Int

def CaptureState.init : CaptureState := ⟨none, false, [], 0, .reading, .idle, [], [], []⟩

/-- The bytes `audio_in_capture_arm` asks for, in 32 bits, as samples. -/
def ringSamples (expectedSamples : Nat) : Nat :=
  let bytes := expectedSamples * 2 % 2 ^ 32
  (bytes + bytes / 4) % 2 ^ 32 / 2

inductive Label where
  /-- `i2s_channel_read` brings a block. -/
  | record (block : List Int)
  /-- The reader tests `capture_armed`. -/
  | test
  /-- The reader tests `capture_ring` and calls `xRingbufferSend` with it. -/
  | load
  /-- `xRingbufferSend` returns, having sent or not. -/
  | finish (taken : Bool)
  /-- `audio_in_capture_arm` up to the store of the ring. -/
  | arm (expectedSamples : Nat) (allocated : Bool)
  | setArmed
  /-- `audio_in_capture_read` returns `count` samples. -/
  | read (count : Nat)
  /-- `audio_in_capture_disarm` clears `capture_armed`. -/
  | disarm
  /-- It deletes the ring, if there is one. -/
  | remove
  /-- It clears `capture_ring`. -/
  | clear
deriving DecidableEq, Repr

def CaptureState.lookup (state : CaptureState) (id : Nat) : Option Ring :=
  state.alive.find? fun ring => decide (ring.id = id)

def CaptureState.update (state : CaptureState) (id : Nat)
    (change : BoundedFifo Int → BoundedFifo Int) : CaptureState :=
  { state with
    alive := state.alive.map fun ring =>
      if ring.id = id then { ring with fifo := change ring.fifo } else ring }

/-- The reader is done with its block. -/
def CaptureState.pass (state : CaptureState) (block : List Int) : CaptureState :=
  { state with reader := .reading, passed := state.passed ++ [block] }

/-- A send times out only for want of room. -/
def CaptureState.finish (state : CaptureState) (block : List Int) (id : Nat) (taken : Bool) :
    Option CaptureState :=
  let fits := ((state.lookup id).map fun ring => decide (block.length ≤ ring.fifo.free)).getD taken
  if taken = fits then
    some { (if taken then state.update id (·.offer block) else state).pass block with
      sent := state.sent ++ [(block, taken)] }
  else none

def CaptureState.step (state : CaptureState) : Label → Option CaptureState
  | .record block =>
      match state.reader with
      | .reading => some { state with reader := .filled block }
      | _ => none
  | .test =>
      match state.reader with
      | .filled block =>
          some (if state.captureArmed then { state with reader := .seen block }
            else state.pass block)
      | _ => none
  | .load =>
      match state.reader with
      | .seen block =>
          match state.captureRing with
          | none => some (state.pass block)
          | some id => some { state with reader := .sending block id }
      | _ => none
  | .finish taken =>
      match state.reader with
      | .sending block id => state.finish block id taken
      | _ => none
  | .arm expectedSamples allocated =>
      match state.main, state.captureRing with
      | .idle, none =>
          if allocated then
            some { state with
              captureRing := some state.created
              alive := ⟨state.created, .empty (ringSamples expectedSamples)⟩ :: state.alive
              created := state.created + 1
              main := .created
              sent := []
              returned := [] }
          else some state
      | .idle, some _ => some state
      | _, _ => none
  | .setArmed =>
      match state.main with
      | .created => some { state with captureArmed := true, main := .idle }
      | _ => none
  | .read count =>
      match state.main, state.captureRing with
      | .idle, some id =>
          match state.lookup id with
          | some ring =>
              if count ≤ ring.fifo.queued.length then
                some { state.update id (·.poll count) with
                  returned := state.returned ++ ring.fifo.queued.take count }
              else none
          | none => none
      | .idle, none => if count = 0 then some state else none
      | _, _ => none
  | .disarm =>
      match state.main with
      | .idle => some { state with captureArmed := false, main := .disarming }
      | _ => none
  | .remove =>
      match state.main, state.captureRing with
      | .disarming, some id =>
          some { state with alive := state.alive.filter fun ring => ring.id ≠ id, main := .deleted }
      | .disarming, none => some { state with main := .idle }
      | _, _ => none
  | .clear =>
      match state.main with
      | .deleted => some { state with captureRing := none, main := .idle }
      | _ => none

def captureMachine : Machine CaptureState Label where
  init := .init
  step := CaptureState.step

/-! ### Whose ring is alive -/

/-- The reader uses no ring that has been deleted. -/
def Safe (state : CaptureState) : Prop :=
  ∀ block id, state.reader = .sending block id → (state.lookup id).isSome = true

/-- The delete does not fall into the reader's send, nor its look at the ring between the
delete and the `NULL`. -/
def Orderly (state : CaptureState) (label : Label) : Prop :=
  match label with
  | .remove => ∀ block id, state.reader = .sending block id → state.captureRing ≠ some id
  | .load => state.main ≠ .deleted
  | _ => True

/-- The delete keeps clear of every block that the reader has in hand for the capture. -/
def Settled (state : CaptureState) (label : Label) : Prop :=
  label = .remove → state.reader.inHand = false

instance (state : CaptureState) (label : Label) : Decidable (Settled state label) :=
  inferInstanceAs (Decidable (_ → _))

/-- What the main task alone keeps: at most one ring, `capture_ring` names it, and it is armed
only while it is there. -/
inductive Holds : Main → Option Nat → Bool → List Ring → Prop
  | empty : Holds .idle none false []
  | armed (ring : Ring) : Holds .idle (some ring.id) true [ring]
  | created (ring : Ring) : Holds .created (some ring.id) false [ring]
  | disarming (ring : Ring) : Holds .disarming (some ring.id) false [ring]
  | disarmingNothing : Holds .disarming none false []
  | deleted (id : Nat) : Holds .deleted (some id) false []

def CaptureState.Holds (state : CaptureState) : Prop :=
  CaptureRing.Holds state.main state.captureRing state.captureArmed state.alive

section

variable {state next : CaptureState}

theorem Holds.update {main : Main} {captureRing : Option Nat} {armed : Bool} {alive : List Ring}
    (holds : Holds main captureRing armed alive) (id : Nat)
    (change : BoundedFifo Int → BoundedFifo Int) :
    Holds main captureRing armed
      (alive.map fun ring => if ring.id = id then { ring with fifo := change ring.fifo } else ring)
      := by
  have same (ring : Ring) :
      (if ring.id = id then { ring with fifo := change ring.fifo } else ring).id = ring.id := by
    split_ifs <;> rfl
  cases holds with
  | empty => exact .empty
  | armed ring =>
      rw [← same ring]
      exact .armed _
  | created ring =>
      rw [← same ring]
      exact .created _
  | disarming ring =>
      rw [← same ring]
      exact .disarming _
  | disarmingNothing => exact .disarmingNothing
  | deleted id => exact .deleted id

/-- A ring that is there is the only one, and `capture_ring` is set. -/
theorem Holds.one {main : Main} {captureRing : Option Nat} {armed : Bool} {alive : List Ring}
    (holds : Holds main captureRing armed alive) :
    alive.length ≤ 1 ∧ ∀ ring ∈ alive, captureRing ≠ none := by
  cases holds <;> simp

theorem lookup_update (state : CaptureState) (id key : Nat)
    (change : BoundedFifo Int → BoundedFifo Int) :
    ((state.update id change).lookup key).isSome = (state.lookup key).isSome := by
  rw [CaptureState.lookup, CaptureState.update, List.find?_map, Option.isSome_map,
    CaptureState.lookup]
  congr 2
  funext ring
  simp only [Function.comp]
  split_ifs <;> rfl

theorem finish_cases {block : List Int} {id : Nat} {taken : Bool}
    (finished : state.finish block id taken = some next) :
    taken = ((state.lookup id).map fun ring => decide (block.length ≤ ring.fifo.free)).getD taken ∧
      next = { (if taken then state.update id (·.offer block) else state).pass block with
        sent := state.sent ++ [(block, taken)] } := by
  rw [CaptureState.finish] at finished
  by_cases fits : taken =
      ((state.lookup id).map fun ring => decide (block.length ≤ ring.fifo.free)).getD taken
  · rw [if_pos fits] at finished
    exact ⟨fits, (Option.some.inj finished).symm⟩
  · rw [if_neg fits] at finished
    cases finished

/-- A read takes from the one ring there is. -/
theorem read_cases (holds : state.Holds) {count : Nat}
    (stepped : state.step (.read count) = some next) :
    next = state ∨ ∃ ring, state.alive = [ring] ∧
      next = { state.update ring.id (·.poll count) with
        returned := state.returned ++ ring.fifo.queued.take count } := by
  rw [CaptureState.Holds] at holds
  obtain ⟨captureRing, armed, alive, created, reader, main, passed, sent, returned⟩ := state
  cases holds <;> simp only [CaptureState.step, reduceCtorEq] at stepped
  · split_ifs at stepped
    exact .inl (Option.some.inj stepped).symm
  · rename_i ring
    have found : CaptureState.lookup ⟨some ring.id, true, [ring], created, reader, .idle, passed,
        sent, returned⟩ ring.id = some ring := by simp [CaptureState.lookup]
    rw [found] at stepped
    dsimp only at stepped
    split_ifs at stepped
    exact .inr ⟨ring, rfl, (Option.some.inj stepped).symm⟩

theorem holds_step (state : CaptureState) (label : Label) (next : CaptureState)
    (holds : state.Holds) (stepped : state.step label = some next) : next.Holds := by
  rw [CaptureState.Holds] at holds ⊢
  obtain ⟨captureRing, armed, alive, created, reader, main, passed, sent, returned⟩ := state
  cases label with
  | record block =>
      cases reader <;> simp only [CaptureState.step, reduceCtorEq, Option.some.injEq] at stepped
      subst stepped
      exact holds
  | test =>
      cases reader <;> simp only [CaptureState.step, reduceCtorEq, Option.some.injEq] at stepped
      subst stepped
      cases armed <;> exact holds
  | load =>
      cases reader <;> simp only [CaptureState.step, reduceCtorEq] at stepped
      cases captureRing with
      | none =>
          cases stepped
          exact holds
      | some id =>
          cases stepped
          exact holds
  | finish taken =>
      cases reader <;> simp only [CaptureState.step, reduceCtorEq] at stepped
      rename_i block id
      obtain ⟨-, rfl⟩ := finish_cases stepped
      cases taken with
      | false => exact holds
      | true => exact holds.update id (·.offer block)
  | arm expectedSamples allocated =>
      cases holds <;> simp only [CaptureState.step, reduceCtorEq] at stepped
      · cases allocated with
        | false =>
            cases stepped
            exact .empty
        | true =>
            cases stepped
            exact .created ⟨created, .empty (ringSamples expectedSamples)⟩
      · cases stepped
        exact .armed _
  | setArmed =>
      cases holds <;> simp only [CaptureState.step, reduceCtorEq, Option.some.injEq] at stepped
      subst stepped
      exact .armed _
  | read count =>
      obtain rfl | ⟨ring, -, rfl⟩ := read_cases holds stepped
      · exact holds
      · exact holds.update ring.id (·.poll count)
  | disarm =>
      cases holds <;> simp only [CaptureState.step, reduceCtorEq, Option.some.injEq] at stepped
      · subst stepped
        exact .disarmingNothing
      · subst stepped
        exact .disarming _
  | remove =>
      cases holds <;> simp only [CaptureState.step, reduceCtorEq, Option.some.injEq] at stepped
      · subst stepped
        rename_i ring
        have gone : [ring].filter (fun other => other.id ≠ ring.id) = [] := by simp
        dsimp only
        rw [gone]
        exact .deleted _
      · subst stepped
        exact .empty
  | clear =>
      cases holds <;> simp only [CaptureState.step, reduceCtorEq, Option.some.injEq] at stepped
      subst stepped
      exact .empty

/-! ### No ring is used after its delete -/

/-- `Safe` looks at the reader and the rings only. -/
theorem Safe.congr (safe : Safe state) (reader : next.reader = state.reader)
    (alive : ∀ id, (next.lookup id).isSome = (state.lookup id).isSome) : Safe next := by
  intro block id sending
  rw [alive]
  exact safe block id (reader ▸ sending)

/-- The reader is not sending. -/
theorem safe_of_not_sending (idle : ∀ block id, next.reader ≠ .sending block id) : Safe next :=
  fun block id sending => absurd sending (idle block id)

theorem safe_step (holds : state.Holds) (safe : Safe state) {label : Label}
    (orderly : Orderly state label) (stepped : state.step label = some next) : Safe next := by
  rw [CaptureState.Holds] at holds
  obtain ⟨captureRing, armed, alive, created, reader, main, passed, sent, returned⟩ := state
  cases label with
  | record block =>
      cases reader <;> simp only [CaptureState.step, reduceCtorEq, Option.some.injEq] at stepped
      subst stepped
      exact safe_of_not_sending nofun
  | test =>
      cases reader <;> simp only [CaptureState.step, reduceCtorEq, Option.some.injEq] at stepped
      subst stepped
      cases armed <;> exact safe_of_not_sending nofun
  | load =>
      cases reader <;> simp only [CaptureState.step, reduceCtorEq] at stepped
      cases captureRing with
      | none =>
          cases stepped
          exact safe_of_not_sending nofun
      | some named =>
          cases stepped
          intro block id sending
          obtain ⟨rfl, rfl⟩ := Reader.sending.inj sending
          cases holds with
          | armed ring => simp [CaptureState.lookup]
          | created ring => simp [CaptureState.lookup]
          | disarming ring => simp [CaptureState.lookup]
          | deleted id => exact absurd rfl orderly
  | finish taken =>
      cases reader <;> simp only [CaptureState.step, reduceCtorEq] at stepped
      obtain ⟨-, rfl⟩ := finish_cases stepped
      exact safe_of_not_sending nofun
  | arm expectedSamples allocated =>
      cases holds <;> simp only [CaptureState.step, reduceCtorEq] at stepped
      · cases allocated with
        | false =>
            cases stepped
            exact safe
        | true =>
            cases stepped
            intro block id sending
            exact absurd (safe block id sending) Bool.false_ne_true
      · cases stepped
        exact safe
  | setArmed =>
      cases holds <;> simp only [CaptureState.step, reduceCtorEq, Option.some.injEq] at stepped
      subst stepped
      exact safe
  | read count =>
      obtain rfl | ⟨ring, -, rfl⟩ := read_cases holds stepped
      · exact safe
      · exact safe.congr rfl fun id => lookup_update _ ring.id id (·.poll count)
  | disarm =>
      cases holds <;> simp only [CaptureState.step, reduceCtorEq, Option.some.injEq] at stepped
      all_goals
        subst stepped
        exact safe
  | remove =>
      cases holds <;> simp only [CaptureState.step, reduceCtorEq, Option.some.injEq] at stepped
      · subst stepped
        rename_i ring
        refine safe_of_not_sending fun block id sending => ?_
        -- the reader can only be sending to the ring there is
        have used := safe block id sending
        simp only [CaptureState.lookup, List.find?_singleton, Option.isSome_ite, decide_eq_true_eq]
          at used
        exact orderly block id sending (congrArg some used)
      · subst stepped
        exact safe
  | clear =>
      cases holds <;> simp only [CaptureState.step, reduceCtorEq, Option.some.injEq] at stepped
      subst stepped
      exact safe

theorem not_safe_step (holds : state.Holds) {label : Label} (disorderly : ¬ Orderly state label)
    (stepped : state.step label = some next) : ¬ Safe next := by
  rw [CaptureState.Holds] at holds
  obtain ⟨captureRing, armed, alive, created, reader, main, passed, sent, returned⟩ := state
  intro safe
  cases label with
  | remove =>
      simp only [Orderly, not_forall, not_not] at disorderly
      obtain ⟨block, id, sending, named⟩ := disorderly
      cases holds <;> simp only [CaptureState.step, reduceCtorEq, Option.some.injEq] at stepped
      · subst stepped
        have used := safe block id sending
        simp [CaptureState.lookup] at used
      · cases named
  | load =>
      simp only [Orderly, not_not] at disorderly
      cases reader <;> simp only [CaptureState.step, reduceCtorEq] at stepped
      rename_i block
      subst disorderly
      cases holds with
      | deleted id =>
          cases stepped
          exact absurd (safe block id rfl) Bool.false_ne_true
  | record | test | finish | arm | setArmed | read | disarm | clear => exact disorderly trivial

/-! ### What a capture returns -/

/-- The samples of the blocks a ring took. -/
def takenSamples (sent : List (List Int × Bool)) : List Int :=
  ((sent.filter Prod.snd).map Prod.fst).flatten

structure Gapless (state : CaptureState) : Prop where
  holds : state.Holds
  safe : Safe state
  /-- Between two captures the reader has no block in hand. -/
  quiet : state.captureRing = none ∨ state.main = .created ∨ state.main = .deleted →
    state.reader.inHand = false
  fresh : state.main = .created → state.sent = []
  stretch : state.captureRing ≠ none → state.sent.map Prod.fst <:+: state.passed
  latest : state.captureRing ≠ none → (state.captureArmed || state.reader.inHand) = true →
    state.sent.map Prod.fst <:+ state.passed
  content : ∀ ring ∈ state.alive,
    state.returned ++ ring.fifo.queued = takenSamples state.sent

theorem gapless_init : Gapless .init where
  holds := .empty
  safe := safe_of_not_sending nofun
  quiet := fun _ => rfl
  fresh := nofun
  stretch := fun none_ => absurd rfl none_
  latest := fun none_ => absurd rfl none_
  content := fun _ member => absurd member List.not_mem_nil

/-- A delete that keeps clear of the blocks in hand keeps clear of the sends. -/
theorem Gapless.orderly (gapless : Gapless state) {label : Label} (settled : Settled state label)
    (stepped : state.step label = some next) : Orderly state label := by
  cases label with
  | remove =>
      intro block id sending
      have idle := settled rfl
      rw [sending] at idle
      cases idle
  | load =>
      intro deleted
      have idle := gapless.quiet (.inr (.inr deleted))
      cases reader : state.reader <;> rw [reader] at idle <;>
        simp [CaptureState.step, reader, Reader.inHand] at stepped idle
  | record => trivial
  | test => trivial
  | finish => trivial
  | arm => trivial
  | setArmed => trivial
  | read => trivial
  | disarm => trivial
  | clear => trivial

theorem Gapless.test (gapless : Gapless state) (holds : next.Holds) (safe : Safe next)
    (stepped : state.step .test = some next) : Gapless next := by
  obtain ⟨captureRing, armed, alive, created, reader, main, passed, sent, returned⟩ := state
  cases reader <;> simp only [CaptureState.step, reduceCtorEq, Option.some.injEq] at stepped
  rename_i block
  cases armed with
  | true =>
      subst stepped
      refine { gapless with holds := holds, safe := safe, quiet := fun between => ?_, latest := ?_ }
      · rw [CaptureState.Holds] at holds
        cases holds
        simp at between
      · exact fun there _ => gapless.latest there rfl
  | false =>
      subst stepped
      refine { gapless with
        holds := holds
        safe := safe
        quiet := fun _ => rfl
        stretch := fun there => ?_
        latest := fun _ armed => by cases armed }
      exact (gapless.stretch there).trans (List.prefix_append passed [block]).isInfix

theorem Gapless.load (gapless : Gapless state) (holds : next.Holds) (safe : Safe next)
    (stepped : state.step .load = some next) : Gapless next := by
  obtain ⟨captureRing, armed, alive, created, reader, main, passed, sent, returned⟩ := state
  cases reader <;> simp only [CaptureState.step, reduceCtorEq] at stepped
  cases captureRing with
  | none => exact Bool.noConfusion (gapless.quiet (.inl rfl))
  | some id =>
      cases stepped
      exact { gapless with
        holds := holds
        safe := safe
        latest := fun there _ => gapless.latest there (Bool.or_true _) }

theorem takenSamples_append (sent : List (List Int × Bool)) (block : List Int) (taken : Bool) :
    takenSamples (sent ++ [(block, taken)]) =
      takenSamples sent ++ if taken then block else [] := by
  cases taken <;> simp [takenSamples]

/-- The ring the reader is sending to is the one of the capture. -/
theorem Gapless.ring (gapless : Gapless state) {block : List Int} {id : Nat}
    (sending : state.reader = .sending block id) :
    ∃ ring, state.alive = [ring] ∧ ring.id = id ∧ state.captureRing ≠ none := by
  have used := gapless.safe block id sending
  have holds := gapless.holds
  obtain ⟨captureRing, armed, alive, created, reader, main, passed, sent, returned⟩ := state
  rw [CaptureState.Holds] at holds
  cases holds with
  | empty => cases used
  | disarmingNothing => cases used
  | deleted other => cases used
  | armed ring | created ring | disarming ring =>
      simp only [CaptureState.lookup, List.find?_singleton, Option.isSome_ite, decide_eq_true_eq]
        at used
      exact ⟨ring, rfl, used, nofun⟩

/-- The send of a block ends: the capture goes on with the next one. -/
theorem Gapless.finish (gapless : Gapless state) (holds : next.Holds) (safe : Safe next)
    {taken : Bool} (stepped : state.step (.finish taken) = some next) : Gapless next := by
  rw [CaptureState.step] at stepped
  cases reader : state.reader <;> simp only [reader, reduceCtorEq] at stepped
  rename_i block id
  obtain ⟨ring, alive, rfl, there⟩ := gapless.ring reader
  obtain ⟨room, rfl⟩ := finish_cases stepped
  have inHand : state.reader.inHand = true := by rw [reader]; rfl
  have between : ¬ (state.main = .created) := by
    intro created
    have idle := gapless.quiet (.inr (.inl created))
    rw [inHand] at idle
    cases idle
  have run : (state.sent ++ [(block, taken)]).map Prod.fst <:+ state.passed ++ [block] := by
    obtain ⟨before, passed⟩ := gapless.latest there (by rw [inHand, Bool.or_true])
    rw [List.map_append, ← passed, List.append_assoc]
    exact List.suffix_append _ _
  have content := gapless.content ring (by rw [alive]; exact List.mem_singleton_self ring)
  have found : state.lookup ring.id = some ring := by simp [CaptureState.lookup, alive]
  cases taken with
  | false =>
      refine ⟨holds, safe, fun _ => rfl, fun created => absurd created between,
        fun _ => run.isInfix, fun _ _ => run, ?_⟩
      intro other member
      have same : other ∈ state.alive := member
      rw [alive, List.mem_singleton] at same
      subst same
      show state.returned ++ other.fifo.queued = takenSamples (state.sent ++ _)
      rw [takenSamples_append, content]
      exact (List.append_nil _).symm
  | true =>
      refine ⟨holds, safe, fun _ => rfl, fun created => absurd created between,
        fun _ => run.isInfix, fun _ _ => run, ?_⟩
      intro other member
      rw [found] at room
      have fits : block.length ≤ ring.fifo.free := of_decide_eq_true room.symm
      have same : other ∈ state.alive.map fun held =>
          if held.id = ring.id then { held with fifo := held.fifo.offer block } else held := member
      rw [alive, List.map_singleton, if_pos rfl, List.mem_singleton] at same
      subst same
      show state.returned ++ (ring.fifo.offer block).queued = takenSamples (state.sent ++ _)
      rw [takenSamples_append, if_pos rfl, BoundedFifo.offer_queued_of_fits fits,
        ← List.append_assoc, content]

/-- A new capture starts with nothing sent and nothing returned. -/
theorem Gapless.arm (gapless : Gapless state) (holds : next.Holds) (safe : Safe next)
    {expectedSamples : Nat} {allocated : Bool}
    (stepped : state.step (.arm expectedSamples allocated) = some next) : Gapless next := by
  have before := gapless.holds
  obtain ⟨captureRing, armed, alive, created, reader, main, passed, sent, returned⟩ := state
  rw [CaptureState.Holds] at before
  cases before <;> simp only [CaptureState.step, reduceCtorEq] at stepped
  · cases allocated with
    | false =>
        cases stepped
        exact gapless
    | true =>
        cases stepped
        refine ⟨holds, safe, fun _ => gapless.quiet (.inl rfl), fun _ => rfl, fun _ => ?_,
          fun _ _ => List.nil_suffix, ?_⟩
        · exact List.nil_infix
        · intro ring member
          rw [List.mem_singleton.mp member]
          rfl
  · cases stepped
    exact gapless

theorem Gapless.read (gapless : Gapless state) (holds : next.Holds) (safe : Safe next)
    {count : Nat} (stepped : state.step (.read count) = some next) : Gapless next := by
  obtain rfl | ⟨ring, alive, rfl⟩ := read_cases gapless.holds stepped
  · exact gapless
  · have content := gapless.content ring (by rw [alive]; exact List.mem_singleton_self ring)
    refine { gapless with holds := holds, safe := safe, content := ?_ }
    intro other member
    have same : other ∈ state.alive.map fun held =>
        if held.id = ring.id then { held with fifo := held.fifo.poll count } else held := member
    rw [alive, List.map_singleton, if_pos rfl, List.mem_singleton] at same
    subst same
    show state.returned ++ ring.fifo.queued.take count ++ (ring.fifo.poll count).queued = _
    rw [List.append_assoc, BoundedFifo.take_append_poll]
    exact content

/-- After the delete nothing of the capture is left to send. -/
theorem Gapless.remove (gapless : Gapless state)
    (idle : state.reader.inHand = false) (holds : next.Holds) (safe : Safe next)
    (stepped : state.step .remove = some next) : Gapless next := by
  have before := gapless.holds
  obtain ⟨captureRing, armed, alive, created, reader, main, passed, sent, returned⟩ := state
  rw [CaptureState.Holds] at before
  cases before <;> simp only [CaptureState.step, reduceCtorEq, Option.some.injEq] at stepped
  · subst stepped
    refine { gapless with
      holds := holds
      safe := safe
      quiet := fun _ => idle
      fresh := nofun
      content := fun ring member => ?_ }
    simp at member
  · subst stepped
    exact { gapless with
      holds := holds
      safe := safe
      quiet := fun _ => idle
      fresh := nofun }

theorem gapless_step (state : CaptureState) (label : Label) (next : CaptureState)
    (gapless : Gapless state) (settled : Settled state label)
    (stepped : state.step label = some next) : Gapless next := by
  have holds := holds_step state label next gapless.holds stepped
  have safe := safe_step gapless.holds gapless.safe (gapless.orderly settled stepped) stepped
  cases label with
  | test => exact gapless.test holds safe stepped
  | load => exact gapless.load holds safe stepped
  | finish taken => exact gapless.finish holds safe stepped
  | arm expectedSamples allocated => exact gapless.arm holds safe stepped
  | read count => exact gapless.read holds safe stepped
  | record block =>
      cases reader : state.reader <;>
        simp only [CaptureState.step, reader, reduceCtorEq, Option.some.injEq] at stepped
      subst stepped
      have idle : state.reader.inHand = false := by rw [reader]; rfl
      exact { gapless with
        holds := holds
        safe := safe
        quiet := fun _ => rfl
        latest := fun there armed => gapless.latest there (by rw [idle]; exact armed) }
  | setArmed =>
      cases main : state.main <;>
        simp only [CaptureState.step, main, reduceCtorEq, Option.some.injEq] at stepped
      subst stepped
      have none_ := gapless.fresh main
      refine { gapless with
        holds := holds
        safe := safe
        quiet := fun _ => gapless.quiet (.inr (.inl main))
        fresh := nofun
        latest := fun _ _ => ?_ }
      dsimp only
      rw [none_]
      exact List.nil_suffix
  | disarm =>
      cases main : state.main <;>
        simp only [CaptureState.step, main, reduceCtorEq, Option.some.injEq] at stepped
      subst stepped
      refine { gapless with
        holds := holds
        safe := safe
        quiet := fun between => gapless.quiet (between.imp_right nofun)
        fresh := nofun
        latest := fun there inHand => gapless.latest there ?_ }
      rw [Bool.false_or] at inHand
      rw [show state.reader.inHand = true from inHand, Bool.or_true]
  | remove => exact gapless.remove (settled rfl) holds safe stepped
  | clear =>
      cases main : state.main <;>
        simp only [CaptureState.step, main, reduceCtorEq, Option.some.injEq] at stepped
      subst stepped
      exact { gapless with
        holds := holds
        safe := safe
        quiet := fun _ => gapless.quiet (.inr (.inr main))
        fresh := nofun
        stretch := fun there => absurd rfl there
        latest := fun there => absurd rfl there }

end

/-- For every interleaving of the reader task with captures of any number and size: the reader
uses no deleted ring, in any state of the run, exactly if every delete and every look of the
reader at the ring is orderly. If moreover no delete falls on a block the reader has in hand,
the blocks offered to the capture's ring are one stretch of the recording, up to the newest
block while the capture is armed, and what has been returned and what is still in the ring are
the samples of those that the ring took, each once and in order. -/
theorem capture_gapless {labels : List Label} {final : CaptureState}
    (ran : captureMachine.run labels = some final) :
    (captureMachine.Always Safe .init labels ↔ captureMachine.Along Orderly .init labels) ∧
    (captureMachine.Along Settled .init labels →
      Safe final ∧ final.alive.length ≤ 1 ∧
      ∀ ring ∈ final.alive,
        final.sent.map Prod.fst <:+: final.passed ∧
        (final.captureArmed = true → final.sent.map Prod.fst <:+ final.passed) ∧
        final.returned ++ ring.fifo.queued = takenSamples final.sent) := by
  constructor
  · apply Machine.always_iff_along (fun state => state.Holds ∧ Safe state)
    · exact fun state kept => kept.2
    · intro state label next kept orderly stepped
      exact ⟨holds_step state label next kept.1 stepped,
        safe_step kept.1 kept.2 orderly stepped⟩
    · intro state label next kept disorderly stepped
      exact not_safe_step kept.1 disorderly stepped
    · exact ⟨.empty, safe_of_not_sending nofun⟩
    · exact ran
  · intro settled
    have gapless : Gapless final :=
      Machine.invariant_along gapless_init gapless_step settled ran
    obtain ⟨length, named⟩ := gapless.holds.one
    refine ⟨gapless.safe, length, fun ring member => ?_⟩
    have there := named ring member
    exact ⟨gapless.stretch there,
      fun armed => gapless.latest there (by rw [armed, Bool.true_or]), gapless.content ring member⟩

/-- A block from before the capture, one whose send times out, and one that is read. -/
def shortCapture : List Label :=
  [.record [1, 2], .test, .arm 2 true, .setArmed, .record [3, 4, 5], .test, .load, .finish false,
    .record [6, 7], .test, .load, .finish true, .read 1]

theorem capture_gapless_short :
    ∃ final, captureMachine.run shortCapture = some final ∧ final.returned = [6] ∧
      ∀ ring ∈ final.alive, final.returned ++ ring.fifo.queued = takenSamples final.sent := by
  refine ⟨_, rfl, rfl, ?_⟩
  have settled : captureMachine.Along Settled .init shortCapture := by decide +kernel
  exact fun ring member => (((capture_gapless rfl).2 settled).2.2 ring member).2.2

end WallUnit.Firmware.CaptureRing
