import Mathlib.Logic.Function.Basic
import Mathlib.Tactic.SplitIfs
import WallUnit.Foundations.Machine

/-!
Owns `_ha_get_states` of `tools.py` and the cache it shares between the event loop's thread and
the executor's, each call cut where another thread can run. The two fields of the cache are
written one after the other, so they can come from different calls; an answer is still never
older than the TTL plus the longest time a call takes to store what it fetched:
`haGetStates_fresh`.

Does not own the request, which brings a list of states or raises, nor what the states are.
-/

namespace WallUnit.Server.StatesCache

open WallUnit.Foundations

/-- `HA_STATES_TTL`, in milliseconds. -/
def haStatesTtl : Nat := 60000

/-- The states of all entities as Home Assistant had them at a time. -/
structure Snapshot (States : Type) where
  states : States
  taken : Nat
deriving DecidableEq, Repr

/-- Where a call is; `now` is what it has read of the clock. -/
inductive Call (States : Type) where
  | idle
  /-- It has read the clock. -/
  | entering (now : Nat) (force : Bool)
  /-- It has found the cache filled and is about to test its age. -/
  | testing (now : Nat)
  /-- The cache is young enough. -/
  | serving (now : Nat)
  | requesting (now : Nat)
  | storingData (now : Nat) (fetched : Snapshot States)
  | storingTs (now : Nat) (fetched : Snapshot States)
  /-- The request has raised. -/
  | excusing (now : Nat)
deriving DecidableEq, Repr

/-- What a call returns, with its `now`. -/
inductive Answer (States : Type) where
  | cached (now : Nat) (snapshot : Snapshot States)
  | fetched (now : Nat) (snapshot : Snapshot States)
  /-- `_HA_STATES_CACHE["data"] or []` after a failure. -/
  | excuse (now : Nat) (snapshot : Option (Snapshot States))
deriving DecidableEq, Repr

/-- `_HA_STATES_CACHE`, the clock, the calls of all threads and what they have returned. -/
structure CacheState (States : Type) where
  clock : Nat
  ts : Nat
  data : Option (Snapshot States)
  calls : Nat → Call States
  answers : List (Answer States)

inductive Label (States : Type) where
  | elapse (millis : Nat)
  | call (thread : Nat) (force : Bool)
  | filled (thread : Nat)
  | age (thread : Nat)
  | serve (thread : Nat)
  /-- The request returns states as they are now, at the latest. -/
  | fetch (thread : Nat) (states : States) (taken : Nat)
  | fail (thread : Nat)
  | storeData (thread : Nat)
  | storeTs (thread : Nat)
  | excuse (thread : Nat)

variable {States : Type}

def CacheState.init (clock : Nat) : CacheState States := ⟨clock, 0, none, fun _ => .idle, []⟩

def CacheState.goto (state : CacheState States) (thread : Nat) (call : Call States) :
    CacheState States :=
  { state with calls := Function.update state.calls thread call }

def CacheState.return (state : CacheState States) (thread : Nat) (answer : Answer States) :
    CacheState States :=
  { state.goto thread .idle with answers := state.answers ++ [answer] }

def CacheState.step (state : CacheState States) : Label States → Option (CacheState States)
  | .elapse millis => some { state with clock := state.clock + millis }
  | .call thread force =>
      match state.calls thread with
      | .idle => some (state.goto thread (.entering state.clock force))
      | _ => none
  | .filled thread =>
      match state.calls thread with
      | .entering now force =>
          some (state.goto thread
            (if !force && state.data.isSome then .testing now else .requesting now))
      | _ => none
  | .age thread =>
      match state.calls thread with
      | .testing now =>
          some (state.goto thread
            (if now - state.ts < haStatesTtl then .serving now else .requesting now))
      | _ => none
  | .serve thread =>
      match state.calls thread, state.data with
      | .serving now, some snapshot => some (state.return thread (.cached now snapshot))
      | _, _ => none
  | .fetch thread states taken =>
      match state.calls thread with
      | .requesting now =>
          if now ≤ taken ∧ taken ≤ state.clock then
            some (state.goto thread (.storingData now ⟨states, taken⟩))
          else none
      | _ => none
  | .fail thread =>
      match state.calls thread with
      | .requesting now => some (state.goto thread (.excusing now))
      | _ => none
  | .storeData thread =>
      match state.calls thread with
      | .storingData now fetched =>
          some { state.goto thread (.storingTs now fetched) with data := some fetched }
      | _ => none
  | .storeTs thread =>
      match state.calls thread with
      | .storingTs now fetched =>
          some { state.return thread (.fetched now fetched) with ts := now }
      | _ => none
  | .excuse thread =>
      match state.calls thread with
      | .excusing now => some (state.return thread (.excuse now state.data))
      | _ => none

def cacheMachine (States : Type) (clock : Nat) : Machine (CacheState States) (Label States) where
  init := .init clock
  step := CacheState.step

/-! ### How old an answer is -/

/-- When the call that now stores what it fetched has begun. -/
def CacheState.storing? (state : CacheState States) : Label States → Option Nat
  | .storeData thread =>
      match state.calls thread with
      | .storingData now _ => some now
      | _ => none
  | _ => none

/-- Every call stores what it fetched within `delay` of its start. -/
def Prompt (delay : Nat) (state : CacheState States) (label : Label States) : Prop :=
  ∀ now ∈ state.storing? label, state.clock ≤ now + delay

instance (delay : Nat) (state : CacheState States) (label : Label States) :
    Decidable (Prompt delay state label) := inferInstanceAs (Decidable (∀ now ∈ _, _))

/-- What a call knows of the cache. `data` can be replaced behind its back. -/
def Call.Knows (delay clock : Nat) (data : Option (Snapshot States)) : Call States → Prop
  | .idle => True
  | .entering now _ => now ≤ clock
  | .testing now => now ≤ clock ∧ data.isSome = true
  | .serving now => now ≤ clock ∧
      ∃ snapshot, data = some snapshot ∧ now < snapshot.taken + delay + haStatesTtl
  | .requesting now => now ≤ clock
  | .storingData now fetched => now ≤ fetched.taken ∧ now ≤ clock
  | .storingTs now fetched => now ≤ fetched.taken ∧ now ≤ clock ∧
      ∃ snapshot, data = some snapshot ∧ now ≤ snapshot.taken + delay
  | .excusing _ => True

/-- An answer from the cache is young, and one from Home Assistant is new. -/
def Answer.Fresh (delay : Nat) : Answer States → Prop
  | .cached now snapshot => now < snapshot.taken + delay + haStatesTtl
  | .fetched now snapshot => now ≤ snapshot.taken
  | .excuse _ _ => True

structure Fresh (delay : Nat) (state : CacheState States) : Prop where
  stamp : state.ts ≤ state.clock
  young : ∀ snapshot, state.data = some snapshot → state.ts ≤ snapshot.taken + delay
  calls : ∀ thread, (state.calls thread).Knows delay state.clock state.data
  answers : ∀ answer ∈ state.answers, answer.Fresh delay

section

variable {delay clock later : Nat} {state next : CacheState States}

theorem fresh_init (delay clock : Nat) : Fresh delay (.init clock : CacheState States) where
  stamp := Nat.zero_le _
  young := nofun
  calls := fun _ => trivial
  answers := fun _ member => absurd member List.not_mem_nil

/-- Time passes. -/
theorem Call.Knows.elapse {call : Call States} {data : Option (Snapshot States)}
    (knows : call.Knows delay clock data) (order : clock ≤ later) :
    call.Knows delay later data := by
  cases call with
  | idle => trivial
  | entering now force => exact Nat.le_trans knows order
  | testing now => exact ⟨Nat.le_trans knows.1 order, knows.2⟩
  | serving now => exact ⟨Nat.le_trans knows.1 order, knows.2⟩
  | requesting now => exact Nat.le_trans knows order
  | storingData now fetched => exact ⟨knows.1, Nat.le_trans knows.2 order⟩
  | storingTs now fetched => exact ⟨knows.1, Nat.le_trans knows.2.1 order, knows.2.2⟩
  | excusing now => trivial

/-- Data that has just been stored in time is new enough for every call. -/
theorem Call.Knows.stored {call : Call States} {data : Option (Snapshot States)}
    {fetched : Snapshot States} (knows : call.Knows delay clock data)
    (prompt : clock ≤ fetched.taken + delay) : call.Knows delay clock (some fetched) := by
  have positive : 0 < haStatesTtl := by decide
  cases call with
  | idle => trivial
  | entering now force => exact knows
  | testing now => exact ⟨knows.1, rfl⟩
  | serving now => exact ⟨knows.1, fetched, rfl, by have := knows.1; omega⟩
  | requesting now => exact knows
  | storingData now other => exact knows
  | storingTs now other => exact ⟨knows.1, knows.2.1, fetched, rfl, Nat.le_trans knows.2.1 prompt⟩
  | excusing now => trivial

/-- One call moves on. -/
theorem Fresh.goto (fresh : Fresh delay state) {thread : Nat} {call : Call States}
    (knows : call.Knows delay state.clock state.data) : Fresh delay (state.goto thread call) := by
  refine { fresh with calls := fun other => ?_ }
  simp only [CacheState.goto]
  by_cases same : other = thread
  · subst same
    rw [Function.update_self]
    exact knows
  · rw [Function.update_of_ne same]
    exact fresh.calls other

theorem Fresh.return (fresh : Fresh delay state) {thread : Nat} {answer : Answer States}
    (young : answer.Fresh delay) : Fresh delay (state.return thread answer) := by
  refine { @Fresh.goto _ _ _ fresh thread .idle trivial with answers := ?_ }
  intro other member
  rcases List.mem_append.mp member with before | added
  · exact fresh.answers other before
  · rw [List.mem_singleton.mp added]
    exact young

theorem fresh_step (state : CacheState States) (label : Label States) (next : CacheState States)
    (fresh : Fresh delay state) (prompt : Prompt delay state label)
    (stepped : state.step label = some next) : Fresh delay next := by
  cases label with
  | elapse millis =>
      cases stepped
      exact { fresh with
        stamp := Nat.le_trans fresh.stamp (Nat.le_add_right _ _)
        calls := fun thread => (fresh.calls thread).elapse (Nat.le_add_right _ _) }
  | call thread force =>
      cases here : state.calls thread <;>
        simp only [CacheState.step, here, reduceCtorEq, Option.some.injEq] at stepped
      subst stepped
      exact fresh.goto (Nat.le_refl _)
  | filled thread =>
      cases here : state.calls thread <;>
        simp only [CacheState.step, here, reduceCtorEq, Option.some.injEq] at stepped
      have knows := fresh.calls thread
      rw [here] at knows
      subst stepped
      apply fresh.goto
      split_ifs with filled
      · rw [Bool.and_eq_true] at filled
        exact ⟨knows, filled.2⟩
      · exact knows
  | age thread =>
      cases here : state.calls thread <;>
        simp only [CacheState.step, here, reduceCtorEq, Option.some.injEq] at stepped
      rename_i now
      have knows := fresh.calls thread
      rw [here] at knows
      obtain ⟨past, filled⟩ := knows
      subst stepped
      apply fresh.goto
      split_ifs with young
      · obtain ⟨snapshot, held⟩ := Option.isSome_iff_exists.mp filled
        have stamped := fresh.young snapshot held
        exact ⟨past, snapshot, held, by omega⟩
      · exact past
  | serve thread =>
      cases here : state.calls thread <;>
        simp only [CacheState.step, here, reduceCtorEq] at stepped
      have knows := fresh.calls thread
      rw [here] at knows
      obtain ⟨-, snapshot, held, young⟩ := knows
      rw [held] at stepped
      cases stepped
      exact fresh.return young
  | fetch thread states taken =>
      cases here : state.calls thread <;>
        simp only [CacheState.step, here, reduceCtorEq] at stepped
      have knows := fresh.calls thread
      rw [here] at knows
      split_ifs at stepped with between
      cases stepped
      exact fresh.goto ⟨between.1, knows⟩
  | fail thread =>
      cases here : state.calls thread <;>
        simp only [CacheState.step, here, reduceCtorEq, Option.some.injEq] at stepped
      subst stepped
      exact fresh.goto trivial
  | storeData thread =>
      cases here : state.calls thread <;>
        simp only [CacheState.step, here, reduceCtorEq, Option.some.injEq] at stepped
      rename_i now fetched
      have knows := fresh.calls thread
      rw [here] at knows
      obtain ⟨order, past⟩ := knows
      -- what is stored now is newer than any clock reading so far, but for the delay
      have inTime : state.clock ≤ now + delay := by
        apply prompt
        rw [CacheState.storing?, here]
        rfl
      have recent : state.clock ≤ fetched.taken + delay := by omega
      subst stepped
      have moved : Fresh delay { state with data := some fetched } := {
        stamp := fresh.stamp
        young := by
          intro snapshot held
          cases held
          exact Nat.le_trans fresh.stamp recent
        calls := fun other => (fresh.calls other).stored recent
        answers := fresh.answers }
      exact moved.goto ⟨order, past, fetched, rfl, Nat.le_trans past recent⟩
  | storeTs thread =>
      cases here : state.calls thread <;>
        simp only [CacheState.step, here, reduceCtorEq, Option.some.injEq] at stepped
      have knows := fresh.calls thread
      rw [here] at knows
      obtain ⟨order, past, snapshot, held, recent⟩ := knows
      subst stepped
      have returned := @Fresh.return _ _ _ fresh thread (.fetched _ _) order
      exact { returned with
        stamp := past
        young := by
          intro other same
          have one : snapshot = other := Option.some.inj (held.symm.trans same)
          exact one ▸ recent }
  | excuse thread =>
      cases here : state.calls thread <;>
        simp only [CacheState.step, here, reduceCtorEq, Option.some.injEq] at stepped
      subst stepped
      exact fresh.return trivial

end

/-- Over any interleaving of calls, forced or not, and of requests that succeed or fail: if every
call stores what it fetched within `delay` of its start, no answer from the cache was older, when
its call began, than the TTL and `delay` together, and what a request brought is never older than
its call. -/
theorem haGetStates_fresh (clock delay : Nat) {labels : List (Label States)}
    {final : CacheState States} (ran : (cacheMachine States clock).run labels = some final)
    (prompt : (cacheMachine States clock).Along (Prompt delay) (.init clock) labels) :
    ∀ answer ∈ final.answers, answer.Fresh delay := by
  have fresh : Fresh delay final :=
    Machine.invariant_along (fresh_init delay clock) fresh_step prompt ran
  exact fresh.answers

/-- Two calls overlap: the older snapshot is stored last and gets the younger stamp. -/
def tornRun : List (Label Nat) :=
  [.call 0 false, .filled 0, .fetch 0 7 100, .elapse 4900, .call 1 false, .filled 1,
    .fetch 1 8 5000, .storeData 1, .storeData 0, .storeTs 0, .storeTs 1, .elapse 59999,
    .call 0 false, .filled 0, .age 0, .serve 0]

/-- The last answer is older than the TTL, by as much as `delay` allows. -/
theorem haGetStates_fresh_torn :
    ∃ final, (cacheMachine Nat 100).run tornRun = some final ∧
      final.answers = [.fetched 100 ⟨7, 100⟩, .fetched 5000 ⟨8, 5000⟩, .cached 64999 ⟨7, 100⟩] ∧
      100 + haStatesTtl ≤ 64999 ∧ ∀ answer ∈ final.answers, answer.Fresh 4900 := by
  have ends : ((cacheMachine Nat 100).run tornRun).map CacheState.answers =
      some [.fetched 100 ⟨7, 100⟩, .fetched 5000 ⟨8, 5000⟩, .cached 64999 ⟨7, 100⟩] := by decide
  obtain ⟨final, ran, answers⟩ := Option.map_eq_some_iff.mp ends
  exact ⟨final, ran, answers, by decide, haGetStates_fresh 100 4900 ran (by decide +kernel)⟩

end WallUnit.Server.StatesCache
