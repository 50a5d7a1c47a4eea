import WallUnit.Server.Registry.Accuracy

/-!
Owns what every run of the registry keeps, orderly or not: a connection that has a unit id
has written it into `_clients`, and the entry its last registrant wrote stands until the
handler of that connection is finished.

Does not own when the entry goes away with its connection, which takes an orderly run
(`Accuracy`).
-/

namespace WallUnit.Server.Registry

open WallUnit.Foundations

section

variable {UnitId : Type} [DecidableEq UnitId] {state : State UnitId} {conn : Nat}
  {newId unitId : UnitId}

/-- What a step does to the entries, whatever run it is part of. -/
inductive Effect (state : State UnitId) : State UnitId → Prop where
  | handler (conn : Nat) (handler : Handler UnitId) (lock : Option Nat)
      (unitId : handler.unitId = (state.handlers conn).unitId)
      (stays : (state.handlers conn).pc = .finished → handler.pc = .finished) :
      Effect state { state.setHandler conn handler with lock := lock }
  | register (conn : Nat) (newId : UnitId) (running : (state.handlers conn).pc ≠ .finished) :
      Effect state (state.register conn newId)
  | remove (conn : Nat) (unitId : UnitId) :
      Effect state { state.goto conn .finished with
        clients :=
          if state.clients unitId = some conn then Function.update state.clients unitId none
          else state.clients }

theorem effect_goto {pc : Pc UnitId} (running : (state.handlers conn).pc ≠ .finished) :
    Effect state (state.goto conn pc) :=
  .handler conn _ state.lock rfl fun finished => absurd finished running

theorem step_effect {next : State UnitId} {label : Label UnitId}
    (stepped : step state label = some next) : Effect state next := by
  cases label with
  | connect conn =>
      simp only [step] at stepped
      split_ifs at stepped with absent
      obtain rfl := Option.some.inj stepped
      exact effect_goto (by simp [absent])
  | closes conn =>
      obtain rfl := Option.some.inj stepped
      exact .handler conn _ state.lock rfl id
  | receive conn frame =>
      simp only [step] at stepped
      split_ifs at stepped with ready
      have running : (state.handlers conn).pc ≠ .finished := by simp [ready.1]
      cases frame with
      | hello newId =>
          cases newId with
          | none =>
              obtain rfl := Option.some.inj stepped
              exact effect_goto running
          | some newId =>
              obtain rfl := Option.some.inj stepped
              exact effect_goto running
      | other =>
          obtain rfl := Option.some.inj stepped
          have same : state.setHandler conn (state.handlers conn) = state := by
            rw [State.setHandler, Function.update_eq_self]
          have effect : Effect state (state.setHandler conn (state.handlers conn)) :=
            .handler conn _ state.lock rfl id
          rwa [same] at effect
  | leave conn =>
      simp only [step] at stepped
      split_ifs at stepped with receiving
      obtain rfl := Option.some.inj stepped
      exact effect_goto (by simp [receiving])
  | acquire conn =>
      simp only [step] at stepped
      split at stepped
      · next newId waiting free =>
          have running : (state.handlers conn).pc ≠ .finished := by simp [waiting]
          cases current : state.clients newId with
          | none =>
              simp only [current] at stepped
              obtain rfl := Option.some.inj stepped
              exact .register conn newId running
          | some prev =>
              simp only [current] at stepped
              split_ifs at stepped
              · obtain rfl := Option.some.inj stepped
                exact .register conn newId running
              · obtain rfl := Option.some.inj stepped
                exact .handler conn _ (some conn) rfl fun finished => absurd finished running
      · contradiction
  | prevClosed conn =>
      simp only [step] at stepped
      split at stepped
      · next newId prev closing =>
          split_ifs at stepped
          obtain rfl := Option.some.inj stepped
          exact .register conn newId (by simp [closing])
      · contradiction
  | acked conn sent =>
      simp only [step] at stepped
      split_ifs at stepped with acking
      · obtain rfl := Option.some.inj stepped
        exact effect_goto (by simp [acking])
      · obtain rfl := Option.some.inj stepped
        exact effect_goto (by simp [acking])
  | rejected conn =>
      simp only [step] at stepped
      split_ifs at stepped with rejecting
      obtain rfl := Option.some.inj stepped
      exact effect_goto (by simp [rejecting])
  | cleanUp conn =>
      simp only [step] at stepped
      split at stepped
      · obtain rfl := Option.some.inj stepped
        exact .remove conn _
      · contradiction
  | cancel conn =>
      simp only [step] at stepped
      split at stepped
      · contradiction
      · contradiction
      · next waiting =>
          obtain rfl := Option.some.inj stepped
          exact effect_goto (by simp [waiting])
      · next closing =>
          obtain rfl := Option.some.inj stepped
          exact .handler conn _ none rfl fun finished => by simp [closing] at finished
      · next absent finished _ _ =>
          obtain rfl := Option.some.inj stepped
          exact effect_goto finished

/-- Every registration is in the history, and the last one of a unit is in `_clients` until its
handler is finished. -/
structure Entered (state : State UnitId) : Prop where
  written : ∀ conn unitId, (state.handlers conn).unitId = some unitId →
    (unitId, conn) ∈ state.registered
  stands : ∀ unitId conn, lastRegistrant unitId state.registered = some conn →
    state.clients unitId = some conn ∨ (state.handlers conn).pc = .finished

theorem entered_start : Entered (State.start : State UnitId) where
  written := by simp [State.start]
  stands := by simp [State.start, lastRegistrant]

theorem Entered.handler (entered : Entered state) {handler : Handler UnitId} {lock : Option Nat}
    (same : handler.unitId = (state.handlers conn).unitId)
    (stays : (state.handlers conn).pc = .finished → handler.pc = .finished) :
    Entered { state.setHandler conn handler with lock := lock } := by
  constructor
  · intro other unitId named
    by_cases here : other = conn
    · subst here
      rw [moved_mover, same] at named
      exact entered.written other unitId named
    · rw [moved_other here] at named
      exact entered.written other unitId named
  · intro unitId other last
    apply (entered.stands unitId other last).imp_right
    intro finished
    by_cases here : other = conn
    · subst here
      rw [moved_mover]
      exact stays finished
    · rw [moved_other here]
      exact finished

theorem Entered.register (entered : Entered state)
    (running : (state.handlers conn).pc ≠ .finished) : Entered (state.register conn newId) := by
  constructor
  · intro other unitId named
    by_cases here : other = conn
    · subst here
      rw [register_mover] at named
      obtain rfl := Option.some.inj named
      exact List.mem_cons_self
    · rw [register_other here] at named
      exact List.mem_cons_of_mem _ (entered.written other unitId named)
  · intro unitId other last
    by_cases same : newId = unitId
    · subst same
      rw [lastRegistrant_register] at last
      obtain rfl := Option.some.inj last
      exact Or.inl register_entry
    · rw [lastRegistrant_register_other same] at last
      rw [register_entry_other same]
      apply (entered.stands unitId other last).imp_right
      intro finished
      have different : other ≠ conn := by
        rintro rfl
        exact running finished
      rwa [register_other different]

theorem Entered.remove (entered : Entered state) :
    Entered { state.goto conn .finished with
      clients :=
        if state.clients unitId = some conn then Function.update state.clients unitId none
        else state.clients } := by
  constructor
  · intro other named here
    by_cases same : other = conn
    · subst same
      rw [goto_mover] at here
      exact entered.written other named here
    · rw [goto_other same] at here
      exact entered.written other named here
  · intro other entry last
    by_cases same : entry = conn
    · subst same
      rw [goto_mover]
      exact Or.inr rfl
    · rw [goto_other same]
      apply (entered.stands other entry last).imp_left
      intro current
      dsimp only
      split_ifs with owned
      · have different : other ≠ unitId := by
          rintro rfl
          exact same (Option.some.inj (current.symm.trans owned))
        rwa [Function.update_of_ne different]
      · exact current

theorem Entered.step {next : State UnitId} {label : Label UnitId} (entered : Entered state)
    (stepped : Registry.step state label = some next) : Entered next := by
  cases step_effect stepped with
  | handler conn handler lock same stays => exact entered.handler same stays
  | register conn newId running => exact entered.register running
  | remove conn unitId => exact entered.remove

/-- A connection that has a unit id registered under it, and the entry is still there unless
another connection registered under that id later or the handler is finished. -/
theorem Entered.entry (entered : Entered state)
    (named : (state.handlers conn).unitId = some unitId) :
    (unitId, conn) ∈ state.registered ∧
      (lastRegistrant unitId state.registered = some conn →
        (state.handlers conn).pc ≠ .finished → state.clients unitId = some conn) :=
  ⟨entered.written conn unitId named,
    fun last running => (entered.stands unitId conn last).resolve_right running⟩

end

end WallUnit.Server.Registry
