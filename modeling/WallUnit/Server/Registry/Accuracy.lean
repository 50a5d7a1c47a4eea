import WallUnit.Server.Registry.Handlers

/-!
Owns the accuracy of the unit registry: the moves a handler can make, the
invariant they keep, and the condition on the runs along which it is kept. A
connection that introduced itself under several unit ids leaves entries behind,
and a `hello` that waits at the lock while its connection is superseded brings
that connection back; the condition excludes these.
-/

namespace WallUnit.Server.Registry

open WallUnit.Foundations

section

variable {UnitId : Type} [DecidableEq UnitId]

/-! ### What one step can do -/

/-- A step that leaves the dictionary alone, seen at the handler that moves. -/
structure HandlerMove (state : State UnitId) (conn : Nat) (handler : Handler UnitId)
    (lock : Option Nat) : Prop where
  unitId : handler.unitId = (state.handlers conn).unitId
  closed : (state.handlers conn).closed = true → handler.closed = true
  waits : ∀ newId, handler.pc = .waitLock newId →
    (state.handlers conn).pc = .waitLock newId ∨ (state.handlers conn).closed = false
  closing : ∀ newId prev, handler.pc = .closingPrev newId prev →
    (state.handlers conn).pc = .closingPrev newId prev ∧ lock = state.lock ∨
      (state.handlers conn).pc = .waitLock newId ∧ lock = some conn ∧
        state.clients newId = some prev
  finishes : handler.pc = .finished →
    (state.handlers conn).pc = .finished ∨ handler.unitId = none ∨
      ∀ unitId, lastRegistrant unitId state.registered ≠ some conn
  stays : (state.handlers conn).pc = .finished → handler.pc = .finished
  lock : ∀ other, other ≠ conn → state.lock = some other → lock = some other

inductive Move (state : State UnitId) : State UnitId → Prop where
  | none : Move state state
  | handler (conn : Nat) (handler : Handler UnitId) (lock : Option Nat)
      (move : HandlerMove state conn handler lock) :
      Move state { state.setHandler conn handler with lock := lock }
  | register (conn : Nat) (newId : UnitId)
      (hello : (state.handlers conn).pc = .waitLock newId ∧ state.lock = none ∨
        ∃ prev, (state.handlers conn).pc = .closingPrev newId prev)
      (replaced : ∀ prev, state.clients newId = some prev → prev ≠ conn →
        (state.handlers prev).closed = true ∧ (state.handlers prev).pc ≠ .waitLock newId) :
      Move state (state.register conn newId)
  | remove (conn : Nat) (unitId : UnitId) (named : (state.handlers conn).unitId = some unitId)
      (free : state.lock = none)
      (only : ∀ other, lastRegistrant other state.registered = some conn → other = unitId) :
      Move state { state.goto conn .finished with
        clients :=
          if state.clients unitId = some conn then Function.update state.clients unitId none
          else state.clients }

/-- Whoever is about to be replaced in `_clients` has no `hello` for the same
unit waiting at the lock. -/
def NoLateHello (state : State UnitId) (conn : Nat) (newId : UnitId) : Prop :=
  match state.clients newId with
  | none => True
  | some prev =>
      prev = conn ∨ (state.handlers prev).closed = false ∨
        (state.handlers prev).pc ≠ .waitLock newId

/-- The condition on a step. A connection that finishes is the last registrant of
no unit but the one its `finally` block removes, and of none at all when the
block is cancelled. -/
def Orderly (state : State UnitId) : Label UnitId → Prop
  | .acquire conn =>
      match (state.handlers conn).pc with
      | .waitLock newId => NoLateHello state conn newId
      | _ => True
  | .prevClosed conn =>
      match (state.handlers conn).pc with
      | .closingPrev newId _ => NoLateHello state conn newId
      | _ => True
  | .cleanUp conn =>
      ∀ entry ∈ state.registered, lastRegistrant entry.1 state.registered = some conn →
        (state.handlers conn).unitId = some entry.1
  | .cancel conn =>
      (state.handlers conn).pc = .finallyLock →
        ∀ entry ∈ state.registered, lastRegistrant entry.1 state.registered ≠ some conn
  | _ => True

theorem mem_of_lastRegistrant {unitId : UnitId} {conn : Nat} {registered : List (UnitId × Nat)}
    (last : lastRegistrant unitId registered = some conn) : (unitId, conn) ∈ registered := by
  induction registered with
  | nil => contradiction
  | cons entry older inductionHypothesis =>
      rw [lastRegistrant] at last
      split_ifs at last with here
      · obtain rfl := Option.some.inj last
        rw [← here]
        exact List.mem_cons_self
      · exact List.mem_cons_of_mem _ (inductionHypothesis last)

/-- A registrant that was never superseded is the last one. -/
theorem lastRegistrant_of_mem {unitId : UnitId} {conn : Nat} {registered : List (UnitId × Nat)}
    (member : (unitId, conn) ∈ registered) (current : ¬ Superseded unitId conn registered) :
    lastRegistrant unitId registered = some conn := by
  induction registered with
  | nil => contradiction
  | cons entry older inductionHypothesis =>
      rw [Superseded, not_or] at current
      rw [lastRegistrant]
      rcases List.mem_cons.mp member with rfl | before
      · exact if_pos rfl
      · split_ifs with here
        · have same : entry.2 = conn := by
            by_contra differs
            exact current.1 ⟨here, differs, before⟩
          rw [same]
        · exact inductionHypothesis before current.2

/-- The `finally` block is entered from the `try` block only. -/
theorem finallyMove {state : State UnitId} {conn : Nat} {lock : Option Nat}
    (running : (state.handlers conn).pc ≠ .finished)
    (released : ∀ other, other ≠ conn → state.lock = some other → lock = some other) :
    HandlerMove state conn { state.handlers conn with pc := (state.handlers conn).finallyPc }
      lock := by
  have shape : (state.handlers conn).finallyPc = .finished ∧ (state.handlers conn).unitId = none ∨
      (state.handlers conn).finallyPc = .finallyLock := by
    unfold Handler.finallyPc
    cases named : (state.handlers conn).unitId with
    | none => exact Or.inl ⟨rfl, rfl⟩
    | some unitId => exact Or.inr rfl
  rcases shape with ⟨done, unnamed⟩ | waits
  · exact ⟨rfl, id, by simp [done], by simp [done], fun _ => Or.inr (Or.inl unnamed),
      fun _ => done, released⟩
  · exact ⟨rfl, id, by simp [waits], by simp [waits], by simp [waits],
      fun finished => absurd finished running, released⟩

/-- A move between two awaits that neither take the lock nor end the handler. -/
theorem gotoMove {state : State UnitId} {conn : Nat} {pc : Pc UnitId}
    (running : (state.handlers conn).pc ≠ .finished) (unfinished : pc ≠ .finished)
    (waits : ∀ newId, pc = .waitLock newId → (state.handlers conn).closed = false)
    (outside : ∀ newId prev, pc ≠ .closingPrev newId prev) :
    HandlerMove state conn { state.handlers conn with pc := pc } state.lock :=
  ⟨rfl, id, fun newId here => Or.inr (waits newId here),
    fun newId prev here => absurd here (outside newId prev),
    fun here => absurd here unfinished, fun finished => absurd finished running,
    fun _ _ held => held⟩

theorem move_goto {state : State UnitId} {conn : Nat} {pc : Pc UnitId}
    (move : HandlerMove state conn { state.handlers conn with pc := pc } state.lock) :
    Move state (state.goto conn pc) :=
  .handler conn _ _ move

theorem move_enterFinally {state : State UnitId} {conn : Nat}
    (running : (state.handlers conn).pc ≠ .finished) : Move state (state.enterFinally conn) :=
  move_goto (finallyMove running fun _ _ held => held)

omit [DecidableEq UnitId] in
theorem replaced_of_noLateHello {state : State UnitId} {conn : Nat} {newId : UnitId}
    (timely : NoLateHello state conn newId)
    (closed : ∀ prev, state.clients newId = some prev → (state.handlers prev).closed = true) :
    ∀ prev, state.clients newId = some prev → prev ≠ conn →
      (state.handlers prev).closed = true ∧ (state.handlers prev).pc ≠ .waitLock newId := by
  intro prev current different
  have shut := closed prev current
  simp only [NoLateHello, current, shut] at timely
  rcases timely with same | contra | quiet
  · exact absurd same different
  · contradiction
  · exact ⟨shut, quiet⟩

theorem acquire_cases {state next : State UnitId} {conn : Nat}
    (orderly : Orderly state (.acquire conn)) (stepped : step state (.acquire conn) = some next) :
    Move state next := by
  simp only [step] at stepped
  split at stepped
  · next newId waiting free =>
      simp only [Orderly, waiting] at orderly
      cases current : state.clients newId with
      | none =>
          simp only [current] at stepped
          obtain rfl := Option.some.inj stepped
          exact .register conn newId (Or.inl ⟨waiting, free⟩) (by simp [current])
      | some prev =>
          simp only [current] at stepped
          split_ifs at stepped with closed
          · obtain rfl := Option.some.inj stepped
            refine .register conn newId (Or.inl ⟨waiting, free⟩)
              (replaced_of_noLateHello orderly fun other among => ?_)
            rw [current] at among
            rwa [← Option.some.inj among]
          · obtain rfl := Option.some.inj stepped
            refine .handler conn _ (some conn) ⟨rfl, id, by simp, ?_, by simp, ?_, ?_⟩
            · intro other prev' here
              obtain ⟨rfl, rfl⟩ := Pc.closingPrev.inj here
              exact Or.inr ⟨waiting, rfl, current⟩
            · intro finished
              rw [waiting] at finished
              contradiction
            · intro other _ held
              rw [free] at held
              contradiction
  · contradiction

theorem prevClosed_cases {state next : State UnitId} {conn : Nat}
    (current : ∀ newId prev, (state.handlers conn).pc = .closingPrev newId prev →
      state.clients newId = some prev)
    (orderly : Orderly state (.prevClosed conn))
    (stepped : step state (.prevClosed conn) = some next) : Move state next := by
  simp only [step] at stepped
  split at stepped
  · next newId prev closing =>
      simp only [Orderly, closing] at orderly
      split_ifs at stepped with closed
      obtain rfl := Option.some.inj stepped
      refine .register conn newId (Or.inr ⟨prev, closing⟩)
        (replaced_of_noLateHello orderly fun other among => ?_)
      rw [current newId prev closing] at among
      rwa [← Option.some.inj among]
  · contradiction

theorem cleanUp_cases {state next : State UnitId} {conn : Nat}
    (orderly : Orderly state (.cleanUp conn)) (stepped : step state (.cleanUp conn) = some next) :
    Move state next := by
  simp only [step] at stepped
  split at stepped
  · next unitId waiting free named =>
      obtain rfl := Option.some.inj stepped
      refine .remove conn unitId named free fun other last => ?_
      have same := orderly _ (mem_of_lastRegistrant last) last
      rw [named] at same
      exact (Option.some.inj same).symm
  · contradiction

theorem cancel_cases {state next : State UnitId} {conn : Nat}
    (held : ∀ newId prev, (state.handlers conn).pc = .closingPrev newId prev →
      state.lock = some conn)
    (orderly : Orderly state (.cancel conn)) (stepped : step state (.cancel conn) = some next) :
    Move state next := by
  cases here : (state.handlers conn).pc with
  | absent | finished => simp [step, here] at stepped
  | finallyLock =>
      simp only [step, here] at stepped
      obtain rfl := Option.some.inj stepped
      refine move_goto ⟨rfl, id, by simp, by simp, fun _ => Or.inr (Or.inr fun unitId last => ?_),
        fun _ => rfl, fun _ _ held => held⟩
      exact orderly here _ (mem_of_lastRegistrant last) last
  | closingPrev newId prev =>
      simp only [step, here] at stepped
      obtain rfl := Option.some.inj stepped
      refine .handler conn _ none (finallyMove (by simp [here]) fun other different owned => ?_)
      rw [held newId prev here] at owned
      exact absurd (Option.some.inj owned).symm different
  | receiving | waitLock | acking | rejecting =>
      simp only [step, here] at stepped
      obtain rfl := Option.some.inj stepped
      exact move_enterFinally (by simp [here])

/-- Every step is a move, provided whoever awaits a close owns the lock. -/
theorem step_cases {state next : State UnitId} {label : Label UnitId}
    (holds : ∀ conn newId prev, (state.handlers conn).pc = .closingPrev newId prev →
      state.lock = some conn ∧ state.clients newId = some prev)
    (orderly : Orderly state label) (stepped : step state label = some next) :
    Move state next := by
  cases label with
  | connect conn =>
      simp only [step] at stepped
      split_ifs at stepped with absent
      obtain rfl := Option.some.inj stepped
      exact move_goto (gotoMove (by simp [absent]) (by simp) (by simp) (by simp))
  | closes conn =>
      obtain rfl := Option.some.inj stepped
      exact .handler conn _ _ ⟨rfl, fun _ => rfl, fun _ here => Or.inl here,
        fun _ _ here => Or.inl ⟨here, rfl⟩, fun here => Or.inl here, id, fun _ _ held => held⟩
  | receive conn frame =>
      simp only [step] at stepped
      split_ifs at stepped with ready
      cases frame with
      | hello newId =>
          cases newId with
          | none =>
              obtain rfl := Option.some.inj stepped
              exact move_goto (gotoMove (by simp [ready.1]) (by simp) (by simp) (by simp))
          | some newId =>
              obtain rfl := Option.some.inj stepped
              exact move_goto
                (gotoMove (by simp [ready.1]) (by simp) (fun _ _ => ready.2) (by simp))
      | other =>
          obtain rfl := Option.some.inj stepped
          exact .none
  | leave conn =>
      simp only [step] at stepped
      split_ifs at stepped with receiving
      obtain rfl := Option.some.inj stepped
      exact move_enterFinally (by simp [receiving])
  | acquire conn => exact acquire_cases orderly stepped
  | prevClosed conn =>
      exact prevClosed_cases (fun newId prev here => (holds conn newId prev here).2) orderly stepped
  | acked conn sent =>
      simp only [step] at stepped
      split_ifs at stepped with acking
      · obtain rfl := Option.some.inj stepped
        exact move_goto (gotoMove (by simp [acking]) (by simp) (by simp) (by simp))
      · obtain rfl := Option.some.inj stepped
        exact move_enterFinally (by simp [acking])
  | rejected conn =>
      simp only [step] at stepped
      split_ifs at stepped with rejecting
      obtain rfl := Option.some.inj stepped
      exact move_enterFinally (by simp [rejecting])
  | cleanUp conn => exact cleanUp_cases orderly stepped
  | cancel conn =>
      exact cancel_cases (fun newId prev here => (holds conn newId prev here).1) orderly stepped

/-! ### The invariant -/

/-- A superseded connection can reach the lock for that unit no more: its socket
is closed and no `hello` of it is on its way. -/
def Retired (handler : Handler UnitId) (unitId : UnitId) : Prop :=
  handler.pc = .finished ∨ handler.closed = true ∧ handler.pc ≠ .waitLock unitId ∧
    ∀ prev, handler.pc ≠ .closingPrev unitId prev

structure Kept (state : State UnitId) : Prop where
  entry : ∀ unitId conn, state.clients unitId = some conn →
    lastRegistrant unitId state.registered = some conn
  last : ∀ unitId conn, lastRegistrant unitId state.registered = some conn →
    (state.handlers conn).pc ≠ .finished → state.clients unitId = some conn
  gone : ∀ unitId conn, (state.handlers conn).pc = .finished → state.clients unitId ≠ some conn
  retired : ∀ unitId conn, Superseded unitId conn state.registered →
    Retired (state.handlers conn) unitId
  holds : ∀ conn newId prev, (state.handlers conn).pc = .closingPrev newId prev →
    state.lock = some conn ∧ state.clients newId = some prev
  unnamed : ∀ conn, (state.handlers conn).unitId = none →
    ∀ unitId, (unitId, conn) ∉ state.registered
  no_return : NoReturn state.registered

theorem kept_start : Kept (State.start : State UnitId) where
  entry := by simp [State.start]
  last := by simp [State.start, lastRegistrant]
  gone := by simp [State.start]
  retired := by simp [State.start, Superseded]
  holds := by simp [State.start]
  unnamed := by simp [State.start]
  no_return := trivial

theorem Retired.handlerMove {state : State UnitId} {conn : Nat} {handler : Handler UnitId}
    {lock : Option Nat} {unitId : UnitId} (move : HandlerMove state conn handler lock)
    (retired : Retired (state.handlers conn) unitId) : Retired handler unitId := by
  rcases retired with finished | ⟨closed, noHello, noClose⟩
  · exact Or.inl (move.stays finished)
  · refine Or.inr ⟨move.closed closed, fun waits => ?_, fun prev closing => ?_⟩
    · rcases move.waits unitId waits with before | open_
      · exact noHello before
      · rw [closed] at open_
        contradiction
    · rcases move.closing unitId prev closing with before | before
      · exact noClose prev before.1
      · exact noHello before.1

omit [DecidableEq UnitId] in
theorem moved_mover {state : State UnitId} {conn : Nat} {handler : Handler UnitId}
    {lock : Option Nat} :
    ({ state.setHandler conn handler with lock := lock } : State UnitId).handlers conn = handler :=
  Function.update_self ..

omit [DecidableEq UnitId] in
theorem moved_other {state : State UnitId} {conn other : Nat} {handler : Handler UnitId}
    {lock : Option Nat} (different : other ≠ conn) :
    ({ state.setHandler conn handler with lock := lock } : State UnitId).handlers other =
      state.handlers other :=
  Function.update_of_ne different ..

theorem Kept.handlerMove {state : State UnitId} {conn : Nat} {handler : Handler UnitId}
    {lock : Option Nat} (kept : Kept state) (move : HandlerMove state conn handler lock) :
    Kept { state.setHandler conn handler with lock := lock } where
  entry := kept.entry
  last := by
    intro unitId other last running
    apply kept.last unitId other last
    intro finished
    apply running
    by_cases same : other = conn
    · subst same
      rw [moved_mover]
      exact move.stays finished
    · rwa [moved_other same]
  gone := by
    intro unitId other finished current
    by_cases same : other = conn
    · subst same
      rw [moved_mover] at finished
      have last := kept.entry unitId other current
      rcases move.finishes finished with before | unnamed | noEntry
      · exact kept.gone unitId other before current
      · rw [move.unitId] at unnamed
        exact kept.unnamed other unnamed unitId (mem_of_lastRegistrant last)
      · exact noEntry unitId last
    · rw [moved_other same] at finished
      exact kept.gone unitId other finished current
  retired := by
    intro unitId other superseded
    have before := kept.retired unitId other superseded
    by_cases same : other = conn
    · subst same
      rw [moved_mover]
      exact before.handlerMove move
    · rwa [moved_other same]
  holds := by
    intro other newId prev closing
    by_cases same : other = conn
    · subst same
      rw [moved_mover] at closing
      rcases move.closing newId prev closing with ⟨before, rfl⟩ | ⟨-, taken, current⟩
      · exact kept.holds other newId prev before
      · exact ⟨taken, current⟩
    · rw [moved_other same] at closing
      have held := kept.holds other newId prev closing
      exact ⟨move.lock other same held.1, held.2⟩
  unnamed := by
    intro other unnamed
    by_cases same : other = conn
    · subst same
      rw [moved_mover, move.unitId] at unnamed
      exact kept.unnamed other unnamed
    · rw [moved_other same] at unnamed
      exact kept.unnamed other unnamed
  no_return := kept.no_return

/-! ### Registration -/

section

variable {state : State UnitId} {conn : Nat} {newId unitId : UnitId}

/-- Owning the lock, or about to take it, with `newId` to register. -/
def Registering (state : State UnitId) (conn : Nat) (newId : UnitId) : Prop :=
  (state.handlers conn).pc = .waitLock newId ∧ state.lock = none ∨
    ∃ prev, (state.handlers conn).pc = .closingPrev newId prev

theorem register_mover :
    (state.register conn newId).handlers conn =
      { state.handlers conn with unitId := some newId, pc := .acking } :=
  Function.update_self ..

theorem register_other {other : Nat} (different : other ≠ conn) :
    (state.register conn newId).handlers other = state.handlers other :=
  Function.update_of_ne different ..

theorem register_entry : (state.register conn newId).clients newId = some conn :=
  Function.update_self ..

theorem register_entry_other (different : newId ≠ unitId) :
    (state.register conn newId).clients unitId = state.clients unitId :=
  Function.update_of_ne different.symm ..

theorem lastRegistrant_register :
    lastRegistrant newId (state.register conn newId).registered = some conn := if_pos rfl

theorem lastRegistrant_register_other (different : newId ≠ unitId) :
    lastRegistrant unitId (state.register conn newId).registered =
      lastRegistrant unitId state.registered := if_neg different

omit [DecidableEq UnitId] in
theorem Registering.running (registering : Registering state conn newId) :
    (state.handlers conn).pc ≠ .finished := by
  rcases registering with ⟨waiting, -⟩ | ⟨prev, closing⟩
  · simp [waiting]
  · simp [closing]

/-- Nobody else is inside the locked region. -/
theorem Kept.alone (kept : Kept state) (registering : Registering state conn newId)
    {other prev : Nat} (different : other ≠ conn) :
    (state.handlers other).pc ≠ .closingPrev unitId prev := by
  intro closing
  have held := (kept.holds other unitId prev closing).1
  rcases registering with ⟨-, free⟩ | ⟨prev', mine⟩
  · rw [free] at held
    contradiction
  · rw [(kept.holds conn newId prev' mine).1] at held
    exact different (Option.some.inj held).symm

theorem Kept.not_superseded (kept : Kept state) (registering : Registering state conn newId) :
    ¬ Superseded newId conn state.registered := by
  intro superseded
  rcases kept.retired newId conn superseded with finished | ⟨-, noHello, noClose⟩
  · exact registering.running finished
  · rcases registering with ⟨waiting, -⟩ | ⟨prev, closing⟩
    · exact noHello waiting
    · exact noClose prev closing

/-- Whoever is registered for a unit when another connection registers it is
retired, or was superseded before. -/
theorem Kept.retired_register (kept : Kept state) (registering : Registering state conn newId)
    (replaced : ∀ prev, state.clients newId = some prev → prev ≠ conn →
      (state.handlers prev).closed = true ∧ (state.handlers prev).pc ≠ .waitLock newId)
    {other : Nat} (superseded : Superseded unitId other (state.register conn newId).registered) :
    Retired ((state.register conn newId).handlers other) unitId := by
  by_cases same : other = conn
  · subst same
    rw [register_mover]
    rcases superseded with ⟨rfl, different, -⟩ | before
    · exact absurd rfl different
    · rcases kept.retired unitId other before with finished | ⟨closed, -, -⟩
      · exact absurd finished registering.running
      · exact Or.inr ⟨closed, by simp, by simp⟩
  · rw [register_other same]
    rcases superseded with ⟨rfl, -, member⟩ | before
    · by_cases old : Superseded newId other state.registered
      · exact kept.retired newId other old
      · by_cases finished : (state.handlers other).pc = .finished
        · exact Or.inl finished
        · have last := lastRegistrant_of_mem member old
          have shut := replaced other (kept.last newId other last finished) same
          exact Or.inr ⟨shut.1, shut.2, fun prev => kept.alone registering same⟩
    · exact kept.retired unitId other before

theorem Kept.register (kept : Kept state) (registering : Registering state conn newId)
    (replaced : ∀ prev, state.clients newId = some prev → prev ≠ conn →
      (state.handlers prev).closed = true ∧ (state.handlers prev).pc ≠ .waitLock newId) :
    Kept (state.register conn newId) where
  entry := by
    intro unitId other entry
    by_cases here : newId = unitId
    · subst here
      rw [register_entry] at entry
      rw [lastRegistrant_register, entry]
    · rw [register_entry_other here] at entry
      rw [lastRegistrant_register_other here]
      exact kept.entry unitId other entry
  last := by
    intro unitId other last unfinished
    by_cases here : newId = unitId
    · subst here
      rw [lastRegistrant_register] at last
      rw [register_entry, last]
    · rw [lastRegistrant_register_other here] at last
      rw [register_entry_other here]
      apply kept.last unitId other last
      by_cases same : other = conn
      · rw [same]
        exact registering.running
      · rwa [register_other same] at unfinished
  gone := by
    intro unitId other finished entry
    have different : other ≠ conn := by
      rintro rfl
      rw [register_mover] at finished
      contradiction
    rw [register_other different] at finished
    by_cases here : newId = unitId
    · subst here
      rw [register_entry] at entry
      exact different (Option.some.inj entry).symm
    · rw [register_entry_other here] at entry
      exact kept.gone unitId other finished entry
  retired := fun _ _ superseded => kept.retired_register registering replaced superseded
  holds := by
    intro other unitId prev closing
    by_cases same : other = conn
    · subst same
      rw [register_mover] at closing
      contradiction
    · rw [register_other same] at closing
      exact absurd closing (kept.alone registering same)
  unnamed := by
    intro other unnamed unitId member
    by_cases same : other = conn
    · subst same
      rw [register_mover] at unnamed
      contradiction
    · rw [register_other same] at unnamed
      rcases List.mem_cons.mp member with here | before
      · exact same (Prod.mk.inj here).2
      · exact kept.unnamed other unnamed unitId before
  no_return := ⟨kept.not_superseded registering, kept.no_return⟩

/-! ### Removal -/

omit [DecidableEq UnitId] in
theorem goto_mover {pc : Pc UnitId} :
    (state.goto conn pc).handlers conn = { state.handlers conn with pc := pc } :=
  Function.update_self ..

omit [DecidableEq UnitId] in
theorem goto_other {pc : Pc UnitId} {other : Nat} (different : other ≠ conn) :
    (state.goto conn pc).handlers other = state.handlers other :=
  Function.update_of_ne different ..

/-- The entries after a removal are the old ones that refer to another connection. -/
theorem removed_entry {other : UnitId} (entry : Nat)
    (stale : state.clients other = some conn → other = unitId) :
    (if state.clients unitId = some conn then Function.update state.clients unitId none
      else state.clients) other = some entry ↔ state.clients other = some entry ∧ entry ≠ conn := by
  by_cases owned : state.clients unitId = some conn
  · rw [if_pos owned]
    by_cases here : other = unitId
    · subst here
      simp [owned, eq_comm]
    · rw [Function.update_of_ne here]
      constructor
      · intro current
        refine ⟨current, fun same => here (stale ?_)⟩
        rwa [same] at current
      · exact And.left
  · rw [if_neg owned]
    constructor
    · intro current
      refine ⟨current, fun same => owned ?_⟩
      rw [same] at current
      rwa [stale current] at current
    · exact And.left

theorem Kept.remove (kept : Kept state) (named : (state.handlers conn).unitId = some unitId)
    (free : state.lock = none)
    (only : ∀ other, lastRegistrant other state.registered = some conn → other = unitId) :
    Kept { state.goto conn .finished with
      clients :=
        if state.clients unitId = some conn then Function.update state.clients unitId none
        else state.clients } := by
  have entries := fun (other : UnitId) (entry : Nat) =>
    removed_entry entry fun current => only other (kept.entry other conn current)
  refine ⟨?_, ?_, ?_, ?_, ?_, ?_, kept.no_return⟩
  · intro other entry current
    exact kept.entry other entry ((entries other entry).mp current).1
  · intro other entry last running
    have different : entry ≠ conn := by
      rintro rfl
      rw [goto_mover] at running
      exact running rfl
    rw [goto_other different] at running
    exact (entries other entry).mpr ⟨kept.last other entry last running, different⟩
  · intro other entry finished current
    obtain ⟨current, different⟩ := (entries other entry).mp current
    rw [goto_other different] at finished
    exact kept.gone other entry finished current
  · intro other entry superseded
    by_cases same : entry = conn
    · subst same
      rw [goto_mover]
      exact Or.inl rfl
    · rw [goto_other same]
      exact kept.retired other entry superseded
  · intro other newId prev closing
    by_cases same : other = conn
    · subst same
      rw [goto_mover] at closing
      contradiction
    · rw [goto_other same] at closing
      have held := (kept.holds other newId prev closing).1
      rw [free] at held
      contradiction
  · intro other unnamed
    by_cases same : other = conn
    · subst same
      rw [goto_mover] at unnamed
      exact absurd (named.symm.trans unnamed) (by simp)
    · rw [goto_other same] at unnamed
      exact kept.unnamed other unnamed

end

/-! ### Accuracy -/

theorem Kept.move {state next : State UnitId} (kept : Kept state) (move : Move state next) :
    Kept next := by
  cases move with
  | none => exact kept
  | handler conn handler lock move => exact kept.handlerMove move
  | register conn newId hello replaced => exact kept.register hello replaced
  | remove conn unitId named free only => exact kept.remove named free only

/-- A finishing handler takes out its own entry at most, in any state. -/
theorem cleanUp_keeps_others {state next : State UnitId} {conn : Nat}
    (stepped : step state (.cleanUp conn) = some next) (unitId : UnitId) (other : Nat)
    (different : other ≠ conn) (entry : state.clients unitId = some other) :
    next.clients unitId = some other := by
  simp only [step] at stepped
  split at stepped
  · next own waiting free named =>
      obtain rfl := Option.some.inj stepped
      by_cases owned : state.clients own = some conn
      · have here : unitId ≠ own := by
          rintro rfl
          rw [owned] at entry
          exact different (Option.some.inj entry).symm
        simpa [owned, Function.update_of_ne here] using entry
      · simpa [owned] using entry
  · contradiction

theorem Kept.accurate {state : State UnitId} (kept : Kept state) : Accurate state where
  finished_gone := fun unitId conn => kept.gone unitId conn
  keeps_others := fun _ _ stepped => cleanUp_keeps_others stepped
  last_registered := kept.last
  no_return := kept.no_return

/-- Along orderly runs the registry is accurate in every state reached. -/
theorem accurate_of_orderly {labels : List (Label UnitId)} {final : State UnitId}
    (along : (registryMachine UnitId).Along Orderly (registryMachine UnitId).init labels)
    (ran : (registryMachine UnitId).run labels = some final) : Accurate final :=
  (Machine.invariant_along kept_start
    (fun _ _ _ kept orderly stepped => Kept.move kept (step_cases kept.holds orderly stepped)) along
    ran).accurate

instance (state : State UnitId) (conn : Nat) (newId : UnitId) :
    Decidable (NoLateHello state conn newId) := by
  unfold NoLateHello
  split <;> infer_instance

instance (state : State UnitId) (label : Label UnitId) : Decidable (Orderly state label) := by
  unfold Orderly
  repeat' split
  all_goals infer_instance

end

/-- Connection 1 supersedes connection 0; both handlers then finish. -/
def reconnectRun : List (Label String) :=
  [.connect 0, .receive 0 (.hello (some "den")), .acquire 0, .acked 0 true, .connect 1,
    .receive 1 (.hello (some "den")), .acquire 1, .closes 0, .prevClosed 1, .acked 1 true,
    .leave 0, .cleanUp 0]

/-- A connection introduces itself under two unit ids and leaves. -/
def renameRun : List (Label String) :=
  [.connect 0, .receive 0 (.hello (some "den")), .acquire 0, .acked 0 true,
    .receive 0 (.hello (some "attic")), .acquire 0, .acked 0 true, .leave 0, .cleanUp 0]

theorem accurate_of_reconnectRun :
    ∃ final, (registryMachine String).run reconnectRun = some final ∧ Accurate final ∧
      final.clients "den" = some 1 :=
  ⟨_, rfl,
    accurate_of_orderly (show (registryMachine String).Along Orderly _ reconnectRun by decide) rfl,
    by decide⟩

theorem accurate_not_of_renameRun :
    ¬ ∀ (labels : List (Label String)) (final : State String),
      (registryMachine String).run labels = some final → Accurate final := by
  intro always
  have accurate := always renameRun _ rfl
  exact accurate.finished_gone "den" 0 (by decide) (by decide)

end WallUnit.Server.Registry
