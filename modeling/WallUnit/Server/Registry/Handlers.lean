import Mathlib.Data.List.Basic
import WallUnit.Foundations.Machine

/-!
Owns the unit registry of `voice_server.py`: the `_clients` dictionary, its lock
and the `ws_handler` coroutines that register, supersede and clean up, and what
it means for the registry to be accurate. A handler moves from one await to the
next in one step, so a label list is one interleaving of any number of handlers.

Does not own the frames other than `hello`, which leave the registry alone, nor
`notify_unit`, which only reads it.
-/

namespace WallUnit.Server.Registry

open WallUnit.Foundations

section

variable {UnitId : Type}

/-- The await a `ws_handler` is suspended at. -/
inductive Pc (UnitId : Type) where
  | absent
  | receiving
  | waitLock (newId : UnitId)
  | closingPrev (newId : UnitId) (prev : Nat)
  | acking
  | rejecting
  | finallyLock
  | finished
deriving DecidableEq, Repr

/-- One connection: whether its WebSocket is closed, and its handler. -/
structure Handler (UnitId : Type) where
  closed : Bool
  unitId : Option UnitId
  pc : Pc UnitId
deriving DecidableEq, Repr

/-- `registered` is the history of writes to `_clients`, newest first; no step
reads it. -/
structure State (UnitId : Type) where
  handlers : Nat → Handler UnitId
  clients : UnitId → Option Nat
  lock : Option Nat
  registered : List (UnitId × Nat)

def State.start : State UnitId where
  handlers := fun _ => ⟨false, none, .absent⟩
  clients := fun _ => none
  lock := none
  registered := []

/-- A frame, as far as the handler tells frames apart. `hello` carries
`str(evt.get("unit_id") or "").strip().lower()`, or `none` when that is empty. -/
inductive Frame (UnitId : Type) where
  | hello (newId : Option UnitId)
  | other
deriving DecidableEq, Repr

inductive Label (UnitId : Type) where
  | connect (conn : Nat)
  | closes (conn : Nat)
  | receive (conn : Nat) (frame : Frame UnitId)
  | leave (conn : Nat)
  | acquire (conn : Nat)
  | prevClosed (conn : Nat)
  | acked (conn : Nat) (sent : Bool)
  | rejected (conn : Nat)
  | cleanUp (conn : Nat)
  | cancel (conn : Nat)
deriving DecidableEq, Repr

variable [DecidableEq UnitId]

def State.setHandler (state : State UnitId) (conn : Nat) (handler : Handler UnitId) :
    State UnitId :=
  { state with handlers := Function.update state.handlers conn handler }

def State.goto (state : State UnitId) (conn : Nat) (pc : Pc UnitId) : State UnitId :=
  state.setHandler conn { state.handlers conn with pc := pc }

/-- Leaving the `try` block: the `finally` block takes the lock only if the
handler has a unit id. -/
def Handler.finallyPc (handler : Handler UnitId) : Pc UnitId :=
  if handler.unitId.isNone then .finished else .finallyLock

def State.enterFinally (state : State UnitId) (conn : Nat) : State UnitId :=
  state.goto conn (state.handlers conn).finallyPc

/-- `_clients[new_id] = ws`, the release of the lock, and `unit_id = new_id`, up
to the await of `hello_ack`. -/
def State.register (state : State UnitId) (conn : Nat) (newId : UnitId) : State UnitId where
  handlers := Function.update state.handlers conn
    { state.handlers conn with unitId := some newId, pc := .acking }
  clients := Function.update state.clients newId (some conn)
  lock := none
  registered := (newId, conn) :: state.registered

def step (state : State UnitId) : Label UnitId → Option (State UnitId)
  | .connect conn =>
      if (state.handlers conn).pc = .absent then some (state.goto conn .receiving) else none
  | .closes conn => some (state.setHandler conn { state.handlers conn with closed := true })
  | .receive conn frame =>
      -- a closed WebSocket ends the `async for`, it delivers no frame
      if (state.handlers conn).pc = .receiving ∧ (state.handlers conn).closed = false then
        match frame with
        | .hello (some newId) => some (state.goto conn (.waitLock newId))
        | .hello none => some (state.goto conn .rejecting)
        | .other => some state
      else none
  | .leave conn =>
      if (state.handlers conn).pc = .receiving then some (state.enterFinally conn) else none
  | .acquire conn =>
      match (state.handlers conn).pc, state.lock with
      | .waitLock newId, none =>
          match state.clients newId with
          | none => some (state.register conn newId)
          | some prev =>
              if (state.handlers prev).closed then some (state.register conn newId)
              else some { state.goto conn (.closingPrev newId prev) with lock := some conn }
      | _, _ => none
  | .prevClosed conn =>
      match (state.handlers conn).pc with
      | .closingPrev newId prev =>
          if (state.handlers prev).closed then some (state.register conn newId) else none
      | _ => none
  | .acked conn sent =>
      if (state.handlers conn).pc = .acking then
        some (if sent then state.goto conn .receiving else state.enterFinally conn)
      else none
  | .rejected conn =>
      if (state.handlers conn).pc = .rejecting then some (state.enterFinally conn) else none
  | .cleanUp conn =>
      match (state.handlers conn).pc, state.lock, (state.handlers conn).unitId with
      | .finallyLock, none, some unitId =>
          some { state.goto conn .finished with
            clients :=
              if state.clients unitId = some conn then
                Function.update state.clients unitId none
              else state.clients }
      | _, _, _ => none
  | .cancel conn =>
      -- `CancelledError` is raised at the await; a held lock is released on the way out
      match (state.handlers conn).pc with
      | .absent | .finished => none
      | .finallyLock => some (state.goto conn .finished)
      | .closingPrev _ _ => some { state.enterFinally conn with lock := none }
      | _ => some (state.enterFinally conn)

def registryMachine (UnitId : Type) [DecidableEq UnitId] :
    Machine (State UnitId) (Label UnitId) where
  init := .start
  step := step

/-! ### What accuracy means -/

/-- The connection that wrote `_clients[unitId]` last. -/
def lastRegistrant (unitId : UnitId) : List (UnitId × Nat) → Option Nat
  | [] => none
  | entry :: older => if entry.1 = unitId then some entry.2 else lastRegistrant unitId older

/-- Another connection registered the unit after `conn` had. -/
def Superseded (unitId : UnitId) (conn : Nat) : List (UnitId × Nat) → Prop
  | [] => False
  | entry :: older =>
      (entry.1 = unitId ∧ entry.2 ≠ conn ∧ (unitId, conn) ∈ older) ∨
        Superseded unitId conn older

/-- No connection registers a unit again once it has been superseded for it. -/
def NoReturn : List (UnitId × Nat) → Prop
  | [] => True
  | entry :: older => ¬ Superseded entry.1 entry.2 older ∧ NoReturn older

structure Accurate (state : State UnitId) : Prop where
  finished_gone : ∀ unitId conn, (state.handlers conn).pc = .finished →
    state.clients unitId ≠ some conn
  keeps_others : ∀ conn next, step state (.cleanUp conn) = some next →
    ∀ unitId other, other ≠ conn → state.clients unitId = some other →
      next.clients unitId = some other
  last_registered : ∀ unitId conn, lastRegistrant unitId state.registered = some conn →
    (state.handlers conn).pc ≠ .finished → state.clients unitId = some conn
  no_return : NoReturn state.registered

end

end WallUnit.Server.Registry
