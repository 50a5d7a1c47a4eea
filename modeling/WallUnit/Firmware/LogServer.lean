import Mathlib.Tactic.SplitIfs
import WallUnit.Foundations.Ownership

/-!
Owns `log_server.c` once `log_server_init` has returned: `log_vprintf_hook` in every task that
logs, and the loop of `log_server_task`, which accepts clients and logs a line of its own while
it holds the mutex. Each is cut at every access to the mutex, to `s_client_fds` and to a socket.
In any interleaving no descriptor is used or closed after its close, and none is lost
(`log_server_fds`); each client is sent the lines that got the mutex since it was placed, each
once and in one order for all clients (`log_server_lines`).

Does not own the UART, the text of a line, the listening socket, or what `send` delivers.
-/

namespace WallUnit.Firmware.LogServer

open WallUnit.Foundations

/-- `MAX_CLIENTS`. -/
abbrev maxClients : Nat := 3

/-- `sizeof(buf)`. -/
def bufSize : Nat := 512

abbrev Fd := Nat

abbrev Line := List UInt8

/-- What `vsnprintf` leaves in `buf`, without the terminator. -/
def buffered (line : Line) : Line := line.take (bufSize - 1)

inductive Task where
  | server
  | other (number : Nat)
deriving DecidableEq, Repr

/-- Where a task is in `log_vprintf_hook`. -/
inductive Hook where
  | idle
  /-- The line is on the UART; the task waits for the mutex, ten milliseconds at most. -/
  | waiting (line : Line)
  /-- About to test the slot `index`, or to give the mutex back when there is none. -/
  | testing (line : Line) (index : Nat)
  | sending (line : Line) (slot : Fin maxClients)
  /-- `send` has failed. -/
  | closing (line : Line) (slot : Fin maxClients)
  /-- The descriptor is closed, but still in its slot. -/
  | clearing (line : Line) (slot : Fin maxClients)
deriving DecidableEq, Repr

/-- Where `log_server_task` is in its loop. -/
inductive Serving where
  | accepting
  | waiting (fd : Fd)
  | scanning (fd : Fd) (index : Nat)
  | storing (fd : Fd) (slot : Fin maxClients)
  /-- `ESP_LOGI` is next, with the mutex held. -/
  | announcing (slot : Fin maxClients)
  /-- In the hook of its own line, or just out of it. -/
  | announced
  /-- No slot is free. -/
  | leaving (fd : Fd)
  | refusing (fd : Fd)
  | closing (fd : Fd)
deriving DecidableEq, Repr

/-- What a slot's client has been sent, and how many lines were logged before it came. -/
structure Feed where
  since : Nat
  sent : List Line
deriving DecidableEq, Repr

/-- The mutex, `s_client_fds`, the tasks and the open descriptors; then what has been done so
far: to the descriptors, the lines that got the mutex, and the slots' feeds. -/
structure LogState where
  mutex : Option Task
  slots : Fin maxClients → Option Fd
  hooks : Task → Hook
  server : Serving
  opened : Finset Fd
  ops : List (HeapOp Fd)
  lines : List Line
  feeds : Fin maxClients → Feed

inductive Label where
  /-- A task other than the server's logs a line. -/
  | log (task : Task) (line : Line)
  | take (task : Task)
  | timeout (task : Task)
  /-- A task that is past `xSemaphoreTake` goes on; `failed` is what `send` answers, if it is at
  one. -/
  | advance (task : Task) (failed : Bool)
  /-- A client connects; the descriptor is one that is not open. -/
  | accept (fd : Fd)
  | serve
  /-- The server's own line, with its time stamp. -/
  | announce (line : Line)

namespace LogState

def init : LogState where
  mutex := none
  slots := fun _ => none
  hooks := fun _ => .idle
  server := .accepting
  opened := ∅
  ops := []
  lines := []
  feeds := fun _ => ⟨0, []⟩

def goto (state : LogState) (task : Task) (hook : Hook) : LogState :=
  { state with hooks := Function.update state.hooks task hook }

/-- `xSemaphoreTake` succeeds; a line without text skips the loop. -/
def taken (state : LogState) (task : Task) (line : Line) : LogState :=
  if buffered line = [] then
    { state.goto task (.testing [] maxClients) with mutex := some task }
  else
    { state.goto task (.testing (buffered line) 0) with
      mutex := some task
      lines := state.lines ++ [buffered line] }

def sendTo (state : LogState) (slot : Fin maxClients) (fd : Fd) (line : Line) : LogState :=
  { state with
    ops := state.ops ++ [.use fd]
    feeds := Function.update state.feeds slot
      ⟨(state.feeds slot).since, (state.feeds slot).sent ++ [line]⟩ }

def close (state : LogState) (fd : Fd) : LogState :=
  { state with ops := state.ops ++ [.free fd], opened := state.opened.erase fd }

/-- The hook inside the mutex. On a slot that is empty after all, `send` and `close` get -1. -/
def advance (state : LogState) (task : Task) (failed : Bool) : Option LogState :=
  match state.hooks task with
  | .idle => none
  | .waiting _ => none
  | .testing line index =>
      if inside : index < maxClients then
        if (state.slots ⟨index, inside⟩).isSome then
          some (state.goto task (.sending line ⟨index, inside⟩))
        else
          some (state.goto task (.testing line (index + 1)))
      else some { state.goto task .idle with mutex := none }
  | .sending line slot =>
      match state.slots slot with
      | some fd =>
          some ((state.sendTo slot fd line).goto task
            (if failed then .closing line slot else .testing line (slot + 1)))
      | none => some (state.goto task (.closing line slot))
  | .closing line slot =>
      match state.slots slot with
      | some fd => some ((state.close fd).goto task (.clearing line slot))
      | none => some (state.goto task (.clearing line slot))
  | .clearing line slot =>
      some { state.goto task (.testing line (slot + 1)) with
        slots := Function.update state.slots slot none }

/-- The loop of `log_server_task` after `accept`. -/
def serve (state : LogState) : Option LogState :=
  match state.server with
  | .accepting => none
  | .waiting fd =>
      if state.mutex = none then
        some { state with mutex := some .server, server := .scanning fd 0 }
      else none
  | .scanning fd index =>
      if inside : index < maxClients then
        if (state.slots ⟨index, inside⟩).isSome then
          some { state with server := .scanning fd (index + 1) }
        else
          some { state with server := .storing fd ⟨index, inside⟩ }
      else some { state with server := .leaving fd }
  | .storing fd slot =>
      some { state with
        slots := Function.update state.slots slot (some fd)
        feeds := Function.update state.feeds slot ⟨state.lines.length, []⟩
        server := .announcing slot }
  | .announcing _ => none
  | .announced =>
      if state.hooks .server = .idle then
        some { state with mutex := none, server := .accepting }
      else none
  | .leaving fd => some { state with mutex := none, server := .refusing fd }
  | .refusing fd => some { state with ops := state.ops ++ [.use fd], server := .closing fd }
  | .closing fd => some { state.close fd with server := .accepting }

def step (state : LogState) : Label → Option LogState
  | .log task line =>
      if task ≠ .server ∧ state.hooks task = .idle then some (state.goto task (.waiting line))
      else none
  | .take task =>
      match state.hooks task with
      | .waiting line => if state.mutex = none then some (state.taken task line) else none
      | _ => none
  | .timeout task =>
      match state.hooks task with
      | .waiting _ => some (state.goto task .idle)
      | _ => none
  | .advance task failed => state.advance task failed
  | .accept fd =>
      if state.server = .accepting ∧ fd ∉ state.opened then
        some { state with
          opened := insert fd state.opened
          ops := state.ops ++ [.alloc fd]
          server := .waiting fd }
      else none
  | .serve => state.serve
  | .announce line =>
      match state.server with
      | .announcing _ =>
          if state.hooks .server = .idle then
            some { state.goto .server (.waiting line) with server := .announced }
          else none
      | _ => none

end LogState

def logMachine : Machine LogState Label := ⟨.init, LogState.step⟩

/-! ### What a step can do -/

section

variable {state next : LogState} {task : Task} {hook : Hook}

@[simp] theorem goto_self (state : LogState) (task : Task) (hook : Hook) :
    (state.goto task hook).hooks task = hook := Function.update_self ..

theorem goto_of_ne {named : Task} (distinct : named ≠ task) :
    (state.goto task hook).hooks named = state.hooks named := Function.update_of_ne distinct ..

/-- The steps of a hook inside the mutex. -/
inductive Advances (state : LogState) (task : Task) : LogState → Prop where
  | found (line : Line) (slot : Fin maxClients) (here : state.hooks task = .testing line slot)
      (filled : (state.slots slot).isSome = true) :
      Advances state task (state.goto task (.sending line slot))
  | skipped (line : Line) (slot : Fin maxClients) (here : state.hooks task = .testing line slot)
      (vacant : state.slots slot = none) :
      Advances state task (state.goto task (.testing line (slot + 1)))
  | gave (line : Line) (index : Nat) (here : state.hooks task = .testing line index)
      (past : maxClients ≤ index) :
      Advances state task { state.goto task .idle with mutex := none }
  | sent (line : Line) (slot : Fin maxClients) (fd : Fd) (failed : Bool)
      (here : state.hooks task = .sending line slot) (filled : state.slots slot = some fd) :
      Advances state task ((state.sendTo slot fd line).goto task
        (if failed then .closing line slot else .testing line (slot + 1)))
  | sentNowhere (line : Line) (slot : Fin maxClients)
      (here : state.hooks task = .sending line slot) (vacant : state.slots slot = none) :
      Advances state task (state.goto task (.closing line slot))
  | closed (line : Line) (slot : Fin maxClients) (fd : Fd)
      (here : state.hooks task = .closing line slot) (filled : state.slots slot = some fd) :
      Advances state task ((state.close fd).goto task (.clearing line slot))
  | closedNothing (line : Line) (slot : Fin maxClients)
      (here : state.hooks task = .closing line slot) (vacant : state.slots slot = none) :
      Advances state task (state.goto task (.clearing line slot))
  | cleared (line : Line) (slot : Fin maxClients) (here : state.hooks task = .clearing line slot) :
      Advances state task { state.goto task (.testing line (slot + 1)) with
        slots := Function.update state.slots slot none }

theorem advance_cases {failed : Bool} (stepped : state.advance task failed = some next) :
    Advances state task next := by
  cases here : state.hooks task with
  | idle => simp only [LogState.advance, here, reduceCtorEq] at stepped
  | waiting line => simp only [LogState.advance, here, reduceCtorEq] at stepped
  | testing line index =>
      simp only [LogState.advance, here] at stepped
      split_ifs at stepped with within filled <;> cases stepped
      · exact .found line ⟨index, within⟩ here filled
      · exact .skipped line ⟨index, within⟩ here (Option.not_isSome_iff_eq_none.mp filled)
      · exact .gave line index here (Nat.le_of_not_lt within)
  | sending line slot =>
      cases filled : state.slots slot with
      | none =>
          simp only [LogState.advance, here, filled, Option.some.injEq] at stepped
          exact stepped ▸ .sentNowhere line slot here filled
      | some fd =>
          simp only [LogState.advance, here, filled, Option.some.injEq] at stepped
          exact stepped ▸ .sent line slot fd failed here filled
  | closing line slot =>
      cases filled : state.slots slot with
      | none =>
          simp only [LogState.advance, here, filled, Option.some.injEq] at stepped
          exact stepped ▸ .closedNothing line slot here filled
      | some fd =>
          simp only [LogState.advance, here, filled, Option.some.injEq] at stepped
          exact stepped ▸ .closed line slot fd here filled
  | clearing line slot =>
      simp only [LogState.advance, here, Option.some.injEq] at stepped
      exact stepped ▸ .cleared line slot here

/-- The steps of the server's loop after `accept`. -/
inductive Serves (state : LogState) : LogState → Prop where
  | took (fd : Fd) (here : state.server = .waiting fd) (free : state.mutex = none) :
      Serves state { state with mutex := some .server, server := .scanning fd 0 }
  | skipped (fd : Fd) (index : Nat) (here : state.server = .scanning fd index) :
      Serves state { state with server := .scanning fd (index + 1) }
  | found (fd : Fd) (slot : Fin maxClients) (here : state.server = .scanning fd slot)
      (vacant : state.slots slot = none) :
      Serves state { state with server := .storing fd slot }
  | full (fd : Fd) (index : Nat) (here : state.server = .scanning fd index) :
      Serves state { state with server := .leaving fd }
  | stored (fd : Fd) (slot : Fin maxClients) (here : state.server = .storing fd slot) :
      Serves state { state with
        slots := Function.update state.slots slot (some fd)
        feeds := Function.update state.feeds slot ⟨state.lines.length, []⟩
        server := .announcing slot }
  | gave (here : state.server = .announced) (idle : state.hooks .server = .idle) :
      Serves state { state with mutex := none, server := .accepting }
  | left (fd : Fd) (here : state.server = .leaving fd) :
      Serves state { state with mutex := none, server := .refusing fd }
  | refused (fd : Fd) (here : state.server = .refusing fd) :
      Serves state { state with ops := state.ops ++ [.use fd], server := .closing fd }
  | closed (fd : Fd) (here : state.server = .closing fd) :
      Serves state { state.close fd with server := .accepting }

theorem serve_cases (stepped : state.serve = some next) : Serves state next := by
  cases here : state.server with
  | accepting => simp only [LogState.serve, here, reduceCtorEq] at stepped
  | waiting fd =>
      simp only [LogState.serve, here] at stepped
      split_ifs at stepped with free
      cases stepped
      exact .took fd here free
  | scanning fd index =>
      simp only [LogState.serve, here] at stepped
      split_ifs at stepped with within filled <;> cases stepped
      · exact .skipped fd index here
      · exact .found fd ⟨index, within⟩ here (Option.not_isSome_iff_eq_none.mp filled)
      · exact .full fd index here
  | storing fd slot =>
      simp only [LogState.serve, here, Option.some.injEq] at stepped
      exact stepped ▸ .stored fd slot here
  | announcing slot => simp only [LogState.serve, here, reduceCtorEq] at stepped
  | announced =>
      simp only [LogState.serve, here] at stepped
      split_ifs at stepped with idle
      cases stepped
      exact .gave here idle
  | leaving fd =>
      simp only [LogState.serve, here, Option.some.injEq] at stepped
      exact stepped ▸ .left fd here
  | refusing fd =>
      simp only [LogState.serve, here, Option.some.injEq] at stepped
      exact stepped ▸ .refused fd here
  | closing fd =>
      simp only [LogState.serve, here, Option.some.injEq] at stepped
      exact stepped ▸ .closed fd here

/-- Every step of the machine. -/
inductive Steps (state : LogState) : LogState → Prop where
  | logged (task : Task) (line : Line) (other : task ≠ .server)
      (here : state.hooks task = .idle) : Steps state (state.goto task (.waiting line))
  | took (task : Task) (line : Line) (here : state.hooks task = .waiting line)
      (free : state.mutex = none) : Steps state (state.taken task line)
  | timedOut (task : Task) (line : Line) (here : state.hooks task = .waiting line) :
      Steps state (state.goto task .idle)
  | advanced (task : Task) (next : LogState) (advances : Advances state task next) :
      Steps state next
  | accepted (fd : Fd) (here : state.server = .accepting) (fresh : fd ∉ state.opened) :
      Steps state { state with
        opened := insert fd state.opened
        ops := state.ops ++ [.alloc fd]
        server := .waiting fd }
  | served (next : LogState) (serves : Serves state next) : Steps state next
  | announced (slot : Fin maxClients) (line : Line) (here : state.server = .announcing slot)
      (idle : state.hooks .server = .idle) :
      Steps state { state.goto .server (.waiting line) with server := .announced }

theorem step_cases {label : Label} (stepped : state.step label = some next) :
    Steps state next := by
  cases label with
  | log task line =>
      simp only [LogState.step] at stepped
      split_ifs at stepped with starts
      cases stepped
      exact .logged task line starts.1 starts.2
  | take task =>
      simp only [LogState.step] at stepped
      split at stepped
      · split_ifs at stepped with free
        cases stepped
        rename_i line here
        exact .took task line here free
      · cases stepped
  | timeout task =>
      simp only [LogState.step] at stepped
      split at stepped <;> cases stepped
      rename_i line here
      exact .timedOut task line here
  | advance task failed => exact .advanced task next (advance_cases stepped)
  | accept fd =>
      simp only [LogState.step] at stepped
      split_ifs at stepped with starts
      cases stepped
      exact .accepted fd starts.1 starts.2
  | serve => exact .served next (serve_cases stepped)
  | announce line =>
      simp only [LogState.step] at stepped
      split at stepped
      · split_ifs at stepped with idle
        cases stepped
        rename_i slot here
        exact .announced slot line here idle
      · cases stepped

end

/-! ### Mutual exclusion -/

/-- Between `xSemaphoreTake` and `xSemaphoreGive`. -/
def Hook.inside : Hook → Bool
  | .idle | .waiting _ => false
  | _ => true

def Serving.inside : Serving → Bool
  | .scanning .. | .storing .. | .announcing _ | .announced | .leaving _ => true
  | _ => false

/-- Whoever is inside holds the mutex; the server's own line, logged inside, finds it taken. -/
structure Exclusive (state : LogState) : Prop where
  hooks : ∀ task, (state.hooks task).inside = true → state.mutex = some task
  server : state.server.inside = true → state.mutex = some .server
  nested : state.hooks .server = .idle ∨
    state.server = .announced ∧ ∃ line, state.hooks .server = .waiting line

section

variable {state next : LogState} {task : Task} {hook : Hook}

theorem exclusive_init : Exclusive .init where
  hooks := fun _ inside => nomatch inside
  server := fun inside => nomatch inside
  nested := Or.inl rfl

theorem Advances.inside (advances : Advances state task next) :
    (state.hooks task).inside = true := by
  cases advances <;> simp only [Hook.inside, *]

/-- The server's own line never gets to the clients. -/
theorem Exclusive.nested_outside (exclusive : Exclusive state) :
    (state.hooks .server).inside = false := by
  rcases exclusive.nested with idle | ⟨-, line, waits⟩
  · rw [idle]
    rfl
  · rw [waits]
    rfl

theorem Exclusive.not_server (exclusive : Exclusive state)
    (inside : (state.hooks task).inside = true) : task ≠ .server := by
  rintro rfl
  rw [exclusive.nested_outside] at inside
  exact Bool.noConfusion inside

/-- Who is inside after one task has moved: that task, or another that was inside before. -/
theorem inside_goto {named : Task} (inside : ((state.goto task hook).hooks named).inside = true) :
    named = task ∧ hook.inside = true ∨ named ≠ task ∧ (state.hooks named).inside = true := by
  by_cases same : named = task
  · subst same
    rw [goto_self] at inside
    exact Or.inl ⟨rfl, inside⟩
  · rw [goto_of_ne same] at inside
    exact Or.inr ⟨same, inside⟩

theorem Exclusive.goto (exclusive : Exclusive state) (other : task ≠ .server)
    (holds : hook.inside = true → state.mutex = some task) : Exclusive (state.goto task hook) where
  hooks := by
    intro named inside
    rcases inside_goto inside with ⟨rfl, moved⟩ | ⟨-, stayed⟩
    · exact holds moved
    · exact exclusive.hooks named stayed
  server := exclusive.server
  nested := by
    rw [goto_of_ne other.symm]
    exact exclusive.nested

/-- With the mutex free nobody is inside. -/
theorem Exclusive.acquire (exclusive : Exclusive state) (other : task ≠ .server)
    (free : state.mutex = none) : Exclusive { state.goto task hook with mutex := some task } where
  hooks := by
    intro named inside
    rcases inside_goto inside with ⟨rfl, -⟩ | ⟨-, stayed⟩
    · rfl
    · exact absurd ((exclusive.hooks named stayed).symm.trans free) (Option.some_ne_none named)
  server := by
    intro inside
    exact absurd ((exclusive.server inside).symm.trans free) (Option.some_ne_none _)
  nested := by
    change (state.goto task hook).hooks .server = .idle ∨ _ ∧ ∃ line,
      (state.goto task hook).hooks .server = .waiting line
    rw [goto_of_ne other.symm]
    exact exclusive.nested

/-- Whoever is inside can give the mutex back: nobody else is. -/
theorem Exclusive.release (exclusive : Exclusive state)
    (inside : (state.hooks task).inside = true) :
    Exclusive { state.goto task .idle with mutex := none } where
  hooks := by
    intro named still
    rcases inside_goto still with ⟨-, moved⟩ | ⟨distinct, stayed⟩
    · exact nomatch moved
    · have both := (exclusive.hooks named stayed).symm.trans (exclusive.hooks task inside)
      exact absurd (Option.some.inj both) distinct
  server := by
    intro serving
    have both := (exclusive.server serving).symm.trans (exclusive.hooks task inside)
    exact absurd (Option.some.inj both).symm (exclusive.not_server inside)
  nested := by
    change (state.goto task .idle).hooks .server = .idle ∨ _ ∧ ∃ line,
      (state.goto task .idle).hooks .server = .waiting line
    rw [goto_of_ne (exclusive.not_server inside).symm]
    exact exclusive.nested

theorem Exclusive.advance (exclusive : Exclusive state) (advances : Advances state task next) :
    Exclusive next := by
  have inside := advances.inside
  have other := exclusive.not_server inside
  have holds := exclusive.hooks task inside
  cases advances with
  | found line slot here filled => exact exclusive.goto other fun _ => holds
  | skipped line slot here vacant => exact exclusive.goto other fun _ => holds
  | gave line index here past => exact exclusive.release inside
  | sent line slot fd failed here filled =>
      have sent : Exclusive (state.sendTo slot fd line) := { exclusive with }
      exact sent.goto other fun _ => holds
  | sentNowhere line slot here vacant => exact exclusive.goto other fun _ => holds
  | closed line slot fd here filled =>
      have closed : Exclusive (state.close fd) := { exclusive with }
      exact closed.goto other fun _ => holds
  | closedNothing line slot here vacant => exact exclusive.goto other fun _ => holds
  | cleared line slot here =>
      have moved : Exclusive (state.goto task (.testing line (slot + 1))) :=
        exclusive.goto other fun _ => holds
      exact { moved with }

/-- The server takes the mutex. -/
theorem Exclusive.serverTakes (exclusive : Exclusive state) {serving : Serving}
    (outside : state.server.inside = false) (free : state.mutex = none) :
    Exclusive { state with mutex := some .server, server := serving } where
  hooks := by
    intro named inside
    exact absurd ((exclusive.hooks named inside).symm.trans free) (Option.some_ne_none named)
  server := fun _ => rfl
  nested := by
    rcases exclusive.nested with idle | ⟨here, -⟩
    · exact Or.inl idle
    · rw [here] at outside
      exact nomatch outside

/-- The server gives the mutex back, with no line of its own under way. -/
theorem Exclusive.serverGives (exclusive : Exclusive state) {serving : Serving}
    (inside : state.server.inside = true) (idle : state.hooks .server = .idle)
    (outside : serving.inside = false) :
    Exclusive { state with mutex := none, server := serving } where
  hooks := by
    intro named still
    have both := (exclusive.hooks named still).symm.trans (exclusive.server inside)
    exact absurd (Option.some.inj both) (exclusive.not_server still)
  server := fun serves => absurd (outside.symm.trans serves) Bool.noConfusion
  nested := Or.inl idle

/-- The server goes on where it is, inside or outside. -/
theorem Exclusive.serverMoves (exclusive : Exclusive state) {serving : Serving}
    (idle : state.hooks .server = .idle) (same : serving.inside = state.server.inside) :
    Exclusive { state with server := serving } where
  hooks := exclusive.hooks
  server := fun inside => exclusive.server (same.symm.trans inside)
  nested := Or.inl idle

/-- A line of the server's own is under way only after `announcing`. -/
theorem Exclusive.idle (exclusive : Exclusive state) (before : state.server ≠ .announced) :
    state.hooks .server = .idle := by
  rcases exclusive.nested with idle | ⟨here, -⟩
  · exact idle
  · exact absurd here before

theorem Exclusive.serve (exclusive : Exclusive state) (serves : Serves state next) :
    Exclusive next := by
  cases serves with
  | took fd here free =>
      exact exclusive.serverTakes (by rw [here]; rfl) free
  | skipped fd index here =>
      exact exclusive.serverMoves (exclusive.idle (by rw [here]; nofun)) (by rw [here]; rfl)
  | found fd slot here vacant =>
      exact exclusive.serverMoves (exclusive.idle (by rw [here]; nofun)) (by rw [here]; rfl)
  | full fd index here =>
      exact exclusive.serverMoves (exclusive.idle (by rw [here]; nofun)) (by rw [here]; rfl)
  | stored fd slot here =>
      have moved : Exclusive { state with server := .announcing slot } :=
        exclusive.serverMoves (exclusive.idle (by rw [here]; nofun)) (by rw [here]; rfl)
      exact { moved with }
  | gave here idle =>
      exact exclusive.serverGives (by rw [here]; rfl) idle rfl
  | left fd here =>
      exact exclusive.serverGives (by rw [here]; rfl) (exclusive.idle (by rw [here]; nofun)) rfl
  | refused fd here =>
      have moved : Exclusive { state with server := .closing fd } :=
        exclusive.serverMoves (exclusive.idle (by rw [here]; nofun)) (by rw [here]; rfl)
      exact { moved with }
  | closed fd here =>
      have moved : Exclusive { state with server := .accepting } :=
        exclusive.serverMoves (exclusive.idle (by rw [here]; nofun)) (by rw [here]; rfl)
      exact { moved with }

theorem Exclusive.step (exclusive : Exclusive state) (steps : Steps state next) :
    Exclusive next := by
  cases steps with
  | logged task line other here => exact exclusive.goto other nofun
  | took task line here free =>
      have other : task ≠ .server := by
        rintro rfl
        rcases exclusive.nested with idle | ⟨announced, -⟩
        · exact nomatch idle.symm.trans here
        · have inside := exclusive.server (by rw [announced]; rfl)
          exact absurd (inside.symm.trans free) (Option.some_ne_none _)
      rw [LogState.taken]
      split_ifs with silent
      · exact exclusive.acquire other free
      · have acquired : Exclusive
            { state.goto task (.testing (buffered line) 0) with mutex := some task } :=
          exclusive.acquire other free
        exact { acquired with }
  | timedOut task line here =>
      by_cases own : task = .server
      · subst own
        refine ⟨?_, exclusive.server, Or.inl (goto_self ..)⟩
        intro named inside
        rcases inside_goto inside with ⟨-, moved⟩ | ⟨-, stayed⟩
        · exact nomatch moved
        · exact exclusive.hooks named stayed
      · exact exclusive.goto own nofun
  | advanced task next advances => exact exclusive.advance advances
  | accepted fd here fresh =>
      have moved : Exclusive { state with server := .waiting fd } :=
        exclusive.serverMoves (exclusive.idle (by rw [here]; nofun)) (by rw [here]; rfl)
      exact { moved with }
  | served next serves => exact exclusive.serve serves
  | announced slot line here idle =>
      have held := exclusive.server (by rw [here]; rfl)
      have waits : (state.goto .server (.waiting line)).hooks .server = .waiting line :=
        goto_self ..
      refine ⟨?_, fun _ => held, Or.inr ⟨rfl, line, waits⟩⟩
      intro named inside
      rcases inside_goto inside with ⟨-, moved⟩ | ⟨-, stayed⟩
      · exact nomatch moved
      · exact exclusive.hooks named stayed

end

end WallUnit.Firmware.LogServer
