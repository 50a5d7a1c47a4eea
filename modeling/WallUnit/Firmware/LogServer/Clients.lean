import Mathlib
import WallUnit.Firmware.LogServer

/-!
Owns what the mutex of `log_server.c` protects: who owns each open descriptor, a slot or the
server's hand, and what each client has been sent. Both are invariants of the machine; the
descriptors' one speaks about the discipline of `Foundations.Ownership`, with `accept`, `send`
and `close` in the parts of allocation, use and free.

Does not own mutual exclusion, on which both rest.
-/

namespace WallUnit.Firmware.LogServer

open WallUnit.Foundations

/-! ### The hook that holds the mutex -/

/-- The hook inside the mutex, or `idle` where there is none. -/
def LogState.current (state : LogState) : Hook :=
  match state.mutex with
  | some task => if (state.hooks task).inside then state.hooks task else .idle
  | none => .idle

/-- The slot is about to lose a descriptor that is closed already. -/
def Hook.clears (slot : Fin maxClients) : Hook → Bool
  | .clearing _ named => named = slot
  | _ => false

/-- The slot is about to be read again. -/
def Hook.reads (slot : Fin maxClients) : Hook → Bool
  | .sending _ named | .closing _ named => named = slot
  | _ => false

theorem Hook.reads_cases {hook : Hook} {slot : Fin maxClients} (reads : hook.reads slot = true) :
    hook.inside = true ∧ hook.clears slot = false := by
  cases hook with
  | idle | waiting | testing | clearing => cases reads
  | sending | closing => exact ⟨rfl, rfl⟩

/-- The line that the slot's client has yet to be sent. -/
def Hook.due (slot : Fin maxClients) : Hook → List Line
  | .idle | .waiting _ => []
  | .testing line index => if index ≤ slot then [line] else []
  | .sending line named => if named ≤ slot then [line] else []
  | .closing line named | .clearing line named => if named < slot then [line] else []

section

variable {state next : LogState} {task : Task} {hook : Hook}

theorem Exclusive.current (exclusive : Exclusive state)
    (inside : (state.hooks task).inside = true) : state.current = state.hooks task := by
  rw [LogState.current, exclusive.hooks task inside]
  exact if_pos inside

theorem current_goto (holds : state.mutex = some task) (inside : hook.inside = true) :
    (state.goto task hook).current = hook := by
  have same : (state.goto task hook).mutex = some task := holds
  rw [LogState.current, same]
  simp only [goto_self, inside, ↓reduceIte]

/-- A task that is outside and stays outside. -/
theorem current_goto_outside (before : (state.hooks task).inside = false)
    (after : hook.inside = false) : (state.goto task hook).current = state.current := by
  have same : (state.goto task hook).mutex = state.mutex := rfl
  rw [LogState.current, LogState.current, same]
  cases state.mutex with
  | none => rfl
  | some named =>
      by_cases own : named = task
      · subst own
        simp only [goto_self, before, after, Bool.false_eq_true, ↓reduceIte]
      · simp only [goto_of_ne own]

theorem current_free (free : state.mutex = none) : state.current = .idle := by
  rw [LogState.current, free]

/-- Nobody but the server is inside. -/
theorem Exclusive.current_serving (exclusive : Exclusive state)
    (serves : state.server.inside = true) : state.current = .idle := by
  rw [LogState.current, exclusive.server serves]
  exact if_neg (by rw [exclusive.nested_outside]; exact Bool.noConfusion)

end

/-! ### Descriptors -/

inductive Place where
  | slot (index : Fin maxClients)
  | hand
deriving DecidableEq, Fintype

/-- `client_fd`, while the server has not placed or closed it. -/
def Serving.hand : Serving → Option Fd
  | .waiting fd | .scanning fd _ | .storing fd _ | .leaving fd | .refusing fd | .closing fd =>
      some fd
  | _ => none

def owner (slots : Fin maxClients → Option Fd) (current : Hook) (server : Serving) :
    Place → Option Fd
  | .slot index => if current.clears index then none else slots index
  | .hand => server.hand

structure Owning (slots : Fin maxClients → Option Fd) (current : Hook) (server : Serving)
    (opened : Finset Fd) (ops : List (HeapOp Fd)) : Prop where
  history : Takes ∅ ops opened
  owned : Owned (owner slots current server) opened
  filled : ∀ slot, current.reads slot = true → (slots slot).isSome = true
  vacant : ∀ fd slot, server = .storing fd slot → slots slot = none

section

variable {slots : Fin maxClients → Option Fd} {current later : Hook} {server serving : Serving}
  {opened : Finset Fd} {ops : List (HeapOp Fd)} {slot : Fin maxClients} {fd : Fd}

theorem owning_init : Owning (fun _ => none) .idle .accepting ∅ [] where
  history := Takes.nil ∅
  owned := by
    have nothing : owner (fun _ => none) .idle .accepting = fun _ => none := by
      funext place
      cases place <;> rfl
    exact nothing ▸ Owned.empty
  filled := nofun
  vacant := nofun

/-- The slot the hook is at has a client. -/
theorem Owning.not_vacant (owning : Owning slots current server opened ops)
    (reads : current.reads slot = true) : slots slot ≠ none :=
  Option.isSome_iff_ne_none.mp (owning.filled slot reads)

/-- The hook goes on without closing or clearing. -/
theorem Owning.moves (owning : Owning slots current server opened ops)
    (same : ∀ slot, later.clears slot = current.clears slot)
    (filled : ∀ slot, later.reads slot = true → (slots slot).isSome = true) :
    Owning slots later server opened ops where
  history := owning.history
  owned := by
    have unchanged : owner slots later server = owner slots current server := by
      funext place
      cases place with
      | slot index => simp only [owner, same]
      | hand => rfl
    exact unchanged ▸ owning.owned
  filled := filled
  vacant := owning.vacant

/-- The hook goes on to where it reads no slot. -/
theorem Owning.passes (owning : Owning slots current server opened ops)
    (same : ∀ slot, later.clears slot = current.clears slot)
    (quiet : ∀ slot, later.reads slot = false) : Owning slots later server opened ops := by
  apply owning.moves same
  intro slot reads
  exact absurd ((quiet slot).symm.trans reads) Bool.false_ne_true

/-- The server goes on with the same descriptor in its hand. -/
theorem Owning.serves (owning : Owning slots current server opened ops)
    (same : serving.hand = server.hand)
    (vacant : ∀ fd slot, serving = .storing fd slot → slots slot = none) :
    Owning slots current serving opened ops where
  history := owning.history
  owned := by
    have unchanged : owner slots current serving = owner slots current server := by
      funext place
      cases place with
      | slot index => rfl
      | hand => exact same
    exact unchanged ▸ owning.owned
  filled := owning.filled
  vacant := vacant

theorem Owning.uses (owning : Owning slots current server opened ops) {place : Place}
    (owns : owner slots current server place = some fd) :
    Owning slots current server opened (ops ++ [.use fd]) where
  history := owning.history.snoc (if_pos (owning.owned.mem owns))
  owned := owning.owned
  filled := owning.filled
  vacant := owning.vacant

theorem Owning.accepts (owning : Owning slots current .accepting opened ops)
    (fresh : fd ∉ opened) :
    Owning slots current (.waiting fd) (insert fd opened) (ops ++ [.alloc fd]) where
  history := owning.history.snoc (if_neg fresh)
  owned := by
    have put : owner slots current (.waiting fd) =
        Function.update (owner slots current .accepting) .hand (some fd) := by
      funext place
      cases place <;> rfl
    exact put ▸ owning.owned.put rfl fresh
  filled := owning.filled
  vacant := nofun

/-- The server closes what it could not place. -/
theorem Owning.discards (owning : Owning slots current (.closing fd) opened ops) :
    Owning slots current .accepting (opened.erase fd) (ops ++ [.free fd]) where
  history := by
    have owns : owner slots current (.closing fd) .hand = some fd := rfl
    exact owning.history.snoc (if_pos (owning.owned.mem owns))
  owned := by
    have dropped : owner slots current .accepting =
        Function.update (owner slots current (.closing fd)) .hand none := by
      funext place
      cases place <;> rfl
    exact dropped ▸ owning.owned.drop rfl
  filled := owning.filled
  vacant := nofun

/-- The server puts what it has in its hand into the slot it has found empty. -/
theorem Owning.stores (owning : Owning slots .idle (.storing fd slot) opened ops) :
    Owning (Function.update slots slot (some fd)) .idle (.announcing slot) opened ops where
  history := owning.history
  owned := by
    have moved : owner (Function.update slots slot (some fd)) .idle (.announcing slot) =
        Function.update (Function.update (owner slots .idle (.storing fd slot)) .hand none)
          (.slot slot) (some fd) := by
      funext place
      cases place with
      | slot index =>
          by_cases same : index = slot
          · subst same
            rw [Function.update_self]
            exact Function.update_self ..
          · have apart : Place.slot index ≠ .hand := nofun
            have distinct : Place.slot index ≠ .slot slot := by simpa using same
            rw [Function.update_of_ne distinct, Function.update_of_ne apart]
            exact Function.update_of_ne same ..
      | hand => rfl
    exact moved ▸ owning.owned.move rfl (owning.vacant fd slot rfl)
  filled := nofun
  vacant := nofun

/-- The hook closes the descriptor of the slot it is at. -/
theorem Owning.closes {line : Line} (owning : Owning slots (.closing line slot) server opened ops)
    (filled : slots slot = some fd) :
    Owning slots (.clearing line slot) server (opened.erase fd) (ops ++ [.free fd]) where
  history := by
    have owns : owner slots (.closing line slot) server (.slot slot) = some fd := filled
    exact owning.history.snoc (if_pos (owning.owned.mem owns))
  owned := by
    have dropped : owner slots (.clearing line slot) server =
        Function.update (owner slots (.closing line slot) server) (.slot slot) none := by
      funext place
      cases place with
      | slot index =>
          by_cases same : index = slot
          · subst same
            rw [Function.update_self]
            exact if_pos (decide_eq_true rfl)
          · rw [Function.update_of_ne (by simpa using same)]
            exact if_neg (by simpa [Hook.clears] using Ne.symm same)
      | hand => rfl
    have owns : owner slots (.closing line slot) server (.slot slot) = some fd := filled
    exact dropped ▸ owning.owned.drop owns
  filled := nofun
  vacant := owning.vacant

/-- The hook clears the slot of the closed descriptor. -/
theorem Owning.clears {line : Line} {index : Nat}
    (owning : Owning slots (.clearing line slot) server opened ops) :
    Owning (Function.update slots slot none) (.testing line index) server opened ops where
  history := owning.history
  owned := by
    have unchanged : owner (Function.update slots slot none) (.testing line index) server =
        owner slots (.clearing line slot) server := by
      funext place
      cases place with
      | slot index =>
          by_cases same : index = slot
          · subst same
            simp [owner, Hook.clears]
          · have other : slot ≠ index := Ne.symm same
            simp [owner, Hook.clears, Function.update_of_ne same, other]
      | hand => rfl
    exact unchanged ▸ owning.owned
  filled := nofun
  vacant := by
    intro fd named storing
    by_cases same : named = slot
    · rw [same, Function.update_self]
    · rw [Function.update_of_ne same]
      exact owning.vacant fd named storing

end

/-! ### Lines -/

/-- With the line that is due, a client's feed is what was logged since the client came. -/
structure Fed (slots : Fin maxClients → Option Fd) (current : Hook) (lines : List Line)
    (feeds : Fin maxClients → Feed) : Prop where
  early : ∀ slot, (slots slot).isSome = true → (feeds slot).since ≤ lines.length
  sent : ∀ slot, (slots slot).isSome = true →
    (feeds slot).sent ++ current.due slot = lines.drop (feeds slot).since

section

variable {slots : Fin maxClients → Option Fd} {current later : Hook} {lines : List Line}
  {feeds : Fin maxClients → Feed} {line : Line} {slot : Fin maxClients}

theorem fed_init (feeds : Fin maxClients → Feed) : Fed (fun _ => none) .idle [] feeds where
  early := nofun
  sent := nofun

theorem Fed.moves (fed : Fed slots current lines feeds)
    (same : ∀ slot, (slots slot).isSome = true → later.due slot = current.due slot) :
    Fed slots later lines feeds where
  early := fed.early
  sent := by
    intro slot filled
    rw [same slot filled]
    exact fed.sent slot filled

/-- A hook has taken the mutex with a line. -/
theorem Fed.logs (fed : Fed slots .idle lines feeds) (line : Line) :
    Fed slots (.testing line 0) (lines ++ [line]) feeds where
  early := by
    intro slot filled
    rw [List.length_append]
    exact Nat.le_add_right_of_le (fed.early slot filled)
  sent := by
    intro slot filled
    have before := fed.sent slot filled
    rw [Hook.due, List.append_nil] at before
    rw [List.drop_append_of_le_length (fed.early slot filled), ← before]
    rfl

/-- The hook has sent its line to a slot's client, with or without success. -/
theorem Fed.sends (fed : Fed slots (.sending line slot) lines feeds)
    (done : later.due slot = [])
    (same : ∀ other, other ≠ slot → later.due other = (Hook.sending line slot).due other) :
    Fed slots later lines
      (Function.update feeds slot ⟨(feeds slot).since, (feeds slot).sent ++ [line]⟩) where
  early := by
    intro other filled
    by_cases here : other = slot
    · subst here
      rw [Function.update_self]
      exact fed.early other filled
    · rw [Function.update_of_ne here]
      exact fed.early other filled
  sent := by
    intro other filled
    by_cases here : other = slot
    · subst here
      rw [Function.update_self, done, List.append_nil]
      have before := fed.sent other filled
      rwa [Hook.due, if_pos (le_refl other)] at before
    · rw [Function.update_of_ne here, same other here]
      exact fed.sent other filled

theorem Fed.clears (fed : Fed slots (.clearing line slot) lines feeds) :
    Fed (Function.update slots slot none) (.testing line (slot + 1)) lines feeds := by
  have elsewhere : ∀ other, (Function.update slots slot none other).isSome = true →
      other ≠ slot ∧ (slots other).isSome = true := by
    intro other filled
    by_cases here : other = slot
    · rw [here, Function.update_self] at filled
      exact nomatch filled
    · rw [Function.update_of_ne here] at filled
      exact ⟨here, filled⟩
  refine ⟨fun other filled => fed.early other (elsewhere other filled).2, ?_⟩
  intro other filled
  exact fed.sent other (elsewhere other filled).2

/-- A new client starts with the next line. -/
theorem Fed.stores (fed : Fed slots .idle lines feeds) (fd : Fd) :
    Fed (Function.update slots slot (some fd)) .idle lines
      (Function.update feeds slot ⟨lines.length, []⟩) where
  early := by
    intro other filled
    by_cases here : other = slot
    · rw [here, Function.update_self]
    · rw [Function.update_of_ne here] at filled ⊢
      exact fed.early other filled
  sent := by
    intro other filled
    by_cases here : other = slot
    · rw [here, Function.update_self, List.drop_length]
      rfl
    · rw [Function.update_of_ne here] at filled ⊢
      exact fed.sent other filled

end

/-! ### What the steps keep -/

/-- The invariant of the log server. -/
structure Serviced (state : LogState) : Prop where
  exclusive : Exclusive state
  owning : Owning state.slots state.current state.server state.opened state.ops
  fed : Fed state.slots state.current state.lines state.feeds

section

variable {state next : LogState} {task : Task} {hook : Hook}

theorem serviced_init : Serviced .init := ⟨exclusive_init, owning_init, fed_init _⟩

/-- A task outside the mutex stays outside. -/
theorem Serviced.outside (serviced : Serviced state) (kept : Exclusive (state.goto task hook))
    (before : (state.hooks task).inside = false) (after : hook.inside = false) :
    Serviced (state.goto task hook) := by
  have same : (state.goto task hook).current = state.current := current_goto_outside before after
  refine ⟨kept, ?_, ?_⟩
  · rw [same]
    exact serviced.owning
  · rw [same]
    exact serviced.fed

theorem Serviced.advance (serviced : Serviced state) (advances : Advances state task next) :
    Serviced next := by
  have kept := serviced.exclusive.advance advances
  have holds := serviced.exclusive.hooks task advances.inside
  have current := serviced.exclusive.current advances.inside
  have owning := serviced.owning
  have fed := serviced.fed
  cases advances with
  | found line slot here filled =>
      rw [current, here] at owning fed
      have later : (state.goto task (.sending line slot)).current = .sending line slot :=
        current_goto holds rfl
      refine ⟨kept, ?_, ?_⟩
      · rw [later]
        refine owning.moves (fun _ => rfl) ?_
        intro named reads
        rwa [← of_decide_eq_true reads]
      · rw [later]
        exact fed.moves fun _ _ => rfl
  | skipped line slot here vacant =>
      rw [current, here] at owning fed
      have later : (state.goto task (.testing line (slot + 1))).current =
          .testing line (slot + 1) := current_goto holds rfl
      refine ⟨kept, ?_, ?_⟩
      · rw [later]
        exact owning.passes (fun _ => rfl) fun _ => rfl
      · rw [later]
        apply fed.moves
        intro named filled
        have distinct : (named : Nat) ≠ slot := by
          intro same
          rw [Fin.ext same, vacant] at filled
          exact nomatch filled
        have order : (slot : Nat) + 1 ≤ named ↔ (slot : Nat) ≤ named := by omega
        simp only [Hook.due, order]
  | gave line index here past =>
      rw [current, here] at owning fed
      refine ⟨kept, owning.passes (fun _ => rfl) (fun _ => rfl), fed.moves ?_⟩
      intro named filled
      have beyond : ¬ index ≤ (named : Nat) := by omega
      exact (if_neg beyond).symm
  | sent line slot fd failed here filled =>
      rw [current, here] at owning fed
      have owns : owner state.slots (.sending line slot) state.server (.slot slot) = some fd :=
        filled
      have used := owning.uses owns
      cases failed with
      | true =>
          have later : ((state.sendTo slot fd line).goto task (.closing line slot)).current =
              .closing line slot := current_goto holds rfl
          refine ⟨kept, ?_, ?_⟩
          · simp only [↓reduceIte, later]
            refine used.moves (fun _ => rfl) ?_
            intro named reads
            exact used.filled named reads
          · simp only [↓reduceIte, later]
            apply fed.sends
            · exact if_neg (lt_irrefl slot)
            · intro other distinct
              have order : slot < other ↔ slot ≤ other :=
                ⟨le_of_lt, fun below => lt_of_le_of_ne below (Ne.symm distinct)⟩
              simp only [Hook.due, order]
      | false =>
          have later : ((state.sendTo slot fd line).goto task (.testing line (slot + 1))).current =
              .testing line (slot + 1) := current_goto holds rfl
          refine ⟨kept, ?_, ?_⟩
          · simp only [Bool.false_eq_true, ↓reduceIte, later]
            exact used.passes (fun _ => rfl) fun _ => rfl
          · simp only [Bool.false_eq_true, ↓reduceIte, later]
            apply fed.sends
            · exact if_neg (Nat.not_succ_le_self slot)
            · intro other distinct
              have apart : (other : Nat) ≠ slot := fun same => distinct (Fin.ext same)
              have order : (slot : Nat) + 1 ≤ other ↔ slot ≤ other := by
                rw [Fin.le_def]
                omega
              simp only [Hook.due, order]
  | sentNowhere line slot here vacant =>
      rw [current, here] at owning
      exact absurd vacant (owning.not_vacant (decide_eq_true rfl))
  | closed line slot fd here filled =>
      rw [current, here] at owning fed
      have later : ((state.close fd).goto task (.clearing line slot)).current =
          .clearing line slot := current_goto holds rfl
      refine ⟨kept, ?_, ?_⟩
      · rw [later]
        exact owning.closes filled
      · rw [later]
        exact fed.moves fun _ _ => rfl
  | closedNothing line slot here vacant =>
      rw [current, here] at owning
      exact absurd vacant (owning.not_vacant (decide_eq_true rfl))
  | cleared line slot here =>
      rw [current, here] at owning fed
      have later : ({ state.goto task (.testing line (slot + 1)) with
          slots := Function.update state.slots slot none } : LogState).current =
          .testing line (slot + 1) := current_goto holds rfl
      refine ⟨kept, ?_, ?_⟩
      · rw [later]
        exact owning.clears
      · rw [later]
        exact fed.clears

theorem Serviced.serve (serviced : Serviced state) (serves : Serves state next) :
    Serviced next := by
  have kept := serviced.exclusive.serve serves
  have owning := serviced.owning
  have fed := serviced.fed
  cases serves with
  | took fd here free =>
      rw [current_free free] at owning fed
      rw [here] at owning
      have later := kept.current_serving rfl
      refine ⟨kept, ?_, ?_⟩
      · rw [later]
        exact owning.serves rfl nofun
      · rw [later]
        exact fed
  | skipped fd index here =>
      rw [here] at owning
      exact ⟨kept, owning.serves rfl nofun, fed⟩
  | found fd slot here vacant =>
      rw [here] at owning
      refine ⟨kept, owning.serves rfl ?_, fed⟩
      intro other named same
      cases same
      exact vacant
  | full fd index here =>
      rw [here] at owning
      exact ⟨kept, owning.serves rfl nofun, fed⟩
  | stored fd slot here =>
      have idle := serviced.exclusive.current_serving (by rw [here]; rfl)
      rw [idle] at owning fed
      rw [here] at owning
      have later := kept.current_serving rfl
      refine ⟨kept, ?_, ?_⟩
      · rw [later]
        exact owning.stores
      · rw [later]
        exact fed.stores fd
  | gave here idle =>
      rw [serviced.exclusive.current_serving (by rw [here]; rfl)] at owning fed
      rw [here] at owning
      exact ⟨kept, owning.serves rfl nofun, fed⟩
  | left fd here =>
      rw [serviced.exclusive.current_serving (by rw [here]; rfl)] at owning fed
      rw [here] at owning
      exact ⟨kept, owning.serves rfl nofun, fed⟩
  | refused fd here =>
      rw [here] at owning
      have owns : owner state.slots state.current (.refusing fd) .hand = some fd := rfl
      exact ⟨kept, (owning.uses owns).serves rfl nofun, fed⟩
  | closed fd here =>
      rw [here] at owning
      exact ⟨kept, owning.discards, fed⟩

theorem Serviced.step (serviced : Serviced state) (steps : Steps state next) : Serviced next := by
  have kept := serviced.exclusive.step steps
  have owning := serviced.owning
  have fed := serviced.fed
  cases steps with
  | logged task line other here => exact serviced.outside kept (by rw [here]; rfl) rfl
  | took task line here free =>
      rw [current_free free] at owning fed
      rw [LogState.taken] at kept ⊢
      split_ifs at kept ⊢ with silent
      · have later : ({ state.goto task (.testing [] maxClients) with
            mutex := some task } : LogState).current = .testing [] maxClients := by
          simp only [LogState.current, goto_self, Hook.inside, ↓reduceIte]
        refine ⟨kept, ?_, ?_⟩
        · rw [later]
          exact owning.passes (fun _ => rfl) fun _ => rfl
        · rw [later]
          apply fed.moves
          intro slot filled
          exact if_neg (Nat.not_le_of_lt slot.isLt)
      · have later : ({ state.goto task (.testing (buffered line) 0) with
            mutex := some task
            lines := state.lines ++ [buffered line] } : LogState).current =
            .testing (buffered line) 0 := by
          simp only [LogState.current, goto_self, Hook.inside, ↓reduceIte]
        refine ⟨kept, ?_, ?_⟩
        · rw [later]
          exact owning.passes (fun _ => rfl) fun _ => rfl
        · rw [later]
          exact fed.logs (buffered line)
  | timedOut task line here => exact serviced.outside kept (by rw [here]; rfl) rfl
  | advanced task next advances => exact serviced.advance advances
  | accepted fd here fresh =>
      rw [here] at owning
      exact ⟨kept, owning.accepts fresh, fed⟩
  | served next serves => exact serviced.serve serves
  | announced slot line here idle =>
      rw [serviced.exclusive.current_serving (by rw [here]; rfl)] at owning fed
      rw [here] at owning
      have later := kept.current_serving rfl
      refine ⟨kept, ?_, ?_⟩
      · rw [later]
        exact owning.serves rfl fun _ _ stores => Serving.noConfusion stores
      · rw [later]
        exact fed

/-- Every reachable state. -/
theorem serviced_of_run {labels : List Label} {final : LogState}
    (ran : logMachine.run labels = some final) : Serviced final :=
  Machine.invariant serviced_init
    (fun _ _ _ serviced stepped => serviced.step (step_cases stepped)) ran

end

/-! ### Every interleaving -/

/-- A task that is about to send to a slot's client, or to close it, finds a descriptor there, and
it is open. -/
theorem Serviced.reads_open {state : LogState} {task : Task} {slot : Fin maxClients}
    (serviced : Serviced state) (reads : (state.hooks task).reads slot = true) :
    ∃ fd ∈ state.opened, state.slots slot = some fd := by
  obtain ⟨inside, kept⟩ := Hook.reads_cases reads
  have current := serviced.exclusive.current inside
  rw [← current] at reads kept
  obtain ⟨fd, filled⟩ := Option.isSome_iff_exists.mp (serviced.owning.filled slot reads)
  have owns : owner state.slots state.current state.server (.slot slot) = some fd := by
    rw [owner, kept, if_neg Bool.false_ne_true, filled]
  exact ⟨fd, serviced.owning.owned.mem owns, filled⟩

/-- Whatever the tasks log and however they interleave with the server and its clients: every
`send` and `close` is on a descriptor that is open, and a task that is about to do either finds
one in its slot; the open ones are those in the slots and the one in the server's hand, each in
one place only, four at most; and no two tasks are inside the mutex. -/
theorem log_server_fds {labels : List Label} {final : LogState}
    (ran : logMachine.run labels = some final) :
    Takes ∅ final.ops final.opened ∧
      (∀ task slot, (final.hooks task).reads slot = true →
        ∃ fd ∈ final.opened, final.slots slot = some fd) ∧
      Owned (owner final.slots final.current final.server) final.opened ∧
      final.opened.card ≤ maxClients + 1 ∧
      (∀ one other, (final.hooks one).inside = true → (final.hooks other).inside = true →
        one = other) ∧
      ∀ task, (final.hooks task).inside = true → final.server.inside = false := by
  have serviced := serviced_of_run ran
  have owned := serviced.owning.owned
  refine ⟨serviced.owning.history, fun task slot => serviced.reads_open, owned, ?_, ?_, ?_⟩
  · calc final.opened.card ≤ Fintype.card Place := owned.card_le
      _ = maxClients + 1 := by decide
  · intro one other first second
    have both := (serviced.exclusive.hooks one first).symm.trans
      (serviced.exclusive.hooks other second)
    exact Option.some.inj both
  · intro task inside
    rw [Bool.eq_false_iff]
    intro serves
    have both := (serviced.exclusive.hooks task inside).symm.trans
      (serviced.exclusive.server serves)
    exact serviced.exclusive.not_server inside (Option.some.inj both)

/-- A client connects and is placed in `slot`, past `used` slots that are not empty. -/
def connects (fd : Fd) (used : Nat) : List Label :=
  [.accept fd, .serve] ++ List.replicate used .serve ++
    [.serve, .serve, .announce [73], .timeout .server, .serve]

/-- Two clients; the first is lost while a line is sent, and its descriptor is handed out again
before its slot is cleared; a second line goes to the new client and to the one that stayed. -/
def replacedRun : List Label :=
  connects 5 0 ++ connects 6 1 ++
    [.log (.other 0) [72], .log (.other 1) [89], .take (.other 0), .advance (.other 0) false,
      .advance (.other 0) true, .advance (.other 0) false, .accept 5] ++
    List.replicate 5 (.advance (.other 0) false) ++ [.serve, .serve, .serve, .announce [73],
      .timeout .server, .serve, .take (.other 1)] ++ List.replicate 6 (.advance (.other 1) false)

theorem log_server_fds_replaced :
    ∃ final, logMachine.run replacedRun = some final ∧
      final.ops = [.alloc 5, .alloc 6, .use 5, .free 5, .alloc 5, .use 6, .use 5, .use 6] ∧
      Takes ∅ final.ops final.opened ∧ final.opened.card ≤ maxClients + 1 := by
  have ends : (logMachine.run replacedRun).map LogState.ops =
      some [.alloc 5, .alloc 6, .use 5, .free 5, .alloc 5, .use 6, .use 5, .use 6] := by
    decide +kernel
  obtain ⟨final, ran, ops⟩ := Option.map_eq_some_iff.mp ends
  have ⟨history, _, _, bound, _⟩ := log_server_fds ran
  exact ⟨final, ran, ops, history, bound⟩

/-- A client in a slot has been sent, or is about to be, exactly the lines that got the mutex
since it came, each once and in the order in which they got it; with the mutex free it has been
sent them all. The server's own line is never among them. -/
theorem log_server_lines {labels : List Label} {final : LogState}
    (ran : logMachine.run labels = some final) :
    (∀ slot, (final.slots slot).isSome = true →
      (final.feeds slot).sent ++ final.current.due slot =
        final.lines.drop (final.feeds slot).since ∧
      (final.mutex = none →
        (final.feeds slot).sent = final.lines.drop (final.feeds slot).since)) ∧
      (final.hooks .server).inside = false := by
  have serviced := serviced_of_run ran
  refine ⟨fun slot filled => ?_, serviced.exclusive.nested_outside⟩
  have sent := serviced.fed.sent slot filled
  refine ⟨sent, fun free => ?_⟩
  rwa [current_free free, Hook.due, List.append_nil] at sent

theorem log_server_lines_replaced :
    ∃ final, logMachine.run replacedRun = some final ∧ final.lines = [[72], [89]] ∧
      final.mutex = none ∧ (final.feeds 0).sent = [[89]] ∧ (final.feeds 1).sent = [[72], [89]] := by
  have ends : (logMachine.run replacedRun).map (fun final => (final.lines, final.mutex,
      (final.slots 0).isSome, (final.slots 1).isSome, (final.feeds 0).since,
      (final.feeds 1).since)) = some ([[72], [89]], none, true, true, 1, 0) := by
    decide +kernel
  obtain ⟨final, ran, facts⟩ := Option.map_eq_some_iff.mp ends
  simp only [Prod.mk.injEq] at facts
  obtain ⟨lines, free, first, second, firstSince, secondSince⟩ := facts
  have fed := (log_server_lines ran).1
  have sentFirst := (fed 0 first).2 free
  have sentSecond := (fed 1 second).2 free
  rw [lines, firstSince] at sentFirst
  rw [lines, secondSince] at sentSecond
  exact ⟨final, ran, lines, free, sentFirst, sentSecond⟩

end WallUnit.Firmware.LogServer
