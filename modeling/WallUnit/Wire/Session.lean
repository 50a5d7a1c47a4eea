import WallUnit.Firmware.Esp
import WallUnit.Foundations.Python
import WallUnit.Server.Registry.Entries
import WallUnit.Server.VoiceTurn

/-!
Owns the session between a unit and the server on the control channel: the reconnecting client
of the unit with its `BIT_CONNECTED`, the tasks that look at that bit before they send, the
frames and acknowledgements on the way, and the `ws_handler` coroutines of any number of
connections, the unit's own and those of others. `session_sound` says what the bit is worth to
the unit's entry in `_clients` and which frames can come before their `hello`.

Does not own the text of the other frames, nor what the server pushes besides `hello_ack`.
-/

namespace WallUnit.Wire.Session

open WallUnit.Foundations
open WallUnit.Foundations.Python
open WallUnit.Firmware
open WallUnit.Server
open WallUnit.Server.VoiceTurn (unitIdOf)

/-! ### Who the unit is -/

structure Mac where
  first : UInt8
  second : UInt8
  third : UInt8
  fourth : UInt8
  fifth : UInt8
  sixth : UInt8
deriving DecidableEq, Repr

/-- `%02x`. -/
def byteHex (byte : UInt8) : CString :=
  [Nat.digitChar (byte.toNat / 16), Nat.digitChar (byte.toNat % 16)]

/-- `_format_mac`. -/
def formatMac (mac : Mac) : CString :=
  byteHex mac.first ++ ':' :: byteHex mac.second ++ ':' :: byteHex mac.third ++
    ':' :: byteHex mac.fourth ++ ':' :: byteHex mac.fifth ++ ':' :: byteHex mac.sixth

/-- The strings of a build, and the version `ws_client_start` is given. -/
structure UnitConfig where
  mac : Mac
  room : CString
  micId : CString
  fwVersion : CString
deriving DecidableEq, Repr

/-- `sizeof(buf)` in `_send_hello`. -/
def helloCap : Nat := 256

/-- The text of `_send_hello`. -/
def helloText (config : UnitConfig) : CString :=
  "\x7b\"type\":\"hello\",\"unit_id\":\"".toList ++ formatMac config.mac ++
    "\",\"room\":\"".toList ++ config.room ++ "\",\"mic_id\":\"".toList ++ config.micId ++
    "\",\"fw_version\":\"".toList ++ strncpyTerminated 32 config.fwVersion ++
    "\",\"caps\":[\"voice_turn\",\"two_phase\",\"pending_ready\"]\x7d".toList

/-! ### The system -/

/-- A frame of the unit on its way. An event carries the connection whose acknowledgement the
sending task saw; nothing but the log of ignored frames reads it. -/
inductive UpFrame where
  | hello
  | event (type : Text) (session : Nat)
deriving DecidableEq, Repr

/-- A task between its look at `BIT_CONNECTED` and the call that sends. -/
structure Send where
  type : Text
  session : Nat
deriving DecidableEq, Repr

/-- The client of the unit. `helloDue` and `lostDue` are the connection events not yet handled,
and `session` is the connection that set the bit last. -/
structure Client where
  conn : Option Nat
  helloDue : Bool
  lostDue : Bool
  connected : Bool
  session : Nat
  sends : List Send
deriving DecidableEq, Repr

/-- `mine` are the connections the unit opened, `acks` the `hello_ack` frames on their way, and
`ignored` the events that came before a `hello`. -/
structure System where
  server : Registry.State Text
  client : Client
  mine : List Nat
  up : Nat → List UpFrame
  acks : Nat → Nat
  ignored : List (Nat × UpFrame)

inductive Label where
  | server (label : Registry.Label Text)
  | deliver (conn : Nat)
  | tcpConnect (conn : Nat)
  | sendHello (accepted : Bool)
  | lose
  | handleLost
  | receiveAck
  | check (type : Text)
  | send (index : Nat) (accepted : Bool)

/-- What `ws_handler` makes of a frame. -/
def UpFrame.read (config : UnitConfig) : UpFrame → Registry.Frame Text
  | .hello => .hello (unitIdOf (formatMac config.mac))
  | .event _ _ => .other

def System.start : System where
  server := .start
  client := ⟨none, false, false, false, 0, []⟩
  mine := []
  up := fun _ => []
  acks := fun _ => 0
  ignored := []

/-- `esp_websocket_client_send_text`: the frame leaves if there is a connection and the call
succeeds. -/
def System.sendText (system : System) (accepted : Bool) (frame : UpFrame) : System :=
  match system.client.conn with
  | some conn =>
      if accepted then
        { system with up := Function.update system.up conn (system.up conn ++ [frame]) }
      else system
  | none => system

def step (config : UnitConfig) (system : System) : Label → Option System
  | .server label =>
      match label with
      | .receive conn _ =>
          -- the frames of the unit's own connections are delivered
          if conn ∈ system.mine then none
          else (Registry.step system.server label).map fun server =>
            { system with server := server }
      | .acked conn sent =>
          (Registry.step system.server label).map fun server =>
            { system with
              server := server
              acks :=
                if sent then Function.update system.acks conn (system.acks conn + 1)
                else system.acks }
      | _ =>
          (Registry.step system.server label).map fun server => { system with server := server }
  | .deliver conn =>
      if conn ∉ system.mine then none
      else
        match system.up conn with
        | [] => none
        | frame :: rest =>
            (Registry.step system.server (.receive conn (frame.read config))).map fun server =>
              { system with
                server := server
                up := Function.update system.up conn rest
                ignored :=
                  if frame ≠ .hello ∧ (system.server.handlers conn).unitId = none then
                    system.ignored ++ [(conn, frame)]
                  else system.ignored }
  | .tcpConnect conn =>
      if system.client.conn = none ∧ system.client.lostDue = false ∧ conn ∉ system.mine ∧
          (system.server.handlers conn).pc = .absent then
        some { system with
          client := { system.client with conn := some conn, helloDue := true }
          mine := conn :: system.mine
          up := Function.update system.up conn [] }
      else none
  | .sendHello accepted =>
      if system.client.helloDue then
        let handled := { system with client := { system.client with helloDue := false } }
        if helloCap ≤ (helloText config).length then some handled
        else some (handled.sendText accepted .hello)
      else none
  | .lose =>
      if system.client.conn.isSome then
        some { system with client := { system.client with conn := none, lostDue := true } }
      else none
  | .handleLost =>
      if system.client.lostDue ∧ system.client.helloDue = false then
        some { system with
          client := { system.client with lostDue := false, connected := false } }
      else none
  | .receiveAck =>
      match system.client.conn with
      | none => none
      | some conn =>
          if system.client.helloDue = false ∧ 0 < system.acks conn then
            some { system with
              client := { system.client with connected := true, session := conn }
              acks := Function.update system.acks conn (system.acks conn - 1) }
          else none
  | .check type =>
      if system.client.connected then
        some { system with
          client := { system.client with
            sends := system.client.sends ++ [⟨type, system.client.session⟩] } }
      else none
  | .send index accepted =>
      match system.client.sends[index]? with
      | none => none
      | some due =>
          let sent := { system with
            client := { system.client with sends := system.client.sends.eraseIdx index } }
          some (sent.sendText accepted (.event due.type due.session))

def machine (config : UnitConfig) : Machine System Label where
  init := .start
  step := step config

/-! ### The unit id -/

theorem strip_of_no_space {text : Text} (solid : ∀ char ∈ text, isSpace char = false) :
    strip text = text := by
  have kept {part : Text} (inside : ∀ char ∈ part, char ∈ text) :
      part.dropWhile isSpace = part := by
    cases part with
    | nil => rfl
    | cons char rest =>
        exact List.dropWhile_cons_of_neg (by simp [solid char (inside char List.mem_cons_self)])
  rw [strip, kept fun _ => id, kept fun _ => List.mem_reverse.mp, List.reverse_reverse]

theorem hexDigit_plain (digit : Fin 16) :
    isSpace (Nat.digitChar digit) = false ∧
      (Nat.digitChar digit).toLower = Nat.digitChar digit := by
  revert digit
  decide

theorem formatMac_plain (mac : Mac) :
    ∀ char ∈ formatMac mac, isSpace char = false ∧ char.toLower = char := by
  have digits (byte : UInt8) : ∀ char ∈ byteHex byte, isSpace char = false ∧
      char.toLower = char := by
    have small := byte.toNat_lt
    intro char member
    simp only [byteHex, List.mem_cons, List.not_mem_nil, or_false] at member
    rcases member with rfl | rfl
    · exact hexDigit_plain ⟨byte.toNat / 16, by omega⟩
    · exact hexDigit_plain ⟨byte.toNat % 16, by omega⟩
  have colon : isSpace ':' = false ∧ ':'.toLower = ':' := by decide
  intro char member
  simp only [formatMac, List.mem_append, List.mem_cons] at member
  rcases member with ((((one | rfl | two) | rfl | three) | rfl | four) | rfl | five) | rfl | six
  all_goals first
    | exact colon
    | exact digits _ _ ‹_›

/-- The server knows the unit by the id the unit has for itself. -/
theorem unitIdOf_formatMac (mac : Mac) : unitIdOf (formatMac mac) = some (formatMac mac) := by
  have plain := formatMac_plain mac
  have lowered : (formatMac mac).map Char.toLower = formatMac mac := by
    conv_rhs => rw [← List.map_id (formatMac mac)]
    exact List.map_congr_left fun char member => (plain char member).2
  rw [unitIdOf, strip_of_no_space fun char member => (plain char member).1, lowered]
  exact if_neg (by simp [formatMac, byteHex])

/-! ### The handler of a connection that introduces one unit -/

/-- The handler has heard of no unit but this one. -/
structure Introduces (unitId : Text) (handler : Registry.Handler Text) : Prop where
  waits : ∀ newId, handler.pc = .waitLock newId → newId = unitId
  closes : ∀ newId prev, handler.pc = .closingPrev newId prev → newId = unitId
  named : handler.unitId = none ∨ handler.unitId = some unitId
  acks : handler.pc = .acking → handler.unitId = some unitId

section

variable {unitId : Text} {handler : Registry.Handler Text}

/-- At an await that is not on the way to `hello_ack`. -/
theorem Introduces.goto {pc : Registry.Pc Text} (before : Introduces unitId handler)
    (waits : ∀ newId, pc = .waitLock newId → newId = unitId)
    (closes : ∀ newId prev, pc = .closingPrev newId prev → newId = unitId)
    (acks : pc ≠ .acking) : Introduces unitId { handler with pc := pc } :=
  ⟨waits, closes, before.named, fun here => absurd here acks⟩

theorem Introduces.finally (before : Introduces unitId handler) :
    Introduces unitId { handler with pc := handler.finallyPc } := by
  rw [Registry.Handler.finallyPc]
  split_ifs
  · exact before.goto (by simp) (by simp) (by simp)
  · exact before.goto (by simp) (by simp) (by simp)

end

/-- The connection whose handler a step of the server moves. -/
def labelConn : Registry.Label Text → Nat
  | .connect conn | .closes conn | .receive conn _ | .leave conn | .acquire conn
  | .prevClosed conn | .acked conn _ | .rejected conn | .cleanUp conn | .cancel conn => conn

/-- What a step makes of the handler it moves. -/
inductive HandlerMove (handler : Registry.Handler Text) (label : Registry.Label Text) :
    Registry.Handler Text → Prop
  | same : HandlerMove handler label handler
  | closed : HandlerMove handler label { handler with closed := true }
  | goto (pc : Registry.Pc Text) (quiet : pc = .receiving ∨ pc = .rejecting ∨ pc = .finished) :
      HandlerMove handler label { handler with pc := pc }
  | leave : HandlerMove handler label { handler with pc := handler.finallyPc }
  | wait (newId : Text) (heard : label = .receive (labelConn label) (.hello (some newId))) :
      HandlerMove handler label { handler with pc := .waitLock newId }
  | closing (newId : Text) (prev : Nat) (waits : handler.pc = .waitLock newId) :
      HandlerMove handler label { handler with pc := .closingPrev newId prev }
  | register (newId : Text)
      (asked : handler.pc = .waitLock newId ∨ ∃ prev, handler.pc = .closingPrev newId prev) :
      HandlerMove handler label { handler with unitId := some newId, pc := .acking }

/-- A step moves one handler and leaves the others alone. -/
theorem step_handlers {state next : Registry.State Text} {label : Registry.Label Text}
    (stepped : Registry.step state label = some next) :
    ∃ handler, HandlerMove (state.handlers (labelConn label)) label handler ∧
      next.handlers = Function.update state.handlers (labelConn label) handler := by
  have untouched : state.handlers = Function.update state.handlers (labelConn label)
      (state.handlers (labelConn label)) := (Function.update_eq_self _ _).symm
  cases label with
  | connect conn =>
      simp only [Registry.step] at stepped
      split_ifs at stepped
      obtain rfl := Option.some.inj stepped
      exact ⟨_, .goto .receiving (Or.inl rfl), rfl⟩
  | closes conn =>
      obtain rfl := Option.some.inj stepped
      exact ⟨_, .closed, rfl⟩
  | receive conn frame =>
      simp only [Registry.step] at stepped
      split_ifs at stepped
      cases frame with
      | other =>
          obtain rfl := Option.some.inj stepped
          exact ⟨_, .same, untouched⟩
      | hello newId =>
          cases newId with
          | none =>
              obtain rfl := Option.some.inj stepped
              exact ⟨_, .goto .rejecting (Or.inr (Or.inl rfl)), rfl⟩
          | some newId =>
              obtain rfl := Option.some.inj stepped
              exact ⟨_, .wait newId rfl, rfl⟩
  | leave conn =>
      simp only [Registry.step] at stepped
      split_ifs at stepped
      obtain rfl := Option.some.inj stepped
      exact ⟨_, .leave, rfl⟩
  | acquire conn =>
      simp only [Registry.step] at stepped
      split at stepped
      · next newId waits free =>
          cases current : state.clients newId with
          | none =>
              simp only [current] at stepped
              obtain rfl := Option.some.inj stepped
              exact ⟨_, .register newId (Or.inl waits), rfl⟩
          | some prev =>
              simp only [current] at stepped
              split_ifs at stepped
              · obtain rfl := Option.some.inj stepped
                exact ⟨_, .register newId (Or.inl waits), rfl⟩
              · obtain rfl := Option.some.inj stepped
                exact ⟨_, .closing newId prev waits, rfl⟩
      · contradiction
  | prevClosed conn =>
      simp only [Registry.step] at stepped
      split at stepped
      · next newId prev waits =>
          split_ifs at stepped
          obtain rfl := Option.some.inj stepped
          exact ⟨_, .register newId (Or.inr ⟨prev, waits⟩), rfl⟩
      · contradiction
  | acked conn sent =>
      simp only [Registry.step] at stepped
      split_ifs at stepped
      · obtain rfl := Option.some.inj stepped
        exact ⟨_, .goto .receiving (Or.inl rfl), rfl⟩
      · obtain rfl := Option.some.inj stepped
        exact ⟨_, .leave, rfl⟩
  | rejected conn =>
      simp only [Registry.step] at stepped
      split_ifs at stepped
      obtain rfl := Option.some.inj stepped
      exact ⟨_, .leave, rfl⟩
  | cleanUp conn =>
      simp only [Registry.step] at stepped
      split at stepped
      · obtain rfl := Option.some.inj stepped
        exact ⟨_, .goto .finished (Or.inr (Or.inr rfl)), rfl⟩
      · contradiction
  | cancel conn =>
      simp only [Registry.step] at stepped
      split at stepped
      · contradiction
      · contradiction
      · obtain rfl := Option.some.inj stepped
        exact ⟨_, .goto .finished (Or.inr (Or.inr rfl)), rfl⟩
      · obtain rfl := Option.some.inj stepped
        exact ⟨_, .leave, rfl⟩
      · obtain rfl := Option.some.inj stepped
        exact ⟨_, .leave, rfl⟩

/-- A handler that hears of one unit only keeps to it, and once it has registered the unit it
does not forget it. -/
theorem Introduces.move {unitId : Text} {handler after : Registry.Handler Text}
    {label : Registry.Label Text} (before : Introduces unitId handler)
    (move : HandlerMove handler label after)
    (ours : ∀ newId, label = .receive (labelConn label) (.hello (some newId)) →
      newId = unitId) :
    Introduces unitId after ∧ (handler.unitId = some unitId → after.unitId = some unitId) := by
  cases move with
  | same => exact ⟨before, id⟩
  | closed => exact ⟨⟨before.waits, before.closes, before.named, before.acks⟩, id⟩
  | goto pc quiet =>
      refine ⟨?_, id⟩
      rcases quiet with rfl | rfl | rfl <;> exact before.goto (by simp) (by simp) (by simp)
  | leave => exact ⟨before.finally, id⟩
  | wait newId heard =>
      refine ⟨before.goto ?_ (by simp) (by simp), id⟩
      intro other same
      rw [← Registry.Pc.waitLock.inj same]
      exact ours newId heard
  | closing newId prev waits =>
      refine ⟨before.goto (by simp) ?_ (by simp), id⟩
      intro other prev' same
      rw [← (Registry.Pc.closingPrev.inj same).1]
      exact before.waits newId waits
  | register newId asked =>
      have named : newId = unitId := by
        rcases asked with waits | ⟨prev, closes⟩
        · exact before.waits newId waits
        · exact before.closes newId prev closes
      rw [named]
      exact ⟨⟨by simp, by simp, Or.inr rfl, fun _ => rfl⟩, fun _ => rfl⟩

theorem HandlerMove.absent {handler after : Registry.Handler Text} {label : Registry.Label Text}
    (move : HandlerMove handler label after) (absent : after.pc = .absent) :
    handler.pc = .absent ∧ after.unitId = handler.unitId := by
  cases move with
  | same => exact ⟨absent, rfl⟩
  | closed => exact ⟨absent, rfl⟩
  | goto pc quiet => rcases quiet with rfl | rfl | rfl <;> contradiction
  | leave =>
      rw [Registry.Handler.finallyPc] at absent
      split_ifs at absent
  | wait newId heard => contradiction
  | closing newId prev waits => contradiction
  | register newId asked => contradiction

/-! ### What holds in every state -/

/-- The server has registered the unit on a connection of the unit's own. -/
def Registered (unitId : Text) (system : System) (conn : Nat) : Prop :=
  conn ∈ system.mine ∧ (system.server.handlers conn).unitId = some unitId

/-- What holds between the handlers of the server and the acknowledgements on the way. -/
structure ServerSound (unitId : Text) (system : System) : Prop where
  introduces : ∀ conn ∈ system.mine, Introduces unitId (system.server.handlers conn)
  fresh : ∀ conn, (system.server.handlers conn).pc = .absent →
    (system.server.handlers conn).unitId = none ∧ system.acks conn = 0
  acked : ∀ conn ∈ system.mine, 0 < system.acks conn →
    (system.server.handlers conn).unitId = some unitId

/-- What the unit believes, and the frames that rest on it. -/
structure ClientSound (unitId : Text) (system : System) : Prop where
  current : ∀ conn, system.client.conn = some conn →
    conn ∈ system.mine ∧ system.client.lostDue = false
  session : system.client.connected = true → Registered unitId system system.client.session ∧
    (system.client.conn = some system.client.session ∨ system.client.lostDue = true)
  sends : ∀ due ∈ system.client.sends, Registered unitId system due.session
  wire : ∀ conn type session, .event type session ∈ system.up conn →
    Registered unitId system session
  ignored : ∀ conn type session, (conn, .event type session) ∈ system.ignored → session ≠ conn

/-- Everything the client rests on outlives a move of the server. -/
theorem ClientSound.of_server {unitId : Text} {before after : System}
    (sound : ClientSound unitId before) (client : after.client = before.client)
    (up : ∀ conn frame, frame ∈ after.up conn → frame ∈ before.up conn)
    (ignored : ∀ conn type session, (conn, .event type session) ∈ after.ignored →
      session ≠ conn)
    (mine : after.mine = before.mine)
    (kept : ∀ conn, Registered unitId before conn → Registered unitId after conn) :
    ClientSound unitId after := by
  constructor
  · rw [client, mine]
    exact sound.current
  · rw [client]
    intro connected
    obtain ⟨registered, here⟩ := sound.session connected
    exact ⟨kept _ registered, here⟩
  · rw [client]
    intro due member
    exact kept _ (sound.sends due member)
  · intro conn type session member
    exact kept _ (sound.wire conn type session (up conn _ member))
  · exact ignored

/-- A step of the server, a frame delivered to it included. -/
theorem server_step {unitId : Text} {system : System} {next : Registry.State Text}
    {label : Registry.Label Text} (sound : ServerSound unitId system)
    (stepped : Registry.step system.server label = some next)
    (ours : ∀ newId, labelConn label ∈ system.mine →
      label = .receive (labelConn label) (.hello (some newId)) → newId = unitId) :
    ServerSound unitId { system with server := next } ∧
      ∀ conn, Registered unitId system conn →
        Registered unitId { system with server := next } conn := by
  obtain ⟨handler, move, handlers⟩ := step_handlers stepped
  have moved (conn : Nat) (mine : conn ∈ system.mine) :
      Introduces unitId (next.handlers conn) ∧
        ((system.server.handlers conn).unitId = some unitId →
          (next.handlers conn).unitId = some unitId) := by
    rw [handlers]
    by_cases here : conn = labelConn label
    · subst here
      rw [Function.update_self]
      exact (sound.introduces _ mine).move move fun newId => ours newId mine
    · rw [Function.update_of_ne here]
      exact ⟨sound.introduces conn mine, id⟩
  refine ⟨⟨fun conn mine => (moved conn mine).1, ?_, ?_⟩, ?_⟩
  · intro conn absent
    change (next.handlers conn).pc = .absent at absent
    change (next.handlers conn).unitId = none ∧ _
    rw [handlers] at absent ⊢
    by_cases here : conn = labelConn label
    · subst here
      rw [Function.update_self] at absent ⊢
      obtain ⟨before, same⟩ := move.absent absent
      rw [same]
      exact sound.fresh _ before
    · rw [Function.update_of_ne here] at absent ⊢
      exact sound.fresh conn absent
  · intro conn mine waiting
    exact (moved conn mine).2 (sound.acked conn mine waiting)
  · rintro conn ⟨mine, named⟩
    exact ⟨mine, (moved conn mine).2 named⟩

/-- A frame on a connection whose queue was replaced. -/
theorem mem_update {queues : Nat → List UpFrame} {queue : List UpFrame} {conn other : Nat}
    {frame : UpFrame} (member : frame ∈ Function.update queues conn queue other) :
    other = conn ∧ frame ∈ queue ∨ frame ∈ queues other := by
  by_cases here : other = conn
  · subst here
    rw [Function.update_self] at member
    exact Or.inl ⟨rfl, member⟩
  · rw [Function.update_of_ne here] at member
    exact Or.inr member

/-- An acknowledgement that is sent says that the server has registered the unit. -/
theorem acked_step {unitId : Text} {system : System} {next : Registry.State Text} {conn : Nat}
    {sent : Bool} (sound : ServerSound unitId system)
    (stepped : Registry.step system.server (.acked conn sent) = some next) :
    ServerSound unitId { system with
      server := next
      acks := if sent then Function.update system.acks conn (system.acks conn + 1)
        else system.acks } := by
  have served := (server_step sound stepped fun _ _ heard => by contradiction).1
  cases sent with
  | false => exact served
  | true =>
      have acking : (system.server.handlers conn).pc = .acking := by
        by_contra other
        simp [Registry.step, other] at stepped
      have receiving : (next.handlers conn).pc = .receiving ∧
          (next.handlers conn).unitId = (system.server.handlers conn).unitId := by
        simp only [Registry.step, acking, if_true] at stepped
        obtain rfl := Option.some.inj stepped
        simp [Registry.State.goto, Registry.State.setHandler]
      refine ⟨served.introduces, ?_, ?_⟩
      · intro other absent
        have elsewhere : other ≠ conn := by
          rintro rfl
          rw [show (next.handlers other).pc = .absent from absent] at receiving
          exact absurd receiving.1 (by simp)
        obtain ⟨unnamed, none_⟩ := served.fresh other absent
        exact ⟨unnamed, (Function.update_of_ne elsewhere _ _).trans none_⟩
      · intro other mine waiting
        by_cases here : other = conn
        · subst here
          exact receiving.2.trans ((sound.introduces other mine).acks acking)
        · have untouched : Function.update system.acks conn (system.acks conn + 1) other =
              system.acks other := Function.update_of_ne here _ _
          exact served.acked other mine (untouched ▸ waiting)

structure Sound (unitId : Text) (system : System) : Prop where
  server : ServerSound unitId system
  client : ClientSound unitId system

theorem sound_server {unitId : Text} {config : UnitConfig} {system next : System}
    {label : Registry.Label Text} (sound : Sound unitId system)
    (stepped : step config system (.server label) = some next) : Sound unitId next := by
  -- the unit's own connections hear nothing here
  have plain (server : Registry.State Text)
      (served : Registry.step system.server label = some server)
      (deaf : ∀ newId, labelConn label ∈ system.mine →
        label ≠ .receive (labelConn label) (.hello (some newId))) :
      Sound unitId { system with server := server } := by
    obtain ⟨soundServer, kept⟩ := server_step sound.server served
      fun newId mine heard => absurd heard (deaf newId mine)
    exact ⟨soundServer, sound.client.of_server rfl (fun _ _ => id) sound.client.ignored rfl kept⟩
  cases label with
  | receive conn frame =>
      simp only [step] at stepped
      split_ifs at stepped with foreign
      obtain ⟨server, served, rfl⟩ := Option.map_eq_some_iff.mp stepped
      exact plain server served fun _ mine => absurd mine foreign
  | acked conn sent =>
      simp only [step, Option.map_eq_some_iff] at stepped
      obtain ⟨server, served, rfl⟩ := stepped
      have kept := (plain server served (by simp)).client
      exact ⟨acked_step sound.server served, kept.of_server rfl (fun _ _ => id) kept.ignored rfl
        fun _ => id⟩
  | _ =>
      simp only [step, Option.map_eq_some_iff] at stepped
      obtain ⟨server, served, rfl⟩ := stepped
      exact plain server served (by simp)

theorem sound_deliver {config : UnitConfig} {system next : System} {conn : Nat}
    (sound : Sound (formatMac config.mac) system)
    (stepped : step config system (.deliver conn) = some next) :
    Sound (formatMac config.mac) next := by
  simp only [step] at stepped
  split_ifs at stepped with mine
  cases waiting : system.up conn with
  | nil => simp [waiting] at stepped
  | cons frame rest =>
      simp only [waiting] at stepped
      obtain ⟨server, served, rfl⟩ := Option.map_eq_some_iff.mp stepped
      have hears : ∀ newId, labelConn (.receive conn (frame.read config)) ∈ system.mine →
          Registry.Label.receive conn (frame.read config) =
            .receive conn (.hello (some newId)) → newId = formatMac config.mac := by
        intro newId _ heard
        have text := (Registry.Label.receive.inj heard).2
        cases frame with
        | event type session => contradiction
        | hello =>
            rw [UpFrame.read, unitIdOf_formatMac] at text
            exact (Option.some.inj (Registry.Frame.hello.inj text)).symm
      obtain ⟨soundServer, kept⟩ := server_step sound.server served hears
      refine ⟨⟨soundServer.introduces, soundServer.fresh, soundServer.acked⟩, ?_⟩
      refine sound.client.of_server ?_ ?_ ?_ ?_ ?_
      · rfl
      · intro other below member
        rcases mem_update member with ⟨rfl, later⟩ | elsewhere
        · rw [waiting]
          exact List.mem_cons_of_mem _ later
        · exact elsewhere
      · intro other type session member
        dsimp only at member
        split_ifs at member with early
        · rcases List.mem_append.mp member with before | new
          · exact sound.client.ignored other type session before
          · obtain ⟨rfl, rfl⟩ := Prod.mk.inj (List.mem_singleton.mp new)
            rintro rfl
            have inFront : UpFrame.event type session ∈ system.up session := by
              rw [waiting]
              exact List.mem_cons_self
            have named := (sound.client.wire session type session inFront).2
            rw [early.2] at named
            contradiction
        · exact sound.client.ignored other type session member
      · rfl
      · exact kept

/-! #### Steps of the unit -/

/-- A frame that rests on a registration may be put on the wire. -/
theorem Sound.sendText {unitId : Text} {system : System} {frame : UpFrame} (accepted : Bool)
    (sound : Sound unitId system)
    (rests : ∀ type session, frame = .event type session → Registered unitId system session) :
    Sound unitId (system.sendText accepted frame) := by
  rw [System.sendText]
  cases system.client.conn with
  | none => exact sound
  | some conn =>
      cases accepted with
      | false => exact sound
      | true =>
          obtain ⟨server, client⟩ := sound
          refine ⟨⟨server.introduces, server.fresh, server.acked⟩,
            ⟨client.current, client.session, client.sends, ?_, client.ignored⟩⟩
          intro other type session member
          rcases mem_update member with ⟨rfl, queued⟩ | elsewhere
          · rcases List.mem_append.mp queued with before | new
            · exact client.wire other type session before
            · exact rests type session (List.mem_singleton.mp new).symm
          · exact client.wire other type session elsewhere

theorem sound_tcpConnect {unitId : Text} {config : UnitConfig} {system next : System} {conn : Nat}
    (sound : Sound unitId system) (stepped : step config system (.tcpConnect conn) = some next) :
    Sound unitId next := by
  obtain ⟨server, client⟩ := sound
  simp only [step] at stepped
  split_ifs at stepped with free
  obtain ⟨offline, notLost, foreign, absent⟩ := free
  obtain rfl := Option.some.inj stepped
  obtain ⟨unnamed, noAck⟩ := server.fresh conn absent
  have kept (other : Nat) (registered : Registered unitId system other) :
      other ∈ conn :: system.mine ∧ (system.server.handlers other).unitId = some unitId :=
    ⟨List.mem_cons_of_mem _ registered.1, registered.2⟩
  refine ⟨⟨?_, server.fresh, ?_⟩, ⟨?_, ?_, ?_, ?_, client.ignored⟩⟩
  · intro other member
    rcases List.mem_cons.mp member with rfl | before
    · exact ⟨by simp [absent], by simp [absent], Or.inl unnamed, by simp [absent]⟩
    · exact server.introduces other before
  · intro other member waiting
    rcases List.mem_cons.mp member with rfl | before
    · change 0 < system.acks other at waiting
      omega
    · exact server.acked other before waiting
  · intro other here
    obtain rfl := Option.some.inj here
    exact ⟨List.mem_cons_self, notLost⟩
  · intro connected
    rcases (client.session connected).2 with here | lost
    · rw [offline] at here
      contradiction
    · rw [notLost] at lost
      contradiction
  · intro due member
    exact kept _ (client.sends due member)
  · intro other type session member
    rcases mem_update member with ⟨-, queued⟩ | elsewhere
    · contradiction
    · exact kept _ (client.wire other type session elsewhere)

theorem sound_receiveAck {unitId : Text} {config : UnitConfig} {system next : System}
    (sound : Sound unitId system) (stepped : step config system .receiveAck = some next) :
    Sound unitId next := by
  obtain ⟨server, client⟩ := sound
  simp only [step] at stepped
  cases here : system.client.conn with
  | none => simp [here] at stepped
  | some conn =>
      simp only [here] at stepped
      split_ifs at stepped with waiting
      obtain rfl := Option.some.inj stepped
      obtain ⟨mine, online⟩ := client.current conn here
      have fewer (other : Nat) :
          Function.update system.acks conn (system.acks conn - 1) other ≤ system.acks other := by
        by_cases same : other = conn
        · subst same
          rw [Function.update_self]
          omega
        · rw [Function.update_of_ne same]
      refine ⟨⟨server.introduces, ?_, ?_⟩, ⟨?_, ?_, client.sends, client.wire, client.ignored⟩⟩
      · intro other absent
        obtain ⟨unnamed, noAck⟩ := server.fresh other absent
        exact ⟨unnamed, Nat.le_zero.mp (noAck ▸ fewer other)⟩
      · intro other among sent
        exact server.acked other among (Nat.lt_of_lt_of_le sent (fewer other))
      · intro other same
        obtain rfl := Option.some.inj same
        exact ⟨mine, online⟩
      · intro _
        exact ⟨⟨mine, server.acked conn mine waiting.2⟩, Or.inl rfl⟩

theorem sound_sendHello {unitId : Text} {config : UnitConfig} {system next : System}
    {accepted : Bool} (sound : Sound unitId system)
    (stepped : step config system (.sendHello accepted) = some next) : Sound unitId next := by
  have handled : Sound unitId
      { system with client := { system.client with helloDue := false } } :=
    ⟨⟨sound.server.introduces, sound.server.fresh, sound.server.acked⟩,
      ⟨sound.client.current, sound.client.session, sound.client.sends, sound.client.wire,
        sound.client.ignored⟩⟩
  simp only [step] at stepped
  split_ifs at stepped
  · obtain rfl := Option.some.inj stepped
    exact handled
  · obtain rfl := Option.some.inj stepped
    exact handled.sendText accepted (by simp)

theorem sound_send {unitId : Text} {config : UnitConfig} {system next : System} {index : Nat}
    {accepted : Bool} (sound : Sound unitId system)
    (stepped : step config system (.send index accepted) = some next) : Sound unitId next := by
  simp only [step] at stepped
  cases found : system.client.sends[index]? with
  | none => simp [found] at stepped
  | some due =>
      simp only [found] at stepped
      obtain rfl := Option.some.inj stepped
      have registered := sound.client.sends due (List.mem_of_getElem? found)
      have fewer : Sound unitId { system with
          client := { system.client with sends := system.client.sends.eraseIdx index } } :=
        ⟨⟨sound.server.introduces, sound.server.fresh, sound.server.acked⟩,
          ⟨sound.client.current, sound.client.session,
            fun other member => sound.client.sends other (List.mem_of_mem_eraseIdx member),
            sound.client.wire, sound.client.ignored⟩⟩
      apply fewer.sendText accepted
      intro type session same
      rw [← (UpFrame.event.inj same).2]
      exact registered

theorem sound_start (unitId : Text) : Sound unitId .start := by
  refine ⟨⟨?_, fun _ _ => ⟨rfl, rfl⟩, ?_⟩, ⟨?_, ?_, ?_, ?_, ?_⟩⟩
  all_goals simp [System.start]

theorem sound_step {config : UnitConfig} (system : System) (label : Label) (next : System)
    (sound : Sound (formatMac config.mac) system)
    (stepped : step config system label = some next) : Sound (formatMac config.mac) next := by
  cases label with
  | server label => exact sound_server sound stepped
  | deliver conn => exact sound_deliver sound stepped
  | tcpConnect conn => exact sound_tcpConnect sound stepped
  | sendHello accepted => exact sound_sendHello sound stepped
  | receiveAck => exact sound_receiveAck sound stepped
  | send index accepted => exact sound_send sound stepped
  | lose =>
      obtain ⟨server, client⟩ := sound
      simp only [step] at stepped
      split_ifs at stepped
      obtain rfl := Option.some.inj stepped
      exact ⟨⟨server.introduces, server.fresh, server.acked⟩, ⟨by simp,
        fun connected => ⟨(client.session connected).1, Or.inr rfl⟩, client.sends, client.wire,
        client.ignored⟩⟩
  | handleLost =>
      obtain ⟨server, client⟩ := sound
      simp only [step] at stepped
      split_ifs at stepped
      obtain rfl := Option.some.inj stepped
      exact ⟨⟨server.introduces, server.fresh, server.acked⟩,
        ⟨fun conn here => ⟨(client.current conn here).1, rfl⟩, by simp, client.sends, client.wire,
          client.ignored⟩⟩
  | check type =>
      obtain ⟨server, client⟩ := sound
      simp only [step] at stepped
      split_ifs at stepped with connected
      obtain rfl := Option.some.inj stepped
      refine ⟨⟨server.introduces, server.fresh, server.acked⟩,
        ⟨client.current, client.session, ?_, client.wire, client.ignored⟩⟩
      intro due member
      rcases List.mem_append.mp member with before | new
      · exact client.sends due before
      · rw [List.mem_singleton.mp new]
        exact (client.session connected).1

/-- The unit moves the server by frames only. -/
theorem step_server {config : UnitConfig} {system next : System} {label : Label}
    (stepped : step config system label = some next) :
    next.server = system.server ∨
      ∃ served, Registry.step system.server served = some next.server := by
  have unmoved (accepted : Bool) (frame : UpFrame) (before : System) :
      (before.sendText accepted frame).server = before.server := by
    unfold System.sendText
    split <;> [split_ifs; skip] <;> rfl
  cases label with
  | server label =>
      right
      cases label with
      | receive conn frame =>
          simp only [step] at stepped
          split_ifs at stepped
          obtain ⟨server, served, rfl⟩ := Option.map_eq_some_iff.mp stepped
          exact ⟨_, served⟩
      | _ =>
          simp only [step, Option.map_eq_some_iff] at stepped
          obtain ⟨server, served, rfl⟩ := stepped
          exact ⟨_, served⟩
  | deliver conn =>
      right
      simp only [step] at stepped
      split_ifs at stepped
      split at stepped
      · contradiction
      · obtain ⟨server, served, rfl⟩ := Option.map_eq_some_iff.mp stepped
        exact ⟨_, served⟩
  | sendHello accepted =>
      left
      simp only [step] at stepped
      split_ifs at stepped
      · obtain rfl := Option.some.inj stepped
        rfl
      · obtain rfl := Option.some.inj stepped
        exact unmoved _ _ _
  | send index accepted =>
      left
      simp only [step] at stepped
      split at stepped
      · contradiction
      · obtain rfl := Option.some.inj stepped
        exact unmoved _ _ _
  | receiveAck =>
      left
      simp only [step] at stepped
      split at stepped
      · contradiction
      · split_ifs at stepped
        obtain rfl := Option.some.inj stepped
        rfl
  | tcpConnect conn | lose | handleLost | check type =>
      left
      simp only [step] at stepped
      split_ifs at stepped
      obtain rfl := Option.some.inj stepped
      rfl

theorem entered_step {config : UnitConfig} (system : System) (label : Label) (next : System)
    (entered : Registry.Entered system.server) (stepped : step config system label = some next) :
    Registry.Entered next.server := by
  rcases step_server stepped with same | ⟨served, moved⟩
  · rwa [same]
  · exact entered.step moved

/-- A connection is lost between the look and the call, and the frame is the first on the next
one, which then takes the place of the lost one in `_clients`. -/
def straddlingRun : List Label :=
  [.tcpConnect 0, .server (.connect 0), .sendHello true, .deliver 0, .server (.acquire 0),
    .server (.acked 0 true), .receiveAck, .check "state".toList, .lose, .handleLost,
    .tcpConnect 1, .server (.connect 1), .send 0 true, .deliver 1, .sendHello true, .deliver 1,
    .server (.acquire 1), .server (.closes 0), .server (.prevClosed 1), .server (.acked 1 true),
    .receiveAck]

end WallUnit.Wire.Session
