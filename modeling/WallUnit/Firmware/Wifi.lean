import WallUnit.Firmware.Esp
import WallUnit.Foundations.EndPoint
import WallUnit.Foundations.Machine

/-!
Owns `wifi.c` together with the station driver it asks for connections: the event handler
with its retry counter, the bits `wifi_init_sta` waits for, and every order in which the
driver reports and the event loop delivers. There is always exactly one thing to wait for,
an attempt, a connection or an event to handle, until 21 disconnects have come in a row;
from then on the unit never asks for a connection again: `wifi_gives_up`.

Does not own the radio. As the driver documents, it ends every attempt and every connection
with one disconnect event and does not reconnect by itself. Addresses are reported by the
network stack's own task and may come at any time, also behind a disconnect.
-/

namespace WallUnit.Firmware.Wifi

open WallUnit.Foundations

/-- `MAX_RETRIES`. -/
def maxRetries : Nat := 20

/-- The events `event_handler` is registered for; `other` are the ones it ignores. -/
inductive Event where
  | staStart
  | disconnected
  | gotIp
  | other
deriving DecidableEq, Repr

/-- What the driver is doing. -/
inductive Driver where
  | off
  | idle
  | connecting
  | connected
deriving DecidableEq, Repr

/-- An attempt or a connection, which ends with a report. -/
def Driver.busy : Driver → Bool
  | .off | .idle => false
  | .connecting | .connected => true

def Driver.started : Driver → Bool
  | .off => false
  | .idle | .connecting | .connected => true

/-- The statics of `wifi.c`, the event loop's queue, and what main's wait has returned.
`handled` are the events the handler has been through, `overlapped` says that a connection
was asked for while another one was there. -/
structure WifiState where
  driver : Driver
  queue : List Event
  retryCount : Nat
  connected : Bool
  connectedBit : Bool
  failBit : Bool
  result : Option EspErr
  handled : List Event
  overlapped : Bool
deriving DecidableEq, Repr

def WifiState.init : WifiState := ⟨.off, [], 0, false, false, false, none, [], false⟩

/-- `esp_wifi_connect`. -/
def WifiState.connect (state : WifiState) : WifiState :=
  if state.driver = .idle then { state with driver := .connecting }
  else { state with overlapped := true }

/-- `event_handler`. -/
def WifiState.eventHandler (event : Event) (state : WifiState) : WifiState :=
  match event with
  | .staStart => state.connect
  | .disconnected =>
      if state.retryCount < maxRetries then
        { WifiState.connect { state with connected := false } with
          retryCount := state.retryCount + 1 }
      else { state with connected := false, failBit := true }
  | .gotIp => { state with retryCount := 0, connected := true, connectedBit := true }
  | .other => state

inductive Label where
  /-- `esp_wifi_start` in `wifi_init_sta`. -/
  | start
  /-- The attempt fails, or the connection is lost. -/
  | drop
  /-- The attempt succeeds. -/
  | associate
  /-- The network stack reports an address, perhaps of a connection already lost. -/
  | address
  /-- An event that the handler ignores. -/
  | noise
  /-- The event loop delivers the first event of its queue. -/
  | deliver
  /-- `xEventGroupWaitBits` returns. -/
  | wake
deriving DecidableEq, Repr

def WifiState.step (state : WifiState) : Label → Option WifiState
  | .start =>
      if state.driver = .off then
        some { state with driver := .idle, queue := state.queue ++ [.staStart] }
      else none
  | .drop =>
      if state.driver.busy then
        some { state with driver := .idle, queue := state.queue ++ [.disconnected] }
      else none
  | .associate =>
      if state.driver = .connecting then some { state with driver := .connected } else none
  | .address =>
      if state.driver.started then some { state with queue := state.queue ++ [.gotIp] }
      else none
  | .noise => some { state with queue := state.queue ++ [.other] }
  | .deliver =>
      match state.queue with
      | [] => none
      | event :: rest =>
          some { WifiState.eventHandler event { state with queue := rest } with
            handled := state.handled ++ [event] }
  | .wake =>
      if state.driver ≠ .off ∧ state.result = none ∧ (state.connectedBit || state.failBit) then
        some { state with result := some (if state.connectedBit then .ok else .fail) }
      else none

def wifiMachine : Machine WifiState Label where
  init := .init
  step := WifiState.step

/-! ### One thing to wait for -/

/-- Events on which the handler asks for a connection, or gives up. -/
def Event.asks : Event → Bool
  | .staStart | .disconnected => true
  | .gotIp | .other => false

def Event.decides : Event → Bool
  | .disconnected | .gotIp => true
  | .staStart | .other => false

/-- The disconnects since the last address. -/
def failures (handled : List Event) : Nat :=
  trailingRun (· == .gotIp) (handled.filter Event.decides)

/-- At some time more disconnects had come in a row than the handler retries. -/
def Exhausted (handled : List Event) : Prop :=
  ∃ past, past <+: handled ∧ maxRetries < failures past

structure Sound (state : WifiState) : Prop where
  /-- Exactly one thing is pending from the start on, until the handler gives up. -/
  one : state.queue.countP Event.asks + state.driver.busy.toNat + state.failBit.toNat
    = state.driver.started.toNat
  retries : state.retryCount = min maxRetries (failures state.handled)
  gaveUp : state.failBit = true ↔ Exhausted state.handled
  online : state.connected = true ↔
    (state.handled.filter Event.decides).getLast? = some .gotIp
  everOnline : state.connectedBit = true ↔ .gotIp ∈ state.handled
  answered : ∀ err, state.result = some err →
    if err = .ok then state.connectedBit = true else state.failBit = true
  single : state.overlapped = false

theorem not_exhausted_nil : ¬ Exhausted [] := by
  rintro ⟨past, isPrefix, long⟩
  rw [List.prefix_nil.mp isPrefix] at long
  exact absurd long (by decide)

theorem sound_init : Sound .init where
  one := rfl
  retries := rfl
  gaveUp := iff_of_false Bool.false_ne_true not_exhausted_nil
  online := iff_of_false Bool.false_ne_true nofun
  everOnline := iff_of_false Bool.false_ne_true List.not_mem_nil
  answered := nofun
  single := rfl

theorem exhausted_append {handled : List Event} {event : Event} :
    Exhausted (handled ++ [event]) ↔
      Exhausted handled ∨ maxRetries < failures (handled ++ [event]) := by
  constructor
  · rintro ⟨past, isPrefix, long⟩
    rcases List.prefix_concat_iff.mp isPrefix with rfl | before
    · exact .inr long
    · exact .inl ⟨past, before, long⟩
  · rintro (⟨past, isPrefix, long⟩ | long)
    · exact ⟨past, isPrefix.trans (List.prefix_append _ _), long⟩
    · exact ⟨_, List.prefix_rfl, long⟩

theorem Exhausted.of_failures {handled : List Event} (long : maxRetries < failures handled) :
    Exhausted handled := ⟨handled, List.prefix_rfl, long⟩

theorem failures_append_drop (handled : List Event) :
    failures (handled ++ [.disconnected]) = failures handled + 1 := by
  rw [failures, List.filter_append]
  exact trailingRun_append_unmarked rfl

theorem failures_append_ip (handled : List Event) : failures (handled ++ [.gotIp]) = 0 := by
  rw [failures, List.filter_append]
  exact trailingRun_append_marked rfl

theorem filter_decides_skip (handled : List Event) {event : Event}
    (skipped : event.decides = false) :
    (handled ++ [event]).filter Event.decides = handled.filter Event.decides := by
  rw [List.filter_append, List.filter_cons_of_neg (by rw [skipped]; decide), List.filter_nil,
    List.append_nil]

theorem failures_skip (handled : List Event) {event : Event} (skipped : event.decides = false) :
    failures (handled ++ [event]) = failures handled := by
  rw [failures, failures, filter_decides_skip handled skipped]

/-- Only a disconnect exhausts the retries. -/
theorem exhausted_append_other {handled : List Event} {event : Event}
    (other : event ≠ .disconnected) : Exhausted (handled ++ [event]) ↔ Exhausted handled := by
  rw [exhausted_append, or_iff_left_of_imp]
  intro long
  cases event with
  | staStart =>
      rw [failures_skip handled rfl] at long
      exact .of_failures long
  | disconnected => contradiction
  | gotIp =>
      rw [failures_append_ip] at long
      exact absurd long (Nat.not_lt_zero _)
  | other =>
      rw [failures_skip handled rfl] at long
      exact .of_failures long

section

variable {state next : WifiState}

/-- With an event that asks at the head of the queue the driver is idle and the handler has
not given up. -/
theorem Sound.head (sound : Sound state) {event : Event} {rest : List Event}
    (queue : state.queue = event :: rest) (asks : event.asks = true) :
    state.driver = .idle ∧ state.failBit = false ∧ rest.countP Event.asks = 0 := by
  have one := sound.one
  rw [queue, List.countP_cons_of_pos asks] at one
  have started := Bool.toNat_le state.driver.started
  refine ⟨?_, ?_, by omega⟩
  · cases driver : state.driver <;> rw [driver] at one <;>
      simp only [Driver.busy, Driver.started, Bool.toNat_true, Bool.toNat_false] at one ⊢ <;> omega
  · cases given : state.failBit with
    | false => rfl
    | true =>
        rw [given, Bool.toNat_true] at one
        omega

theorem Sound.start (sound : Sound state) (stepped : state.step .start = some next) :
    Sound next := by
  rw [WifiState.step] at stepped
  split_ifs at stepped with off
  cases stepped
  have one := sound.one
  rw [off] at one
  refine { sound with one := ?_ }
  rw [List.countP_append]
  simp only [Driver.busy, Driver.started, Bool.toNat_false, Bool.toNat_true] at one ⊢
  have asked : [Event.staStart].countP Event.asks = 1 := rfl
  omega

theorem Sound.drop (sound : Sound state) (stepped : state.step .drop = some next) :
    Sound next := by
  rw [WifiState.step] at stepped
  split_ifs at stepped with busy
  cases stepped
  have one := sound.one
  have started := Bool.toNat_le state.driver.started
  rw [busy, Bool.toNat_true] at one
  refine { sound with one := ?_ }
  rw [List.countP_append]
  simp only [Driver.busy, Driver.started, Bool.toNat_false, Bool.toNat_true]
  have asked : [Event.disconnected].countP Event.asks = 1 := rfl
  omega

theorem Sound.associate (sound : Sound state) (stepped : state.step .associate = some next) :
    Sound next := by
  rw [WifiState.step] at stepped
  split_ifs at stepped with connecting
  cases stepped
  have one := sound.one
  rw [connecting] at one
  exact { sound with one := one }

/-- An event that asks for nothing changes nothing while it is queued. -/
theorem Sound.enqueue (sound : Sound state) {event : Event} (asks : event.asks = false) :
    Sound { state with queue := state.queue ++ [event] } := by
  have same : (state.queue ++ [event]).countP Event.asks = state.queue.countP Event.asks := by
    rw [List.countP_append, List.countP_cons_of_neg (by rw [asks]; decide), List.countP_nil,
      Nat.add_zero]
  refine { sound with one := ?_ }
  rw [same]
  exact sound.one

theorem Sound.address (sound : Sound state) (stepped : state.step .address = some next) :
    Sound next := by
  rw [WifiState.step] at stepped
  split_ifs at stepped
  cases stepped
  exact sound.enqueue rfl

theorem Sound.wake (sound : Sound state) (stepped : state.step .wake = some next) :
    Sound next := by
  rw [WifiState.step] at stepped
  split_ifs at stepped with awake online
  · cases stepped
    refine { sound with answered := fun err given => ?_ }
    cases given
    exact online
  · cases stepped
    refine { sound with answered := fun err given => ?_ }
    cases given
    have bits := awake.2.2
    rwa [Bool.eq_false_iff.mpr online, Bool.false_or] at bits

/-- The driver has started: the handler asks for the first connection. -/
theorem Sound.handleStart (sound : Sound state) {rest : List Event}
    (queue : state.queue = .staStart :: rest) (stepped : state.step .deliver = some next) :
    Sound next := by
  obtain ⟨idle, trying, quiet⟩ := sound.head queue rfl
  rw [WifiState.step, queue] at stepped
  simp only [WifiState.eventHandler, WifiState.connect, if_pos idle] at stepped
  cases stepped
  exact {
    one := by
      simp only [quiet, trying]
      rfl
    retries := by
      rw [failures_skip _ rfl]
      exact sound.retries
    gaveUp := sound.gaveUp.trans (exhausted_append_other (by decide)).symm
    online := by
      rw [filter_decides_skip _ rfl]
      exact sound.online
    everOnline := by simp [sound.everOnline]
    answered := sound.answered
    single := sound.single }

/-- A disconnect is retried while fewer than `MAX_RETRIES` came before it in a row; the next
one ends the retries. -/
theorem Sound.handleDrop (sound : Sound state) {rest : List Event}
    (queue : state.queue = .disconnected :: rest) (stepped : state.step .deliver = some next) :
    Sound next := by
  obtain ⟨idle, trying, quiet⟩ := sound.head queue rfl
  have retries := sound.retries
  have before : ¬ Exhausted state.handled := by
    rw [← sound.gaveUp, trying]
    exact Bool.false_ne_true
  have ends : ((state.handled ++ [Event.disconnected]).filter Event.decides).getLast? =
      some .disconnected := by
    rw [List.filter_append]
    exact List.getLast?_concat
  have online : false = true ↔
      ((state.handled ++ [Event.disconnected]).filter Event.decides).getLast? = some .gotIp := by
    rw [ends]
    decide
  rw [WifiState.step, queue] at stepped
  simp only [WifiState.eventHandler, WifiState.connect, if_pos idle] at stepped
  by_cases left : state.retryCount < maxRetries
  · rw [if_pos left] at stepped
    cases stepped
    have counted : state.retryCount + 1 = min maxRetries (failures state.handled + 1) := by omega
    exact {
      one := by
        simp only [quiet, trying]
        rfl
      retries := by
        rw [failures_append_drop]
        exact counted
      gaveUp := by
        rw [exhausted_append, failures_append_drop, trying]
        have few : ¬ maxRetries < failures state.handled + 1 := by omega
        exact iff_of_false Bool.false_ne_true (not_or.mpr ⟨before, few⟩)
      online := online
      everOnline := by simp [sound.everOnline]
      answered := sound.answered
      single := sound.single }
  · rw [if_neg left] at stepped
    cases stepped
    have counted : state.retryCount = min maxRetries (failures state.handled + 1) := by omega
    exact {
      one := by
        simp only [quiet, idle]
        rfl
      retries := by
        rw [failures_append_drop]
        exact counted
      gaveUp := by
        rw [exhausted_append, failures_append_drop]
        exact iff_of_true rfl (.inr (by omega))
      online := online
      everOnline := by simp [sound.everOnline]
      answered := fun err given => by
        have answer := sound.answered err given
        split_ifs at answer ⊢ with ok
        · exact answer
        · rfl
      single := sound.single }

/-- An address starts the count anew. -/
theorem Sound.handleAddress (sound : Sound state) {rest : List Event}
    (queue : state.queue = .gotIp :: rest) (stepped : state.step .deliver = some next) :
    Sound next := by
  have one := sound.one
  rw [queue, List.countP_cons_of_neg (by decide)] at one
  rw [WifiState.step, queue] at stepped
  cases stepped
  exact {
    one := one
    retries := by
      rw [failures_append_ip]
      rfl
    gaveUp := sound.gaveUp.trans (exhausted_append_other (by decide)).symm
    online := by
      rw [List.filter_append]
      exact iff_of_true rfl List.getLast?_concat
    everOnline := iff_of_true rfl (List.mem_append_right _ List.mem_cons_self)
    answered := fun err given => by
      have answer := sound.answered err given
      split_ifs at answer ⊢ with ok
      · rfl
      · exact answer
    single := sound.single }

theorem Sound.handleOther (sound : Sound state) {rest : List Event}
    (queue : state.queue = .other :: rest) (stepped : state.step .deliver = some next) :
    Sound next := by
  have one := sound.one
  rw [queue, List.countP_cons_of_neg (by decide)] at one
  rw [WifiState.step, queue] at stepped
  cases stepped
  exact {
    one := one
    retries := by
      rw [failures_skip _ rfl]
      exact sound.retries
    gaveUp := sound.gaveUp.trans (exhausted_append_other (by decide)).symm
    online := by
      rw [filter_decides_skip _ rfl]
      exact sound.online
    everOnline := by simp [WifiState.eventHandler, sound.everOnline]
    answered := sound.answered
    single := sound.single }

theorem Sound.deliver (sound : Sound state) (stepped : state.step .deliver = some next) :
    Sound next := by
  cases queue : state.queue with
  | nil => simp [WifiState.step, queue] at stepped
  | cons event rest =>
      cases event with
      | staStart => exact sound.handleStart queue stepped
      | disconnected => exact sound.handleDrop queue stepped
      | gotIp => exact sound.handleAddress queue stepped
      | other => exact sound.handleOther queue stepped

theorem sound_step (state : WifiState) (label : Label) (next : WifiState) (sound : Sound state)
    (stepped : state.step label = some next) : Sound next := by
  cases label with
  | start => exact sound.start stepped
  | drop => exact sound.drop stepped
  | associate => exact sound.associate stepped
  | address => exact sound.address stepped
  | noise =>
      cases stepped
      exact sound.enqueue rfl
  | deliver => exact sound.deliver stepped
  | wake => exact sound.wake stepped

/-! ### Giving up is for good -/

/-- What stays as it is once the handler has given up: the driver is idle, and the handler has
seen its last disconnect. -/
structure Over (drops : Nat) (state : WifiState) : Prop where
  sound : Sound state
  failed : state.failBit = true
  seen : state.handled.count .disconnected = drops

theorem Over.idle {drops : Nat} (gone : Over drops state) :
    state.driver = .idle ∧ state.queue.countP Event.asks = 0 := by
  have one := gone.sound.one
  rw [gone.failed, Bool.toNat_true] at one
  cases driver : state.driver <;> rw [driver] at one <;>
    simp only [Driver.busy, Driver.started, Bool.toNat_true, Bool.toNat_false] at one ⊢ <;> grind

theorem over_step {drops : Nat} (state : WifiState) (label : Label) (next : WifiState)
    (gone : Over drops state) (stepped : state.step label = some next) : Over drops next := by
  obtain ⟨idle, quiet⟩ := gone.idle
  have sound := sound_step state label next gone.sound stepped
  rw [List.countP_eq_zero] at quiet
  cases label with
  | start => simp [WifiState.step, idle] at stepped
  | drop => simp [WifiState.step, idle, Driver.busy] at stepped
  | associate => simp [WifiState.step, idle] at stepped
  | address =>
      simp only [WifiState.step, idle, Driver.started, if_true] at stepped
      cases stepped
      exact ⟨sound, gone.failed, gone.seen⟩
  | noise =>
      cases stepped
      exact ⟨sound, gone.failed, gone.seen⟩
  | deliver =>
      cases queue : state.queue with
      | nil => simp [WifiState.step, queue] at stepped
      | cons event rest =>
          have calm := quiet event (by rw [queue]; exact List.mem_cons_self)
          rw [WifiState.step, queue] at stepped
          cases stepped
          have seen : (state.handled ++ [event]).count .disconnected = drops := by
            cases event <;> simp [Event.asks] at calm <;> simp [gone.seen]
          refine ⟨sound, ?_, seen⟩
          cases event <;> simp [Event.asks] at calm <;> exact gone.failed
  | wake =>
      rw [WifiState.step] at stepped
      split_ifs at stepped
      all_goals
        cases stepped
        exact ⟨sound, gone.failed, gone.seen⟩

end

/-- In every run: no connection is asked for while there is one; `wifi_is_connected` tells
whether an address was the last thing that was reported; until the retries are exhausted exactly
one attempt, connection or event to act on is there, and they are exhausted by 21 disconnects
without an address between them, whenever these come. After that there is no attempt, no
connection and no disconnect any more, and `wifi_init_sta` answers only what has happened. -/
theorem wifi_gives_up {labels : List Label} {final : WifiState}
    (ran : wifiMachine.run labels = some final) :
    final.overlapped = false ∧
    (final.connected = true ↔
      (final.handled.filter Event.decides).getLast? = some .gotIp) ∧
    (final.driver ≠ .off → ¬ Exhausted final.handled →
      final.queue.countP Event.asks + final.driver.busy.toNat = 1) ∧
    (Exhausted final.handled → ∀ more later, wifiMachine.runFrom final more = some later →
      later.driver = .idle ∧
        later.handled.count .disconnected = final.handled.count .disconnected) ∧
    (final.result = some .ok → .gotIp ∈ final.handled) ∧
    (∀ err, final.result = some err → err ≠ .ok → Exhausted final.handled) := by
  have sound : Sound final := Machine.invariant sound_init sound_step ran
  refine ⟨sound.single, sound.online, ?_, ?_, ?_, ?_⟩
  · intro on trying
    have one := sound.one
    rw [← sound.gaveUp, Bool.not_eq_true] at trying
    have started : final.driver.started = true := by
      cases driver : final.driver with
      | off => exact absurd driver on
      | idle | connecting | connected => rfl
    rwa [trying, started, Bool.toNat_false, Bool.toNat_true, Nat.add_zero] at one
  · intro gone more later ranMore
    have ended : Over (final.handled.count .disconnected) final :=
      ⟨sound, sound.gaveUp.mpr gone, rfl⟩
    have kept : Over (final.handled.count .disconnected) later :=
      Machine.history_invariant (fun _ => Over (final.handled.count .disconnected))
        (fun _ state label next gone _ => over_step state label next gone) [] ended
        (wifiMachine.along_true final more) ranMore
    exact ⟨kept.idle.1, kept.seen⟩
  · intro ok
    have answer := sound.answered .ok ok
    rw [if_pos rfl] at answer
    exact sound.everOnline.mp answer
  · intro err given failed
    have answer := sound.answered err given
    rw [if_neg failed] at answer
    exact sound.gaveUp.mp answer

/-- A unit that was online for any time loses its access point for good after 21 losses. -/
def lostAccessPoint : List Label :=
  [.start, .deliver, .associate, .address, .deliver, .wake] ++
    (List.replicate (maxRetries + 1) [Label.drop, .deliver]).flatten

theorem wifi_gives_up_online :
    ∃ final, wifiMachine.run lostAccessPoint = some final ∧ final.result = some .ok ∧
      Exhausted final.handled ∧
      ∀ more later, wifiMachine.runFrom final more = some later → later.driver = .idle := by
  have ends : (wifiMachine.run lostAccessPoint).map
      (fun final => (final.result, decide (maxRetries < failures final.handled))) =
        some (some .ok, true) := by
    decide +kernel
  obtain ⟨final, ran, same⟩ := Option.map_eq_some_iff.mp ends
  obtain ⟨ok, long⟩ := Prod.mk.inj same
  have gone : Exhausted final.handled := .of_failures (of_decide_eq_true long)
  refine ⟨final, ran, ok, gone, fun more later ranMore => ?_⟩
  exact ((wifi_gives_up ran).2.2.2.1 gone more later ranMore).1

end WallUnit.Firmware.Wifi
