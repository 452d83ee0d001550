import ThermalPrinter.Lib.Runs
import ThermalPrinter.Settings.Names

/-!
# Advertising over BLE

A phone finds the printer by its advertisements, and shows the name in the scan response. The
controller stops advertising when a peer connects. Two threads start it again: the thread of the
stack once the peer is gone (`cbk_packet_handler`), and the one that calls `bt_ble_init`, at boot
and for each new name (`CommandSetBTName`). Both call `set_adv_enable`, which tests and sets the
state of the server without holding a lock: the mutex is held around two of the four calls only,
and the state is set to `BLE_ST_INIT_OK` outside of it, also while a peer is connected.

It works all the same: whatever the interleaving, whenever the threads are at rest and no peer is
connected, the printer advertises, and its scan response is made of the current name
(`discoverable`). For while the state is not `BLE_ST_ADV` someone is still to set it, and while it
is, the advertisements are on with the current name, or someone is still to start them or to reset
the state (`Inv`).
-/

namespace ThermalPrinter

open Relation CString

/-- `ADV_RSP_PACKET_MAX`. -/
def ADV_RSP_PACKET_MAX : Nat := 31

/-- `make_eir_packet_data`, at the beginning of a packet: nothing is written if there is no room. -/
def make_eir_packet_data (data_type : UInt8) (data : List UInt8) : Option (List UInt8) :=
  if ADV_RSP_PACKET_MAX < data.length + 2 then none
  else some (.ofNat (data.length + 1) :: data_type :: data)

namespace Names

/-- `make_set_rsp_data`: the scan response. -/
def make_set_rsp_data (s : Names) : Option (List UInt8) :=
  let vaild_len := ADV_RSP_PACKET_MAX - 2
  let name_len := if s.gap_device_name_len > vaild_len then vaild_len else s.gap_device_name_len
  make_eir_packet_data 0x09 ((s.bytes .gap_device_name).take name_len)

/-- `CommandSetBTName` up to its call of `bt_ble_init`. -/
def rename (payload : List UInt8) (mac_addr : Vector UInt8 6) (s : Names) : Names :=
  let s := s.copyPayload payload
  let s := s.write .mac_suffix 0 (macSuffix mac_addr ++ [0])
  s.strncat .edr_name (s.bytes .mac_suffix)
    (MAX_BT_NAME_LEN - (upToNUL (s.bytes .edr_name)).length - 1)

/-- The scan response behind a command: the name that is meant. -/
theorem make_set_rsp_data_renamed (s : Names) (payload : List UInt8) (mac_addr : Vector UInt8 6) :
    (s.rename payload mac_addr).bt_ble_init.make_set_rsp_data =
      some (.ofNat ((gapName payload mac_addr).length + 1) :: 0x09 ::
        gapName payload mac_addr) := by
  have hbytes : (s.rename payload mac_addr).bt_ble_init.bytes .gap_device_name =
      overwrite (s.bytes .gap_device_name) 0 (gapName payload mac_addr) :=
    (bytes_CommandSetBTName s payload mac_addr).2
  have hlen : (s.rename payload mac_addr).bt_ble_init.gap_device_name_len =
      (gapName payload mac_addr).length := by
    obtain ⟨rest, hname⟩ := bytes_strncat s payload mac_addr
    have hread : upToNUL ((s.rename payload mac_addr).bytes .edr_name) = newName payload mac_addr :=
      (congrArg upToNUL hname).trans (upToNUL_append_zero zero_notMem_newName)
    have hcut (n : Nat) : (if n > 24 then 24 else n) = min 24 n := by split <;> omega
    rw [bt_ble_init, hread, gapName, List.length_append, List.length_take]
    exact congrArg (· + 5) (hcut _)
  have hle : (gapName payload mac_addr).length ≤ 29 := length_gapName_le
  have hwhole : (if (gapName payload mac_addr).length > ADV_RSP_PACKET_MAX - 2 then
      ADV_RSP_PACKET_MAX - 2 else (gapName payload mac_addr).length) =
        (gapName payload mac_addr).length := if_neg (by rw [ADV_RSP_PACKET_MAX]; omega)
  have htake : (overwrite (s.bytes .gap_device_name) 0 (gapName payload mac_addr)).take
      (gapName payload mac_addr).length = gapName payload mac_addr := by
    rw [overwrite_zero, List.take_left]
  have hroom : ¬ ADV_RSP_PACKET_MAX < (gapName payload mac_addr).length + 2 := by
    rw [ADV_RSP_PACKET_MAX]
    omega
  rw [make_set_rsp_data, hbytes, hlen, hwhole, htake, make_eir_packet_data, if_neg hroom]

end Names

/-- `ble_state_e`: the states that the server takes. -/
inductive ble_state_e
  | BLE_ST_NULL | BLE_ST_INIT_OK | BLE_ST_IDLE | BLE_ST_CONNECT | BLE_ST_NOTIFY_IDICATE
  | BLE_ST_DISCONN | BLE_ST_ADV
  deriving DecidableEq, Repr

/-- The states in which `set_adv_enable` goes on. -/
def ble_state_e.allowed : ble_state_e → Bool
  | .BLE_ST_ADV | .BLE_ST_IDLE | .BLE_ST_INIT_OK | .BLE_ST_NULL | .BLE_ST_DISCONN => true
  | .BLE_ST_CONNECT | .BLE_ST_NOTIFY_IDICATE => false

/-- What the stack is told of: a connection with its handle, a client configuration that the peer
writes, and the end of the connection. -/
inductive HciEvent
  | connected (con_handle : UInt16)
  | subscribed
  | disconnected
  deriving DecidableEq, Repr

/-- Where a call of `set_adv_enable` is: at the tests of `adv_ctrl_en` and `con_handle`, at the look
at the state, before the new state, before the scan response, before the command. -/
inductive AdvPlace
  | test | look | enter | data | command
  deriving DecidableEq, Repr

/-- Where the thread of the stack is: between two events, behind the handle of a connection or its
end, at the mutex, in its call of `set_adv_enable`, before the mutex is given back. -/
inductive StackPlace
  | idle
  | connected
  | disconnected
  | pend
  | adv (p : AdvPlace)
  | post
  deriving DecidableEq, Repr

/-- Where the other thread is: in no call; in the `bt_ble_adv_enable(0)` of `CommandSetBTName`; in
`bt_ble_init` at the copy of the name, at the new state, at the mutex, at `adv_ctrl_en`, in the call
of `set_adv_enable`, before the mutex is given back; in the `bt_ble_adv_enable(1)` behind it.
`again` tells the call of a command from the one at boot. -/
inductive TaskPlace
  | rest
  | stop (p : AdvPlace)
  | copy (again : Bool)
  | ready (again : Bool)
  | pend (again : Bool)
  | enable (again : Bool)
  | adv (again : Bool) (p : AdvPlace)
  | post (again : Bool)
  | restart (p : AdvPlace)
  deriving DecidableEq, Repr

/-- The two threads. -/
inductive BleThread
  | stack | task
  deriving DecidableEq, Repr

/-- The globals of the server, its two threads, and the controller: the peer it is connected to,
whether it advertises, its scan response, and what it reported that the stack has not taken yet.
`renamed` records the last command. -/
structure Advertiser where
  names : Names
  con_handle : UInt16
  ble_work_state : ble_state_e
  adv_ctrl_en : Bool
  mutex : Option BleThread
  stack : StackPlace
  task : TaskPlace
  link : Option UInt16
  advertising : Bool
  rsp : Option (List UInt8)
  events : List HciEvent
  renamed : Option (List UInt8 × Vector UInt8 6)

namespace Advertiser

/-- `next_state`. -/
def next_state (en : Bool) : ble_state_e := if en then .BLE_ST_ADV else .BLE_ST_IDLE

/-- `set_adv_enable`, from one place to the next. The controller refuses to advertise while a peer
is connected. -/
def set_adv_enable (en : Bool) (s : Advertiser) : AdvPlace → Advertiser × Option AdvPlace
  | .test => (s, if s.adv_ctrl_en = false ∧ en = true ∨ s.con_handle ≠ 0 then none else some .look)
  | .look =>
    (s, if s.ble_work_state.allowed = false ∨ s.ble_work_state = next_state en then none
      else some .enter)
  | .enter =>
    ({ s with ble_work_state := next_state en }, some (if en then .data else .command))
  | .data => ({ s with rsp := s.names.make_set_rsp_data }, some .command)
  | .command => ({ s with advertising := if s.link = none then en else s.advertising }, none)

/-- `cbk_packet_handler`, and `att_write_callback` for a client configuration: the thread of the
stack goes on, if it can. -/
def cbk_packet_handler (s : Advertiser) : Option Advertiser :=
  match s.stack with
  | .idle =>
    match s.events with
    | [] => none
    | .connected con_handle :: events =>
      some { s with con_handle := con_handle, events := events, stack := .connected }
    | .subscribed :: events =>
      some { s with ble_work_state := .BLE_ST_NOTIFY_IDICATE, events := events, stack := .idle }
    | .disconnected :: events =>
      some { s with con_handle := 0, events := events, stack := .disconnected }
  | .connected => some { s with ble_work_state := .BLE_ST_CONNECT, stack := .idle }
  | .disconnected => some { s with ble_work_state := .BLE_ST_DISCONN, stack := .pend }
  | .pend =>
    if s.mutex = none then some { s with mutex := some .stack, stack := .adv .test } else none
  | .adv p =>
    let r := s.set_adv_enable true p
    some { r.1 with stack := r.2.elim .post .adv }
  | .post => some { s with mutex := none, stack := .idle }

/-- `CommandSetBTName` and `bt_ble_init`: the other thread goes on, if it can. -/
def CommandSetBTName (s : Advertiser) : Option Advertiser :=
  match s.task with
  | .rest => none
  | .stop p =>
    let r := s.set_adv_enable false p
    some { r.1 with task := r.2.elim (.copy true) .stop }
  | .copy again => some { s with names := s.names.bt_ble_init, task := .ready again }
  | .ready again => some { s with ble_work_state := .BLE_ST_INIT_OK, task := .pend again }
  | .pend again =>
    if s.mutex = none then some { s with mutex := some .task, task := .enable again } else none
  | .enable again => some { s with adv_ctrl_en := true, task := .adv again .test }
  | .adv again p =>
    let r := s.set_adv_enable true p
    some { r.1 with task := r.2.elim (.post again) (.adv again) }
  | .post again =>
    some { s with mutex := none, task := if again then .restart .test else .rest }
  | .restart p =>
    let r := s.set_adv_enable true p
    some { r.1 with task := r.2.elim .rest .restart }

/-- A thread goes on. -/
def Goes (s s' : Advertiser) : Prop :=
  s.cbk_packet_handler = some s' ∨ s.CommandSetBTName = some s'

/-- What happens: a peer connects to the advertising printer, writes client configurations, and
goes; a command with a new name is executed, the call at boot being over; a thread goes on. The
stack gives no connection the handle 0, which `con_handle` has for none. -/
inductive Step : Advertiser → Advertiser → Prop
  | connect (s : Advertiser) (con_handle : UInt16) :
      con_handle ≠ 0 → s.advertising = true → s.link = none → Step s { s with
        link := some con_handle, advertising := false
        events := s.events ++ [.connected con_handle] }
  | subscribe (s : Advertiser) : s.link ≠ none →
      Step s { s with events := s.events ++ [.subscribed] }
  | disconnect (s : Advertiser) : s.link ≠ none →
      Step s { s with link := none, events := s.events ++ [.disconnected] }
  | rename (s : Advertiser) (payload : List UInt8) (mac_addr : Vector UInt8 6) :
      s.task = .rest → Step s { s with
        names := s.names.rename payload mac_addr, task := .stop .test
        renamed := some (payload, mac_addr) }
  | goes (s s' : Advertiser) : s.Goes s' → Step s s'

/-- The call of `bt_ble_init` at boot, with any name. -/
def init (names : Names) : Advertiser where
  names := names
  con_handle := 0
  ble_work_state := .BLE_ST_NULL
  adv_ctrl_en := false
  mutex := none
  stack := .idle
  task := .copy false
  link := none
  advertising := false
  rsp := none
  events := []
  renamed := none

/-- The threads are at rest. -/
def Rests (s : Advertiser) : Prop := s.stack = .idle ∧ s.events = [] ∧ s.task = .rest

/-- A peer is connected, or the stack has still to take that it came or went. -/
def Linked (s : Advertiser) : Prop :=
  s.link ≠ none ∨ s.events ≠ [] ∨ s.stack = .connected ∨ s.stack = .disconnected

/-- The scan response is made of the current name. -/
def Fresh (s : Advertiser) : Prop := s.rsp = s.names.make_set_rsp_data

end Advertiser

/-- A call of `set_adv_enable` is still to set the state. -/
def AdvPlace.Sets : AdvPlace → Prop
  | .test | .look | .enter => True
  | .data | .command => False

/-- The thread of the stack is at the end of a connection, or still to set `BLE_ST_ADV`. -/
def StackPlace.Sets : StackPlace → Prop
  | .pend => True
  | .adv p => p.Sets
  | _ => False

/-- The thread of the stack has set `BLE_ST_ADV` and is still to start the advertisements. -/
def StackPlace.Starts (fresh : Prop) : StackPlace → Prop
  | .adv .data => True
  | .adv .command => fresh
  | _ => False

/-- The other thread is still to set `BLE_ST_INIT_OK`. -/
def TaskPlace.Resets : TaskPlace → Prop
  | .stop _ | .copy _ | .ready _ => True
  | _ => False

/-- The other thread has set `BLE_ST_INIT_OK` and is still to set `BLE_ST_ADV`. -/
def TaskPlace.Sets : TaskPlace → Prop
  | .pend _ | .enable _ => True
  | .adv _ p => p.Sets
  | _ => False

/-- The other thread has set `BLE_ST_ADV` and is still to start the advertisements. -/
def TaskPlace.Starts (fresh : Prop) : TaskPlace → Prop
  | .adv _ .data | .restart .data => True
  | .adv _ .command | .restart .command => fresh
  | _ => False

/-- The call at boot has not set `adv_ctrl_en` yet. -/
def TaskPlace.Boots : TaskPlace → Prop
  | .copy again | .ready again | .pend again | .enable again => again = false
  | _ => False

/-- The new name has been copied. -/
def TaskPlace.Copied : TaskPlace → Prop
  | .stop _ | .copy _ => False
  | _ => True

namespace Advertiser

/-- The event is taken. -/
def take (con_handle : UInt16) : HciEvent → UInt16
  | .connected con_handle => con_handle
  | .subscribed => con_handle
  | .disconnected => 0

/-- Connections have handles, and configurations are written by a peer. -/
def Orderly : UInt16 → List HciEvent → Prop
  | _, [] => True
  | _, .connected con_handle :: events => con_handle ≠ 0 ∧ Orderly con_handle events
  | con_handle, .subscribed :: events => con_handle ≠ 0 ∧ Orderly con_handle events
  | _, .disconnected :: events => Orderly 0 events

/-- The handle of the server is that of the peer, once the events are taken. -/
structure Handles (s : Advertiser) : Prop where
  link : ∀ con_handle ∈ s.link, con_handle ≠ 0
  orderly : Orderly s.con_handle s.events
  events : s.events.foldl take s.con_handle = s.link.getD 0
  taken : s.stack = .connected → s.con_handle ≠ 0
  gone : s.stack = .disconnected ∨ s.stack.Sets → s.con_handle = 0
  state : s.ble_work_state.allowed = false → s.con_handle ≠ 0 ∨ s.stack = .disconnected

/-- What holds in every state of every run. While the state is not `BLE_ST_ADV`, someone is still to
set it; and while it is, the advertisements are on with the current name, or someone is still to
start them or to reset the state. -/
structure Inv (s : Advertiser) : Prop where
  handles : s.Handles
  boots : s.adv_ctrl_en = false → s.task.Boots ∧ s.stack = .idle ∧ s.events = [] ∧ s.link = none ∧
    s.advertising = false
  due : s.ble_work_state ≠ .BLE_ST_ADV → s.Linked ∨ s.stack.Sets ∨ s.task.Resets ∨ s.task.Sets
  on : s.ble_work_state = .BLE_ST_ADV → s.Linked ∨ s.task.Resets ∨ s.stack.Starts s.Fresh ∨
    s.task.Starts s.Fresh ∨ s.advertising = true ∧ s.Fresh

variable {s s' : Advertiser} {names : Names} {p : AdvPlace} {en again : Bool}
  {stack : StackPlace} {task : TaskPlace}

theorem init_inv (names : Names) : (init names).Inv where
  handles := {
    link := nofun
    orderly := trivial
    events := rfl
    taken := nofun
    gone := by
      rintro (h | h) <;> cases h
    state := nofun }
  boots := fun _ => ⟨rfl, rfl, rfl, rfl, rfl⟩
  due := fun _ => .inr (.inr (.inl trivial))
  on := nofun

/-! ## The handle -/

theorem Orderly.tail {con_handle : UInt16} {event : HciEvent} {events : List HciEvent}
    (h : Orderly con_handle (event :: events)) : Orderly (take con_handle event) events := by
  cases event with
  | connected | subscribed => exact h.2
  | disconnected => exact h

/-- One more event is reported. -/
theorem Orderly.concat {con_handle : UInt16} {event : HciEvent} {events : List HciEvent}
    (h : Orderly con_handle events)
    (hevent : event ≠ .disconnected → take (events.foldl take con_handle) event ≠ 0) :
    Orderly con_handle (events ++ [event]) := by
  induction events generalizing con_handle with
  | nil =>
    cases event with
    | connected | subscribed => exact ⟨hevent HciEvent.noConfusion, trivial⟩
    | disconnected => trivial
  | cons first events ih =>
    have htail := ih h.tail hevent
    cases first with
    | connected | subscribed => exact ⟨h.1, htail⟩
    | disconnected => exact htail

/-- A handle that the server has is that of a peer, or of one whose end it has still to take. -/
theorem Handles.linked (h : s.Handles) (hhandle : s.con_handle ≠ 0) : s.Linked := by
  by_contra hlink
  rw [Linked, not_or, not_or, not_not, not_not] at hlink
  obtain ⟨hlink, hevents, -⟩ := hlink
  have heq := h.events
  rw [hlink, hevents] at heq
  exact hhandle heq

/-- In the states of a connection there is one. -/
theorem Handles.linked_of_state (h : s.Handles) (hstate : s.ble_work_state.allowed = false) :
    s.Linked := by
  rcases h.state hstate with hhandle | hstack
  · exact h.linked hhandle
  · exact .inr (.inr (.inr hstack))

/-- The other thread leaves the handle alone, and sets no state of a connection. -/
theorem Handles.congr (h : s.Handles) (hlink : s'.link = s.link) (hevents : s'.events = s.events)
    (hhandle : s'.con_handle = s.con_handle) (hstack : s'.stack = s.stack)
    (hstate : s'.ble_work_state.allowed = false → s.ble_work_state.allowed = false) :
    s'.Handles where
  link := hlink ▸ h.link
  orderly := by rw [hevents, hhandle]; exact h.orderly
  events := by rw [hevents, hhandle, hlink, h.events]
  taken := by rw [hstack, hhandle]; exact h.taken
  gone := by rw [hstack, hhandle]; exact h.gone
  state := fun hs => by rw [hstack, hhandle]; exact h.state (hstate hs)

/-- The thread of the stack changes its place, outside of taking events. -/
theorem Handles.moves (h : s.Handles) {ble_work_state : ble_state_e} {mutex : Option BleThread}
    {rsp : Option (List UInt8)} {advertising : Bool}
    (hidle : s.stack ≠ .disconnected) (hstack : stack ≠ .connected ∧ stack ≠ .disconnected)
    (hsets : stack.Sets → s.stack.Sets)
    (hstate : ble_work_state.allowed = false → s.ble_work_state.allowed = false) :
    { s with
      ble_work_state := ble_work_state, mutex := mutex, rsp := rsp, advertising := advertising
      stack := stack }.Handles where
  link := h.link
  orderly := h.orderly
  events := h.events
  taken := fun hs => absurd hs hstack.1
  gone := fun hs => h.gone (hs.imp (fun hs => absurd hs hstack.2) hsets)
  state := fun hs => (h.state (hstate hs)).imp_right fun hs => absurd hs hidle

/-- A connection is taken, or its end. -/
theorem Handles.take_event (h : s.Handles) {event : HciEvent} {events : List HciEvent}
    (hevents : s.events = event :: events)
    (hstack : stack = .connected ∧ take s.con_handle event ≠ 0 ∨
      stack = .disconnected ∧ take s.con_handle event = 0) :
    { s with con_handle := take s.con_handle event, events := events, stack := stack }.Handles where
  link := h.link
  orderly := (hevents ▸ h.orderly).tail
  events := by
    have heq := h.events
    rwa [hevents] at heq
  taken := fun hs => by
    rcases hstack with ⟨-, hne⟩ | ⟨hd, -⟩
    · exact hne
    · rw [hd] at hs
      cases hs
  gone := fun hs => by
    rcases hstack with ⟨hc, -⟩ | ⟨-, hzero⟩
    · rw [hc] at hs
      rcases hs with hs | hs <;> cases hs
    · exact hzero
  state := fun _ => hstack.imp And.right And.left

/-- A client configuration is taken: there is a connection. -/
theorem Handles.take_subscribed (h : s.Handles) {events : List HciEvent}
    (hevents : s.events = .subscribed :: events) :
    { s with
      ble_work_state := .BLE_ST_NOTIFY_IDICATE, events := events, stack := .idle }.Handles ∧
      s.con_handle ≠ 0 := by
  have horderly := h.orderly
  have heq := h.events
  rw [hevents] at horderly heq
  refine ⟨?_, horderly.1⟩
  exact {
    link := h.link
    orderly := horderly.2
    events := heq
    taken := nofun
    gone := fun hs => hs.elim nofun False.elim
    state := fun _ => .inl horderly.1 }

/-! ## The thread of the stack -/

/-- The thread of the stack has been reached after boot. -/
theorem Inv.enabled (h : s.Inv) (hstack : s.stack ≠ .idle) : s.adv_ctrl_en = true :=
  Bool.not_eq_false _ ▸ fun hoff => hstack (h.boots hoff).2.1

/-- What is owed because of a peer is owed still. -/
theorem Linked.moves (h : s.Linked) (hstack : s.stack ≠ .connected ∧ s.stack ≠ .disconnected)
    (hlink : s'.link = s.link) (hevents : s'.events = s.events) : s'.Linked := by
  rcases h with h | h | h | h
  · exact .inl (hlink ▸ h)
  · exact .inr (.inl (hevents ▸ h))
  · exact absurd h hstack.1
  · exact absurd h hstack.2

/-- The thread of the stack changes its place, and the mutex, only. -/
theorem Inv.stack_moves (h : s.Inv) {mutex : Option BleThread} (hidle : s.stack ≠ .idle)
    (hfrom : s.stack ≠ .connected ∧ s.stack ≠ .disconnected)
    (hto : stack ≠ .connected ∧ stack ≠ .disconnected) (hsets : stack.Sets → s.stack.Sets)
    (hdue : s.ble_work_state ≠ .BLE_ST_ADV → s.stack.Sets → stack.Sets)
    (hon : ¬ s.stack.Starts s.Fresh) : { s with mutex := mutex, stack := stack }.Inv where
  handles := h.handles.moves hfrom.2 hto hsets id
  boots := fun hoff => absurd hoff (Bool.not_eq_false _ ▸ h.enabled hidle)
  due := fun hne => by
    rcases h.due hne with hlinked | hstack | hresets | htask
    · exact .inl (hlinked.moves hfrom rfl rfl)
    · exact .inr (.inl (hdue hne hstack))
    · exact .inr (.inr (.inl hresets))
    · exact .inr (.inr (.inr htask))
  on := fun hadv => by
    rcases h.on hadv with hlinked | hresets | hstack | hrest
    · exact .inl (hlinked.moves hfrom rfl rfl)
    · exact .inr (.inl hresets)
    · exact absurd hstack hon
    · exact .inr (.inr (.inr hrest))

/-- Its call of `set_adv_enable` at each place. -/
theorem Inv.stack_adv (h : s.Inv) (hs : s.stack = .adv p) :
    { (s.set_adv_enable true p).1 with
      stack := (s.set_adv_enable true p).2.elim .post .adv }.Inv := by
  have hidle : s.stack ≠ .idle := by
    rw [hs]
    exact StackPlace.noConfusion
  have hfrom : s.stack ≠ .connected ∧ s.stack ≠ .disconnected := by
    rw [hs]
    exact ⟨StackPlace.noConfusion, StackPlace.noConfusion⟩
  have hto (p : AdvPlace) : StackPlace.adv p ≠ .connected ∧ StackPlace.adv p ≠ .disconnected :=
    ⟨StackPlace.noConfusion, StackPlace.noConfusion⟩
  have hpost : StackPlace.post ≠ .connected ∧ StackPlace.post ≠ .disconnected :=
    ⟨StackPlace.noConfusion, StackPlace.noConfusion⟩
  have hen := h.enabled hidle
  cases p with
  | test =>
    have hzero : s.con_handle = 0 := h.handles.gone (.inr (by rw [hs]; trivial))
    have hpass : s.set_adv_enable true .test = (s, some .look) := by
      simp [set_adv_enable, hen, hzero]
    rw [hpass]
    exact h.stack_moves hidle hfrom (hto _) (fun _ => by rw [hs]; trivial) (fun _ _ => trivial)
      (by rw [hs]; exact id)
  | look =>
    have hstate : s.ble_work_state.allowed ≠ false := by
      intro hstate
      rcases h.handles.state hstate with hhandle | hstack
      · exact hhandle (h.handles.gone (.inr (by rw [hs]; trivial)))
      · exact hfrom.2 hstack
    by_cases hadv : s.ble_work_state = .BLE_ST_ADV
    · have hback : s.set_adv_enable true .look = (s, none) := by
        simp [set_adv_enable, next_state, hadv]
      rw [hback]
      exact h.stack_moves hidle hfrom hpost False.elim (fun hne => absurd hadv hne)
        (by rw [hs]; exact id)
    · have hpass : s.set_adv_enable true .look = (s, some .enter) := by
        simp [set_adv_enable, next_state, hadv, hstate]
      rw [hpass]
      exact h.stack_moves hidle hfrom (hto _) (fun _ => by rw [hs]; trivial) (fun _ _ => trivial)
        (by rw [hs]; exact id)
  | enter =>
    exact {
      handles := h.handles.moves hfrom.2 (hto _) False.elim nofun
      boots := fun hoff => absurd hoff (Bool.not_eq_false _ ▸ hen)
      due := fun hne => absurd rfl hne
      on := fun _ => .inr (.inr (.inl trivial)) }
  | data =>
    exact {
      handles := h.handles.moves hfrom.2 (hto _) False.elim id
      boots := fun hoff => absurd hoff (Bool.not_eq_false _ ▸ hen)
      due := fun hne => by
        rcases h.due hne with hlinked | hstack | hrest
        · exact .inl (hlinked.moves hfrom rfl rfl)
        · rw [hs] at hstack
          exact hstack.elim
        · exact .inr (.inr hrest)
      on := fun _ => .inr (.inr (.inl rfl)) }
  | command =>
    have hlink (hlink : ¬ s.link = none) (s' : Advertiser) (heq : s'.link = s.link) : s'.Linked :=
      .inl (heq ▸ hlink)
    refine {
      handles := h.handles.moves hfrom.2 hpost False.elim id
      boots := fun hoff => absurd hoff (Bool.not_eq_false _ ▸ hen)
      due := fun hne => ?_
      on := fun hadv => ?_ }
    · rcases h.due hne with hlinked | hstack | hrest
      · exact .inl (hlinked.moves hfrom rfl rfl)
      · rw [hs] at hstack
        exact hstack.elim
      · exact .inr (.inr hrest)
    · by_cases hnone : s.link = none
      · rcases h.on hadv with hlinked | hresets | hstack | htask | ⟨-, hfresh⟩
        · exact .inl (hlinked.moves hfrom rfl rfl)
        · exact .inr (.inl hresets)
        · rw [hs] at hstack
          exact .inr (.inr (.inr (.inr ⟨if_pos hnone, hstack⟩)))
        · exact .inr (.inr (.inr (.inl htask)))
        · exact .inr (.inr (.inr (.inr ⟨if_pos hnone, hfresh⟩)))
      · exact .inl (hlink hnone _ rfl)

/-- The thread of the stack keeps it. -/
theorem Inv.cbk_packet_handler (h : s.Inv) (hgo : s.cbk_packet_handler = some s') : s'.Inv := by
  unfold Advertiser.cbk_packet_handler at hgo
  cases hs : s.stack with
  | idle =>
    rw [hs] at hgo
    dsimp only at hgo
    split at hgo
    next => cases hgo
    next con_handle events he =>
      cases hgo
      have horderly := h.handles.orderly
      rw [he] at horderly
      exact {
        handles := h.handles.take_event he (.inl ⟨rfl, horderly.1⟩)
        boots := fun hoff => absurd (he ▸ (h.boots hoff).2.2.1) (List.cons_ne_nil _ _)
        due := fun _ => .inl (.inr (.inr (.inl rfl)))
        on := fun _ => .inl (.inr (.inr (.inl rfl))) }
    next events he =>
      cases hgo
      have hlinked := h.handles.take_subscribed he
      exact {
        handles := hlinked.1
        boots := fun hoff => absurd (he ▸ (h.boots hoff).2.2.1) (List.cons_ne_nil _ _)
        due := fun _ => .inl (hlinked.1.linked hlinked.2)
        on := nofun }
    next events he =>
      cases hgo
      exact {
        handles := h.handles.take_event he (.inr ⟨rfl, rfl⟩)
        boots := fun hoff => absurd (he ▸ (h.boots hoff).2.2.1) (List.cons_ne_nil _ _)
        due := fun _ => .inl (.inr (.inr (.inr rfl)))
        on := fun _ => .inl (.inr (.inr (.inr rfl))) }
  | connected =>
    rw [hs] at hgo
    cases hgo
    have hhandle := h.handles.taken hs
    have hlinked : s.link ≠ none ∨ s.events ≠ [] := by
      by_contra hnone
      rw [not_or, not_not, not_not] at hnone
      have heq := h.handles.events
      rw [hnone.1, hnone.2] at heq
      exact hhandle heq
    exact {
      handles := {
        link := h.handles.link
        orderly := h.handles.orderly
        events := h.handles.events
        taken := nofun
        gone := fun hs => hs.elim nofun False.elim
        state := fun _ => .inl hhandle }
      boots := fun hoff => absurd (hs ▸ (h.boots hoff).2.1) StackPlace.noConfusion
      due := fun _ => .inl (hlinked.imp_right .inl)
      on := nofun }
  | disconnected =>
    rw [hs] at hgo
    cases hgo
    have hzero := h.handles.gone (.inl hs)
    exact {
      handles := {
        link := h.handles.link
        orderly := h.handles.orderly
        events := h.handles.events
        taken := nofun
        gone := fun _ => hzero
        state := nofun }
      boots := fun hoff => absurd (hs ▸ (h.boots hoff).2.1) StackPlace.noConfusion
      due := fun _ => .inr (.inl trivial)
      on := nofun }
  | pend =>
    rw [hs] at hgo
    dsimp only at hgo
    split at hgo
    next =>
      cases hgo
      refine h.stack_moves ?_ ?_ ⟨StackPlace.noConfusion, StackPlace.noConfusion⟩
        (fun _ => by rw [hs]; trivial) (fun _ _ => trivial) ?_
      · rw [hs]
        exact StackPlace.noConfusion
      · rw [hs]
        exact ⟨StackPlace.noConfusion, StackPlace.noConfusion⟩
      · rw [hs]
        exact id
    next => cases hgo
  | adv p =>
    rw [hs] at hgo
    cases hgo
    exact h.stack_adv hs
  | post =>
    rw [hs] at hgo
    cases hgo
    refine h.stack_moves ?_ ?_ ⟨StackPlace.noConfusion, StackPlace.noConfusion⟩ False.elim ?_ ?_
    · rw [hs]
      exact StackPlace.noConfusion
    · rw [hs]
      exact ⟨StackPlace.noConfusion, StackPlace.noConfusion⟩
    · rw [hs]
      exact fun _ => id
    · rw [hs]
      exact id

/-! ## The other thread -/

/-- The other thread changes its place, the mutex and `adv_ctrl_en`, only. -/
theorem Inv.task_moves (h : s.Inv) {mutex : Option BleThread} {adv_ctrl_en : Bool}
    (hboots : adv_ctrl_en = false → s.adv_ctrl_en = false ∧ task.Boots)
    (hresets : s.task.Resets → task.Resets)
    (hsets : s.ble_work_state ≠ .BLE_ST_ADV → s.task.Sets → s.Linked ∨ task.Sets)
    (hon : ¬ s.task.Starts s.Fresh) :
    { s with mutex := mutex, adv_ctrl_en := adv_ctrl_en, task := task }.Inv where
  handles := h.handles.congr rfl rfl rfl rfl id
  boots := fun hoff => ⟨(hboots hoff).2, (h.boots (hboots hoff).1).2⟩
  due := fun hne => by
    rcases h.due hne with hlinked | hstack | htask | htask
    · exact .inl hlinked
    · exact .inr (.inl hstack)
    · exact .inr (.inr (.inl (hresets htask)))
    · exact (hsets hne htask).imp_right fun htask => .inr (.inr htask)
  on := fun hadv => by
    rcases h.on hadv with hlinked | htask | hstack | htask | hstarted
    · exact .inl hlinked
    · exact .inr (.inl (hresets htask))
    · exact .inr (.inr (.inl hstack))
    · exact absurd htask hon
    · exact .inr (.inr (.inr (.inr hstarted)))

/-- The places of a call `set_adv_enable(0, 1)` of the other thread, and the one behind it. -/
structure Enabling (place : AdvPlace → TaskPlace) (behind : TaskPlace) : Prop where
  starts : ∀ p fresh, (place p).Starts fresh ↔ p = .data ∨ p = .command ∧ fresh
  boots : ∀ p, ¬ (place p).Boots
  resets : ∀ p, ¬ (place p).Resets
  sets : ∀ p p', p'.Sets → (place p).Sets → (place p').Sets
  set : ∀ p, (place p).Sets → p.Sets

theorem enabling_adv (again : Bool) : Enabling (.adv again) (.post again) where
  starts := fun p fresh => by cases p <;> simp [TaskPlace.Starts]
  boots := fun _ => id
  resets := fun _ => id
  sets := fun _ _ hp _ => hp
  set := fun _ => id

theorem enabling_restart : Enabling .restart .rest where
  starts := fun p fresh => by cases p <;> simp [TaskPlace.Starts]
  boots := fun _ => id
  resets := fun _ => id
  sets := fun _ _ _ => False.elim
  set := fun _ => False.elim

/-- Such a call at each place. -/
theorem Inv.task_adv (h : s.Inv) {place : AdvPlace → TaskPlace} {behind : TaskPlace}
    (hplace : Enabling place behind) (hs : s.task = place p) :
    { (s.set_adv_enable true p).1 with
      task := (s.set_adv_enable true p).2.elim behind place }.Inv := by
  have hen : s.adv_ctrl_en = true :=
    Bool.not_eq_false _ ▸ fun hoff => hplace.boots p (hs ▸ (h.boots hoff).1)
  have hoff {P : Prop} (hoff : s.adv_ctrl_en = false) : P :=
    absurd hoff (Bool.not_eq_false _ ▸ hen)
  have hresets : ¬ s.task.Resets := hs ▸ hplace.resets p
  have hstarts : s.task.Starts s.Fresh → p = .data ∨ p = .command ∧ s.Fresh :=
    hs ▸ (hplace.starts p s.Fresh).1
  cases p with
  | test =>
    have hon : ¬ s.task.Starts s.Fresh := fun ht => by simpa using hstarts ht
    by_cases hhandle : s.con_handle = 0
    · have hpass : s.set_adv_enable true .test = (s, some .look) := by
        simp [set_adv_enable, hen, hhandle]
      rw [hpass]
      exact h.task_moves hoff (fun ht => absurd ht hresets)
        (fun _ ht => .inr (hplace.sets .test .look trivial (hs ▸ ht))) hon
    · have hback : s.set_adv_enable true .test = (s, none) := by
        simp [set_adv_enable, hhandle]
      rw [hback]
      exact h.task_moves hoff (fun ht => absurd ht hresets)
        (fun _ _ => .inl (h.handles.linked hhandle)) hon
  | look =>
    have hon : ¬ s.task.Starts s.Fresh := fun ht => by simpa using hstarts ht
    by_cases hback : s.ble_work_state.allowed = false ∨ s.ble_work_state = .BLE_ST_ADV
    · have hback' : s.set_adv_enable true .look = (s, none) := by
        simp [set_adv_enable, next_state, hback]
      rw [hback']
      refine h.task_moves hoff (fun ht => absurd ht hresets) (fun hne _ => ?_) hon
      exact .inl (h.handles.linked_of_state (hback.resolve_right hne))
    · have hpass : s.set_adv_enable true .look = (s, some .enter) := by
        simp [set_adv_enable, next_state, hback]
      rw [hpass]
      exact h.task_moves hoff (fun ht => absurd ht hresets)
        (fun _ ht => .inr (hplace.sets .look .enter trivial (hs ▸ ht))) hon
  | enter =>
    exact {
      handles := h.handles.congr rfl rfl rfl rfl nofun
      boots := hoff
      due := fun hne => absurd rfl hne
      on := fun _ => .inr (.inr (.inr (.inl ((hplace.starts .data _).2 (.inl rfl))))) }
  | data =>
    exact {
      handles := h.handles.congr rfl rfl rfl rfl id
      boots := hoff
      due := fun hne => by
        rcases h.due hne with hlinked | hstack | htask | htask
        · exact .inl hlinked
        · exact .inr (.inl hstack)
        · exact absurd htask hresets
        · exact (hplace.set .data (hs ▸ htask)).elim
      on := fun _ => .inr (.inr (.inr (.inl ((hplace.starts .command _).2 (.inr ⟨rfl, rfl⟩))))) }
  | command =>
    refine {
      handles := h.handles.congr rfl rfl rfl rfl id
      boots := hoff
      due := fun hne => ?_
      on := fun hadv => ?_ }
    · rcases h.due hne with hlinked | hstack | htask | htask
      · exact .inl hlinked
      · exact .inr (.inl hstack)
      · exact absurd htask hresets
      · exact (hplace.set .command (hs ▸ htask)).elim
    · by_cases hnone : s.link = none
      · rcases h.on hadv with hlinked | htask | hstack | htask | ⟨-, hfresh⟩
        · exact .inl hlinked
        · exact absurd htask hresets
        · exact .inr (.inr (.inl hstack))
        · have hfresh := (hstarts htask).resolve_left AdvPlace.noConfusion
          exact .inr (.inr (.inr (.inr ⟨if_pos hnone, hfresh.2⟩)))
        · exact .inr (.inr (.inr (.inr ⟨if_pos hnone, hfresh⟩)))
      · exact .inl (.inl hnone)

/-- While the other thread is still to reset the state, nothing else is asked. -/
theorem Inv.of_resets (h : s.Inv) {names : Names} {ble_work_state : ble_state_e}
    {advertising : Bool} {rsp : Option (List UInt8)}
    (hstate : ble_work_state.allowed = false → s.ble_work_state.allowed = false)
    (hboots : s.adv_ctrl_en = false → task.Boots ∧ advertising = false) (hresets : task.Resets) :
    { s with
      names := names, ble_work_state := ble_work_state, advertising := advertising, rsp := rsp
      task := task }.Inv where
  handles := h.handles.congr rfl rfl rfl rfl hstate
  boots := fun hoff =>
    have ⟨_, hidle, hevents, hlink, _⟩ := h.boots hoff
    ⟨(hboots hoff).1, hidle, hevents, hlink, (hboots hoff).2⟩
  due := fun _ => .inr (.inr (.inl hresets))
  on := fun _ => .inr (.inl hresets)

/-- The other thread keeps it. -/
theorem Inv.CommandSetBTName (h : s.Inv) (hgo : s.CommandSetBTName = some s') : s'.Inv := by
  have hboots : s.adv_ctrl_en = false → s.task.Boots := fun hoff => (h.boots hoff).1
  unfold Advertiser.CommandSetBTName at hgo
  cases hs : s.task with
  | rest =>
    rw [hs] at hgo
    cases hgo
  | stop p =>
    rw [hs] at hgo hboots
    have hresets (next : Option AdvPlace) :
        (next.elim (TaskPlace.copy true) .stop).Resets := by
      cases next <;> trivial
    have hoff {P : Prop} (hoff : s.adv_ctrl_en = false) : P := (hboots hoff).elim
    cases hgo
    cases p with
    | test | look | data | command => exact h.of_resets id hoff (hresets _)
    | enter => exact h.of_resets nofun hoff (hresets _)
  | copy again =>
    rw [hs] at hgo hboots
    cases hgo
    exact h.of_resets id (fun hoff => ⟨hboots hoff, (h.boots hoff).2.2.2.2⟩) trivial
  | ready again =>
    rw [hs] at hgo hboots
    cases hgo
    exact {
      handles := h.handles.congr rfl rfl rfl rfl nofun
      boots := fun hoff => ⟨hboots hoff, (h.boots hoff).2⟩
      due := fun _ => .inr (.inr (.inr trivial))
      on := nofun }
  | pend again =>
    rw [hs] at hgo hboots
    dsimp only at hgo
    split at hgo
    next =>
      cases hgo
      refine h.task_moves (fun hoff => ⟨hoff, hboots hoff⟩) ?_ (fun _ _ => .inr trivial) ?_
      · rw [hs]
        exact id
      · rw [hs]
        exact id
    next => cases hgo
  | enable again =>
    rw [hs] at hgo
    cases hgo
    refine h.task_moves nofun ?_ (fun _ _ => .inr trivial) ?_
    · rw [hs]
      exact id
    · rw [hs]
      exact id
  | adv again p =>
    rw [hs] at hgo
    cases hgo
    exact h.task_adv (enabling_adv again) hs
  | post again =>
    rw [hs] at hgo hboots
    cases hgo
    refine h.task_moves (fun hoff => (hboots hoff).elim) ?_ ?_ ?_
    · rw [hs]
      exact False.elim
    · rw [hs]
      exact fun _ => False.elim
    · rw [hs]
      exact id
  | restart p =>
    rw [hs] at hgo
    cases hgo
    exact h.task_adv enabling_restart hs

/-! ## Every interleaving -/

/-- Every action keeps it. -/
theorem Inv.step (h : s.Inv) (hstep : Step s s') : s'.Inv := by
  cases hstep with
  | connect con_handle hne hadvertising hnone =>
    have hlinked : Option.some con_handle ≠ none := Option.some_ne_none con_handle
    exact {
      handles := {
        link := fun c hc => Option.some.inj hc ▸ hne
        orderly := h.handles.orderly.concat fun _ => hne
        events := by rw [List.foldl_concat]; rfl
        taken := h.handles.taken
        gone := h.handles.gone
        state := h.handles.state }
      boots := fun hoff => absurd ((h.boots hoff).2.2.2.2.symm.trans hadvertising) Bool.noConfusion
      due := fun _ => .inl (.inl hlinked)
      on := fun _ => .inl (.inl hlinked) }
  | subscribe hsome =>
    obtain ⟨con_handle, hlink⟩ := Option.ne_none_iff_exists'.1 hsome
    have hhandle : s.events.foldl take s.con_handle ≠ 0 := by
      rw [h.handles.events, hlink]
      exact h.handles.link con_handle hlink
    exact {
      handles := {
        link := h.handles.link
        orderly := h.handles.orderly.concat fun _ => hhandle
        events := by rw [List.foldl_concat]; exact h.handles.events
        taken := h.handles.taken
        gone := h.handles.gone
        state := h.handles.state }
      boots := fun hoff => absurd (h.boots hoff).2.2.2.1 hsome
      due := fun _ => .inl (.inl hsome)
      on := fun _ => .inl (.inl hsome) }
  | disconnect hsome =>
    have hevents : s.events ++ [HciEvent.disconnected] ≠ [] :=
      List.append_ne_nil_of_right_ne_nil _ (List.cons_ne_nil _ _)
    exact {
      handles := {
        link := fun c hc => absurd hc (Option.not_mem_none c)
        orderly := h.handles.orderly.concat fun hne => absurd rfl hne
        events := by rw [List.foldl_concat]; rfl
        taken := h.handles.taken
        gone := h.handles.gone
        state := h.handles.state }
      boots := fun hoff => absurd (h.boots hoff).2.2.2.1 hsome
      due := fun _ => .inl (.inr (.inl hevents))
      on := fun _ => .inl (.inr (.inl hevents)) }
  | rename payload mac_addr hrest =>
    exact {
      handles := h.handles.congr rfl rfl rfl rfl id
      boots := fun hoff => by
        have hboots := (h.boots hoff).1
        rw [hrest] at hboots
        exact hboots.elim
      due := fun _ => .inr (.inr (.inl trivial))
      on := fun _ => .inr (.inl trivial) }
  | goes _ hgo =>
    rcases hgo with hgo | hgo
    · exact h.cbk_packet_handler hgo
    · exact h.CommandSetBTName hgo

theorem inv_of_run (h : ReflTransGen Step (init names) s) : s.Inv :=
  Runs.invariant (I := Inv) (fun _ _ hI hstep => hI.step hstep) h (init_inv names)

/-- The names are those of the last command. -/
def Named (s : Advertiser) : Prop :=
  ∀ payload mac_addr, s.renamed = some (payload, mac_addr) → ∃ base : Names,
    (s.task.Copied → s.names = (base.rename payload mac_addr).bt_ble_init) ∧
      (¬ s.task.Copied → s.names = base.rename payload mac_addr)

/-- Whatever leaves the names, and their copy due or done, keeps this. -/
theorem Named.congr (h : s.Named) (hnames : s'.names = s.names) (hrenamed : s'.renamed = s.renamed)
    (htask : s'.task.Copied ↔ s.task.Copied) : s'.Named := by
  intro payload mac_addr hlast
  obtain ⟨base, hdone, hdue⟩ := h payload mac_addr (hrenamed ▸ hlast)
  refine ⟨base, fun hcopied => ?_, fun hcopied => ?_⟩
  · rw [hnames, hdone (htask.1 hcopied)]
  · rw [hnames, hdue fun hc => hcopied (htask.2 hc)]

/-- The thread of the stack leaves the names alone. -/
theorem Named.cbk_packet_handler (h : s.Named) (hgo : s.cbk_packet_handler = some s') :
    s'.Named := by
  unfold Advertiser.cbk_packet_handler at hgo
  cases hs : s.stack with
  | idle =>
    rw [hs] at hgo
    dsimp only at hgo
    split at hgo
    next => cases hgo
    all_goals
      cases hgo
      exact h.congr rfl rfl Iff.rfl
  | connected | disconnected | post =>
    rw [hs] at hgo
    cases hgo
    exact h.congr rfl rfl Iff.rfl
  | pend =>
    rw [hs] at hgo
    dsimp only at hgo
    split at hgo
    next =>
      cases hgo
      exact h.congr rfl rfl Iff.rfl
    next => cases hgo
  | adv p =>
    rw [hs] at hgo
    cases hgo
    cases p <;> exact h.congr rfl rfl Iff.rfl

/-- The other thread copies the name of the last command. -/
theorem Named.CommandSetBTName (h : s.Named) (hgo : s.CommandSetBTName = some s') : s'.Named := by
  have hadv {en : Bool} {p : AdvPlace} {task : TaskPlace} (htask : task.Copied ↔ s.task.Copied) :
      { (s.set_adv_enable en p).1 with task := task }.Named := by
    cases p <;> exact h.congr rfl rfl htask
  have helim (behind : TaskPlace) (place : AdvPlace → TaskPlace) {copied : Prop}
      (hbehind : behind.Copied ↔ copied) (hplace : ∀ p, (place p).Copied ↔ copied)
      (next : Option AdvPlace) : (next.elim behind place).Copied ↔ copied := by
    cases next with
    | none => exact hbehind
    | some p => exact hplace p
  unfold Advertiser.CommandSetBTName at hgo
  cases hs : s.task with
  | rest =>
    rw [hs] at hgo
    cases hgo
  | stop p =>
    rw [hs] at hgo
    cases hgo
    exact hadv (by rw [hs]; exact helim (.copy true) .stop Iff.rfl (fun _ => Iff.rfl) _)
  | copy again =>
    rw [hs] at hgo
    cases hgo
    intro payload mac_addr hlast
    obtain ⟨base, -, hdue⟩ := h payload mac_addr hlast
    have hnames : s.names = base.rename payload mac_addr := hdue (by rw [hs]; exact id)
    exact ⟨base, fun _ => congrArg Names.bt_ble_init hnames, fun hcopied => absurd trivial hcopied⟩
  | ready again | enable again =>
    rw [hs] at hgo
    cases hgo
    exact h.congr rfl rfl (by rw [hs]; exact Iff.rfl)
  | pend again =>
    rw [hs] at hgo
    dsimp only at hgo
    split at hgo
    next =>
      cases hgo
      exact h.congr rfl rfl (by rw [hs]; exact Iff.rfl)
    next => cases hgo
  | adv again p =>
    rw [hs] at hgo
    cases hgo
    exact hadv (by rw [hs]; exact helim (.post again) (.adv again) Iff.rfl (fun _ => Iff.rfl) _)
  | post again =>
    rw [hs] at hgo
    cases hgo
    exact h.congr rfl rfl (by rw [hs]; cases again <;> exact Iff.rfl)
  | restart p =>
    rw [hs] at hgo
    cases hgo
    exact hadv (by rw [hs]; exact helim .rest .restart Iff.rfl (fun _ => Iff.rfl) _)

/-- Every action keeps the names those of the last command. -/
theorem Named.step (h : s.Named) (hstep : Step s s') : s'.Named := by
  cases hstep with
  | connect | subscribe | disconnect => exact h.congr rfl rfl Iff.rfl
  | rename payload mac_addr _ =>
    intro payload' mac_addr' hlast
    cases hlast
    exact ⟨s.names, False.elim, fun _ => rfl⟩
  | goes _ hgo =>
    rcases hgo with hgo | hgo
    · exact h.cbk_packet_handler hgo
    · exact h.CommandSetBTName hgo

theorem named_of_run (h : ReflTransGen Step (init names) s) : s.Named :=
  Runs.invariant (I := Named) (fun _ _ hI hstep => hI.step hstep) h
    fun _ _ hlast => absurd hlast.symm (Option.some_ne_none _)

/-- The threads go on one after the other. -/
def goOn (s : Advertiser) : Advertiser := s.cbk_packet_handler.getD (s.CommandSetBTName.getD s)

/-- That is a step, if there is one. -/
theorem goes_goOn {t : Advertiser} (hgo : s.Goes t) : s.Goes s.goOn := by
  unfold goOn
  cases hstack : s.cbk_packet_handler with
  | some s' => exact .inl hstack
  | none =>
    have htask := hgo.resolve_left fun h => by
      rw [hstack] at h
      cases h
    rw [htask]
    exact .inr htask

theorem goOn_run (n : Nat) (s : Advertiser) : ReflTransGen Step s (goOn^[n] s) := by
  induction n with
  | zero => exact .refl
  | succ n ih =>
    rw [Function.iterate_succ_apply']
    by_cases hgo : ∃ t, (goOn^[n] s).Goes t
    · obtain ⟨t, hgo⟩ := hgo
      exact ih.tail (.goes _ _ (goes_goOn hgo))
    · rw [not_exists] at hgo
      have hstuck : (goOn^[n] s).goOn = goOn^[n] s := by
        rw [goOn, Option.eq_none_iff_forall_ne_some.2 fun t h => hgo t (.inl h),
          Option.eq_none_iff_forall_ne_some.2 fun t h => hgo t (.inr h)]
        rfl
      rwa [hstuck]

/-- At rest without a peer, the printer advertises with its current name. -/
theorem Inv.rests (hinv : s.Inv) (hrests : s.Rests) (hlink : s.link = none) :
    s.advertising = true ∧ s.Fresh := by
  obtain ⟨hstack, hevents, htask⟩ := hrests
  have hlinked : ¬ s.Linked := by
    rintro (hl | he | hs | hs)
    · exact hl hlink
    · exact he hevents
    · rw [hstack] at hs
      cases hs
    · rw [hstack] at hs
      cases hs
  have hadv : s.ble_work_state = .BLE_ST_ADV := by
    by_contra hne
    rcases hinv.due hne with hl | hs | ht | ht
    · exact hlinked hl
    · rw [hstack] at hs
      exact hs
    · rw [htask] at ht
      exact ht
    · rw [htask] at ht
      exact ht
  rcases hinv.on hadv with hl | ht | hs | ht | hon
  · exact absurd hl hlinked
  · rw [htask] at ht
    exact ht.elim
  · rw [hstack] at hs
    exact hs.elim
  · rw [htask] at ht
    exact ht.elim
  · exact hon

/-- **A phone always finds the printer, under its current name.** In every interleaving of the two
threads, of peers that come and go and of commands with new names: when both threads are at rest and
no peer is connected, the printer advertises, and its scan response has the current name. Behind a
command it is the name that was sent last. -/
theorem discoverable (h : ReflTransGen Step (init names) s) (hrests : s.Rests)
    (hlink : s.link = none) :
    s.advertising = true ∧ s.rsp = s.names.make_set_rsp_data ∧
      ∀ payload mac_addr, s.renamed = some (payload, mac_addr) →
        s.rsp = some (.ofNat ((Names.gapName payload mac_addr).length + 1) :: 0x09 ::
          Names.gapName payload mac_addr) := by
  have hon := (inv_of_run h).rests hrests hlink
  refine ⟨hon.1, hon.2, fun payload mac_addr hlast => ?_⟩
  obtain ⟨base, hdone, -⟩ := named_of_run h payload mac_addr hlast
  rw [hon.2, hdone (by rw [hrests.2.2]; trivial)]
  exact Names.make_set_rsp_data_renamed base payload mac_addr

/-- A peer connects behind boot, the printer is renamed `D`, and the peer goes. -/
theorem discoverable_reconnected :
    ∃ s : Advertiser, s.renamed = some ([0x44], .replicate 6 0) ∧ s.advertising = true ∧ s.rsp =
      some (.ofNat ((Names.gapName [0x44] (.replicate 6 0)).length + 1) :: 0x09 ::
        Names.gapName [0x44] (.replicate 6 0)) := by
  have hconnected := ((goOn_run 10 (init Names.init)).tail
    (.connect _ 0x50 (by decide) (by decide +kernel) (by decide +kernel))).trans (goOn_run 5 _)
  have hrenamed := (hconnected.tail
    (.rename _ [0x44] (.replicate 6 0) (by decide +kernel))).trans (goOn_run 25 _)
  have hgone := (hrenamed.tail (.disconnect _ (by decide +kernel))).trans (goOn_run 10 _)
  have hfound := discoverable hgone ⟨by decide +kernel, by decide +kernel, by decide +kernel⟩
    (by decide +kernel)
  exact ⟨_, by decide +kernel, hfound.1, hfound.2.2 _ _ (by decide +kernel)⟩

end Advertiser

end ThermalPrinter
