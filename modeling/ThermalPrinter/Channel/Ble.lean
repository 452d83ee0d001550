import ThermalPrinter.Channel.Usb

/-!
# Flow control of the BLE channel

The ATT server hands the writes of every connection to one callback, which queues them. When the
list is long the callback asks the server to hold a connection, and when it has become short the
timer interrupt asks it to release the connection again. Both name the connection `HCI_le_Printer`.
The line that would set it to the connection of the write is commented out, so it is 0 for ever:
the connection that filled the list is held, and released, if its handle is 0 and not otherwise
(`ble_flow_iff`). The server asks for handles above 0.
-/

namespace ThermalPrinter

open Relation

/-- The value handles of the characteristics whose writes `att_write_callback` gives to
`BLEPrinterReceiveDataISR`: FF02, the three of the 49535343 service, FEC7 and FF82. -/
def dataCharacteristics : List UInt16 := [0x0003, 0x0015, 0x0017, 0x001c, 0x0020, 0x0028]

/-- The globals of the BLE receiver, its list, the owner of the printer and the connections: `link`
of a handle says whether the server holds the connection with that handle, if there is one. The
last fields record the history: the calls of `att_server_flow_hold` (the latest first), and the
connection whose write left the list too long last. -/
structure Ble where
  HCI_le_Printer : UInt16
  BleBusy : Bool
  DP : List (List UInt8)
  method : printMethod
  link : UInt16 → Option Bool
  commands : List (UInt16 × Bool)
  filler : Option UInt16

namespace Ble

variable {s s' : Ble}

/-- The events of the stack, the timer interrupt, the data task, and a change of the owner. -/
inductive Action
  | connect (con_handle : UInt16)
  | disconnect (con_handle : UInt16)
  | write (connection_handle att_handle : UInt16) (buffer : List UInt8)
  | task
  | pop
  | owner (method : printMethod)

/-- `att_server_flow_hold`: the server holds, or releases, the connection that has the handle. -/
def att_server_flow_hold (con_handle : UInt16) (hold_flag : Bool) (s : Ble) : Ble :=
  { s with
    link := Function.update s.link con_handle ((s.link con_handle).map fun _ => hold_flag)
    commands := (con_handle, hold_flag) :: s.commands }

/-- The packets the list grows to before a connection is held. -/
def threshold (s : Ble) : Nat := limit .BLE 400 s.method

/-- `BLEPrinterReceiveDataISR`. -/
def BLEPrinterReceiveDataISR (data : List UInt8) (s : Ble) : Ble :=
  let s := { s with DP := s.DP ++ pieces data 0 }
  if s.DP.length > s.threshold then
    { s.att_server_flow_hold s.HCI_le_Printer true with BleBusy := true }
  else s

/-- `BLEPrinterReceiveDataTask`. -/
def BLEPrinterReceiveDataTask (s : Ble) : Ble :=
  if s.DP.length < 50 ∧ s.BleBusy then
    { s.att_server_flow_hold s.HCI_le_Printer false with BleBusy := false }
  else s

/-- The connection of a write that left the list too long is recorded. -/
def recordFiller (connection_handle : UInt16) (s : Ble) : Ble :=
  if s.DP.length > s.threshold then { s with filler := some connection_handle } else s

/-- `att_write_callback`: it does not use `connection_handle`, which only the history records. The
writes of the other characteristics configure notifications. -/
def att_write_callback (connection_handle att_handle : UInt16) (buffer : List UInt8) (s : Ble) :
    Ble :=
  if att_handle ∈ dataCharacteristics then
    (s.BLEPrinterReceiveDataISR buffer).recordFiller connection_handle
  else s

/-- One action. A new connection is not held, and only a connected peer writes. -/
def next (s : Ble) : Action → Ble
  | .connect con_handle => { s with link := Function.update s.link con_handle (some false) }
  | .disconnect con_handle => { s with link := Function.update s.link con_handle none }
  | .write connection_handle att_handle buffer =>
    match s.link connection_handle with
    | some _ => s.att_write_callback connection_handle att_handle buffer
    | none => s
  | .task => s.BLEPrinterReceiveDataTask
  | .pop => { s with DP := s.DP.tail }
  | .owner method => { s with method := method }

/-- The channel at boot. -/
def init : Ble where
  HCI_le_Printer := 0
  BleBusy := false
  DP := []
  method := .IDLE
  link := fun _ => none
  commands := []
  filler := none

/-- One action. -/
def Step (s s' : Ble) : Prop := ∃ a, s' = s.next a

/-- A write of a connection to a data characteristic leaves more packets than the threshold. -/
def Fills (s : Ble) (connection_handle att_handle : UInt16) (buffer : List UInt8) : Prop :=
  (s.link connection_handle).isSome ∧ att_handle ∈ dataCharacteristics ∧
    s.DP.length + (pieces buffer 0).length > s.threshold

/-- What flow control owes the connections: a command names the connection that filled the list, the
connection of a write that leaves more packets than the threshold is held, `BleBusy` is true while
one is held, and none is held after a periodic call that finds fewer than 50 packets. -/
structure Meets (s : Ble) (a : Action) : Prop where
  names : ∀ con_handle hold_flag, (s.next a).commands = (con_handle, hold_flag) :: s.commands →
    (s.next a).filler = some con_handle
  held : ∀ connection_handle att_handle buffer, a = .write connection_handle att_handle buffer →
    s.Fills connection_handle att_handle buffer →
      (s.next a).link connection_handle = some true
  busy : ∀ con_handle, (s.next a).link con_handle = some true → (s.next a).BleBusy = true
  released : a = .task → s.DP.length < 50 → ∀ con_handle,
    (s.next a).link con_handle ≠ some true

/-- The connection whose write fills the list has the handle 0, and a periodic call that issues a
release finds the list filled by that connection. -/
def Allows (s : Ble) : Action → Prop
  | .write connection_handle att_handle buffer =>
    s.Fills connection_handle att_handle buffer → connection_handle = 0
  | .task => s.DP.length < 50 → s.BleBusy = true → s.filler = some 0
  | _ => True

/-- No command names any handle but 0. -/
structure Holds (s : Ble) : Prop where
  HCI_le_Printer : s.HCI_le_Printer = 0
  held : ∀ con_handle, s.link con_handle = some true → con_handle = 0 ∧ s.BleBusy = true

theorem init_holds : init.Holds where
  HCI_le_Printer := rfl
  held := nofun

/-- After a command, a connection that is held is the one the command held, or was held before and
is not the one the command names. -/
theorem held_of_flow_hold {con_handle handle : UInt16} {hold_flag : Bool}
    (h : (s.att_server_flow_hold con_handle hold_flag).link handle = some true) :
    (handle = con_handle ∧ hold_flag = true) ∨
      (handle ≠ con_handle ∧ s.link handle = some true) := by
  simp only [att_server_flow_hold, Function.update_apply] at h
  split at h
  next heq =>
    obtain ⟨-, -, hflag⟩ := Option.map_eq_some_iff.1 h
    exact .inl ⟨heq, hflag⟩
  next hne => exact .inr ⟨hne, h⟩

/-- What a write of a connection does: it holds `HCI_le_Printer` if it fills the list, and queues
at most otherwise. -/
theorem write_cases (s : Ble) (connection_handle att_handle : UInt16) (buffer : List UInt8) :
    (s.Fills connection_handle att_handle buffer ∧
      s.next (.write connection_handle att_handle buffer) =
        { s.att_server_flow_hold s.HCI_le_Printer true with
          DP := s.DP ++ pieces buffer 0, BleBusy := true, filler := some connection_handle }) ∨
    (¬ s.Fills connection_handle att_handle buffer ∧
      ∃ DP, s.next (.write connection_handle att_handle buffer) = { s with DP := DP }) := by
  unfold next
  dsimp only
  cases hl : s.link connection_handle with
  | none =>
    refine .inr ⟨?_, s.DP, rfl⟩
    rintro ⟨hsome, -⟩
    rw [hl] at hsome
    cases hsome
  | some held =>
    unfold att_write_callback
    dsimp only
    by_cases hatt : att_handle ∈ dataCharacteristics
    · rw [if_pos hatt]
      by_cases hlong : s.DP.length + (pieces buffer 0).length > s.threshold
      · have hqueued : (s.DP ++ pieces buffer 0).length > s.threshold := by
          rw [List.length_append]
          exact hlong
        have hisr : s.BLEPrinterReceiveDataISR buffer =
            { s.att_server_flow_hold s.HCI_le_Printer true with
              DP := s.DP ++ pieces buffer 0, BleBusy := true } := if_pos hqueued
        refine .inl ⟨⟨by rw [hl]; rfl, hatt, hlong⟩, ?_⟩
        rw [hisr]
        exact if_pos hqueued
      · have hqueued : ¬ (s.DP ++ pieces buffer 0).length > s.threshold := by
          rw [List.length_append]
          exact hlong
        have hisr : s.BLEPrinterReceiveDataISR buffer = { s with DP := s.DP ++ pieces buffer 0 } :=
          if_neg hqueued
        refine .inr ⟨fun hfills => hlong hfills.2.2, s.DP ++ pieces buffer 0, ?_⟩
        rw [hisr]
        exact if_neg hqueued
    · rw [if_neg hatt]
      exact .inr ⟨fun hfills => hatt hfills.2.1, s.DP, rfl⟩

/-- What a periodic call does. -/
theorem task_cases (s : Ble) :
    (s.DP.length < 50 ∧ s.BleBusy = true ∧
      s.next .task = { s.att_server_flow_hold s.HCI_le_Printer false with BleBusy := false }) ∨
    (¬ (s.DP.length < 50 ∧ s.BleBusy = true) ∧ s.next .task = s) := by
  unfold next BLEPrinterReceiveDataTask
  dsimp only
  by_cases hcond : s.DP.length < 50 ∧ s.BleBusy = true
  · exact .inl ⟨hcond.1, hcond.2, if_pos hcond⟩
  · exact .inr ⟨hcond, if_neg hcond⟩

/-- No connection is held once `HCI_le_Printer` has been released. -/
theorem Holds.not_held (h : s.Holds) (handle : UInt16) :
    (s.att_server_flow_hold s.HCI_le_Printer false).link handle ≠ some true := by
  intro hheld
  obtain ⟨-, hflag⟩ | ⟨hne, hheld⟩ := held_of_flow_hold hheld
  · cases hflag
  · rw [h.HCI_le_Printer] at hne
    exact hne (h.held handle hheld).1

/-- Every action keeps this. -/
theorem Holds.next (h : s.Holds) (a : Action) : (s.next a).Holds := by
  cases a with
  | connect con_handle =>
    refine ⟨h.HCI_le_Printer, ?_⟩
    intro handle hheld
    simp only [Ble.next, Function.update_apply] at hheld
    split at hheld
    · cases hheld
    · exact h.held handle hheld
  | disconnect con_handle =>
    refine ⟨h.HCI_le_Printer, ?_⟩
    intro handle hheld
    simp only [Ble.next, Function.update_apply] at hheld
    split at hheld
    · cases hheld
    · exact h.held handle hheld
  | write connection_handle att_handle buffer =>
    obtain ⟨-, hnext⟩ | ⟨-, DP, hnext⟩ := write_cases s connection_handle att_handle buffer
    · rw [hnext]
      refine ⟨h.HCI_le_Printer, fun handle hheld => ⟨?_, rfl⟩⟩
      obtain ⟨heq, -⟩ | ⟨-, hheld⟩ := held_of_flow_hold hheld
      · rw [heq, h.HCI_le_Printer]
      · exact (h.held handle hheld).1
    · rw [hnext]
      exact ⟨h.HCI_le_Printer, h.held⟩
  | task =>
    obtain ⟨-, -, hnext⟩ | ⟨-, hnext⟩ := task_cases s
    · rw [hnext]
      exact ⟨h.HCI_le_Printer, fun handle hheld => absurd hheld (h.not_held handle)⟩
    · rw [hnext]
      exact h
  | pop => exact ⟨h.HCI_le_Printer, h.held⟩
  | owner method => exact ⟨h.HCI_le_Printer, h.held⟩

/-- An action that issues no command and is neither a filling write nor a periodic call. -/
theorem Holds.meets_of_silent (h : s.Holds) {a : Action}
    (hsilent : (s.next a).commands = s.commands)
    (hwrite : ∀ connection_handle att_handle buffer,
      a = .write connection_handle att_handle buffer →
        ¬ s.Fills connection_handle att_handle buffer)
    (htask : a ≠ .task) : s.Meets a where
  names := fun con_handle hold_flag hcommands => by
    rw [hsilent] at hcommands
    exact absurd hcommands.symm (List.cons_ne_self _ _)
  held := fun connection_handle att_handle buffer ha hfills =>
    absurd hfills (hwrite connection_handle att_handle buffer ha)
  busy := fun con_handle hheld => ((h.next a).held con_handle hheld).2
  released := fun ha => absurd ha htask

/-- A write meets flow control if it does not fill the list, or comes from the handle 0. -/
theorem Holds.write_meets_iff (h : s.Holds) (connection_handle att_handle : UInt16)
    (buffer : List UInt8) :
    s.Meets (.write connection_handle att_handle buffer) ↔
      (s.Fills connection_handle att_handle buffer → connection_handle = 0) := by
  obtain ⟨hfills, hnext⟩ | ⟨hfills, DP, hnext⟩ :=
    write_cases s connection_handle att_handle buffer
  · have hcommands : (s.next (.write connection_handle att_handle buffer)).commands =
        (0, true) :: s.commands := by
      rw [hnext, ← h.HCI_le_Printer]
      rfl
    have hfiller : (s.next (.write connection_handle att_handle buffer)).filler =
        some connection_handle := by rw [hnext]
    constructor
    · intro hmeets _
      have hnamed := hmeets.names 0 true hcommands
      rw [hfiller] at hnamed
      exact Option.some.inj hnamed
    · intro hallows
      have hzero := hallows hfills
      refine ⟨?_, ?_, fun con_handle hheld => ((h.next _).held con_handle hheld).2, nofun⟩
      · intro con_handle hold_flag hc
        rw [hcommands] at hc
        injection hc with hc
        injection hc with hc
        rw [hfiller, hzero, hc]
      · intro handle att buf ha _
        obtain ⟨rfl, rfl, rfl⟩ : connection_handle = handle ∧ att_handle = att ∧ buffer = buf := by
          simpa using ha
        -- the handle the command names is the one of the write
        obtain ⟨held, hl⟩ := Option.isSome_iff_exists.1 hfills.1
        rw [hnext]
        simp only [att_server_flow_hold, h.HCI_le_Printer, hzero, Function.update_self]
        rw [← hzero, hl]
        rfl
  · refine iff_of_true (h.meets_of_silent ?_ ?_ nofun) fun hf => absurd hf hfills
    · rw [hnext]
    · intro handle att buf ha
      obtain ⟨rfl, rfl, rfl⟩ : connection_handle = handle ∧ att_handle = att ∧ buffer = buf := by
        simpa using ha
      exact hfills

/-- A periodic call meets flow control if it does not release, or the handle 0 filled the list. -/
theorem Holds.task_meets_iff (h : s.Holds) :
    s.Meets .task ↔ (s.DP.length < 50 → s.BleBusy = true → s.filler = some 0) := by
  obtain ⟨hlen, hbusy, hnext⟩ | ⟨hcond, hnext⟩ := task_cases s
  · have hcommands : (s.next .task).commands = (0, false) :: s.commands := by
      rw [hnext, ← h.HCI_le_Printer]
      rfl
    have hfiller : (s.next .task).filler = s.filler := by
      rw [hnext]
      rfl
    constructor
    · intro hmeets _ _
      rw [← hfiller]
      exact hmeets.names 0 false hcommands
    · intro hallows
      refine ⟨?_, nofun, fun con_handle hheld => ((h.next _).held con_handle hheld).2, ?_⟩
      · intro con_handle hold_flag hc
        rw [hcommands] at hc
        injection hc with hc
        injection hc with hc
        rw [hfiller, hallows hlen hbusy, hc]
      · intro _ _ con_handle
        rw [hnext]
        exact h.not_held con_handle
  · refine iff_of_true ⟨?_, nofun, ?_, ?_⟩ fun hlen hbusy => absurd ⟨hlen, hbusy⟩ hcond
    · intro con_handle hold_flag hc
      rw [hnext] at hc
      exact absurd hc.symm (List.cons_ne_self _ _)
    · intro con_handle hheld
      exact ((h.next _).held con_handle hheld).2
    · intro _ hlen con_handle hheld
      rw [hnext] at hheld
      exact hcond ⟨hlen, (h.held con_handle hheld).2⟩

/-- **BLE flow control addresses the connection that filled the list**, in every state of every run,
exactly if that connection has the handle 0. -/
theorem ble_flow_iff (h : ReflTransGen Step init s) (a : Action) : s.Meets a ↔ s.Allows a := by
  have hold : s.Holds := by
    refine Runs.invariant ?_ h init_holds
    intro t t' ht hstep
    obtain ⟨b, rfl⟩ := hstep
    exact ht.next b
  cases a with
  | write connection_handle att_handle buffer =>
    exact hold.write_meets_iff connection_handle att_handle buffer
  | task => exact hold.task_meets_iff
  | _ => exact iff_of_true (hold.meets_of_silent rfl nofun nofun) trivial

/-- Another channel owns the printer, and a write of either of two connections would fill the
list. -/
theorem ble_flow_iff_filled :
    ∃ s, ReflTransGen Step init s ∧ s.Fills 0 0x0020 [0] ∧ s.Fills 0x50 0x0020 [0] ∧
      (s.Meets (.write 0 0x0020 [0]) ↔ s.Allows (.write 0 0x0020 [0])) ∧
      (s.Meets (.write 0x50 0x0020 [0]) ↔ s.Allows (.write 0x50 0x0020 [0])) := by
  let run : List Action :=
    [.owner .USB, .connect 0, .connect 0x50] ++ List.replicate 50 (.write 0x50 0x0020 [0])
  have hrun : ReflTransGen Step init (run.foldl next init) :=
    Runs.foldl (fun s a => ⟨a, rfl⟩) init run
  have hlong : (run.foldl next init).DP.length + (pieces [0] 0).length >
      (run.foldl next init).threshold := by decide +kernel
  exact ⟨_, hrun, ⟨by decide +kernel, by decide, hlong⟩, ⟨by decide +kernel, by decide, hlong⟩,
    ble_flow_iff hrun _, ble_flow_iff hrun _⟩

/-- **The connection that fills the list is not held**: another channel owns the printer, and the
connection 0x50 writes 51 packets. -/
theorem sender_unheld :
    ∃ s, ReflTransGen Step init s ∧ s.Fills 0x50 0x0020 [0] ∧
      ¬ s.Meets (.write 0x50 0x0020 [0]) := by
  let run : List Action := [.owner .USB, .connect 0x50] ++
    List.replicate 50 (.write 0x50 0x0020 [0])
  let s := run.foldl next init
  have hrun : ReflTransGen Step init s := Runs.foldl (fun s a => ⟨a, rfl⟩) init run
  have hlink : (s.link 0x50).isSome := by decide +kernel
  have hlong : s.DP.length + (pieces [0] 0).length > s.threshold := by decide +kernel
  have hfills : s.Fills 0x50 0x0020 [0] := ⟨hlink, by decide, hlong⟩
  have hunheld : (s.next (.write 0x50 0x0020 [0])).link 0x50 = some false := by decide +kernel
  refine ⟨s, hrun, hfills, ?_⟩
  intro hmeets
  have hheld := hmeets.held 0x50 0x0020 [0] rfl hfills
  rw [hunheld] at hheld
  cases hheld

end Ble

end ThermalPrinter
