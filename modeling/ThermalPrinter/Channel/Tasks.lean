import ThermalPrinter.Lib.Runs
import ThermalPrinter.Parser.Process
import ThermalPrinter.Parser.Chunking

/-!
# Receivers and the data task

Four channels feed the parser. The receivers of `AppDriverMain.c` cut what arrives into pieces and
queue them, one linked list for each channel; `DataManagementTask` polls the lists while no channel
owns the printer, and the list of the owner otherwise, and `CopyMemoryTask` hands the head of a list
to `PrintDataManagement`. The tasks and interrupts are interleaved: a `World` is the state between
two atomic actions, and `Step` is one action of any of them. The closed list functions are atomic:
`_malloc` appends, `_copy_memery` copies the head, `_free` removes it.

The data task is at a place of its code (`Pc`). Between handing a packet to the parser and the
return of `PrintDataManagement` the other parties go on. The LED is left out.
-/

namespace ThermalPrinter

/-- `printMethod`: the channel that owns the printer, or none. -/
inductive printMethod
  | IDLE | USB | SPP | BLE | WIFI
  deriving DecidableEq, Repr

/-- The channels, as `C_Type` numbers them. -/
inductive CType
  | C_Type_USB | C_Type_SSP | C_Type_BLE | C_Type_Net
  deriving DecidableEq, Repr

/-- The owner that a channel becomes. -/
def CType.method : CType → printMethod
  | .C_Type_USB => .USB
  | .C_Type_SSP => .SPP
  | .C_Type_BLE => .BLE
  | .C_Type_Net => .WIFI

/-- `rcvLen`: the length of a piece. -/
def rcvLen : Nat := 64

/-- The pieces that `WiFiPrinterReceiveDataTask`, `EdrPrinterReceiveDataISR` and
`BLEPrinterReceiveDataISR` cut a buffer into: the loop `for(i=0;i<len;i+=64)`, from `i` on. -/
def pieces (data : List UInt8) (i : Nat) : List (List UInt8) :=
  if i < data.length then
    let len := if i + rcvLen < data.length then rcvLen else data.length - i
    (data.drop i).take len :: pieces data (i + rcvLen)
  else []
  termination_by data.length - i
  decreasing_by simp only [rcvLen]; omega

/-- The packets a receiver queues for what arrived. The USB interrupt queues what it read from the
endpoint. -/
def CType.received (c : CType) (data : List UInt8) : List (List UInt8) :=
  match c with
  | .C_Type_USB => [data]
  | _ => pieces data 0

/-- Where the data task is: before the `switch` of `DataManagementTask`, between the calls of
`case IDLE` with the channels it has still to look at, at the top of the loop of `CopyMemoryTask`,
or inside `PrintDataManagement` with a copy of the head of the list. -/
inductive Pc
  | loop
  | poll (rest : List CType)
  | copy (C_Type : CType) (count : Nat) (rest : List CType)
  | manage (C_Type : CType) (count : Nat) (data : List UInt8) (rest : List CType)
  deriving DecidableEq, Repr

/-- The state the tasks share. `DP` are the four lists and `pending` the pieces that a receiver has
cut but not queued yet. The tick counter is `time`, counted without wrapping round.

The last fields record the history: what arrived, which packets the parser accepted, when which
channel's packet was handed to the parser (the latest first), when the owner took the printer and
when the idle timer was written last. -/
structure World where
  method : printMethod
  printTimeout : UInt32
  time : Nat
  DP : CType → List (List UInt8)
  pending : CType → List (List UInt8)
  pc : Pc
  printer : Printer
  arrived : CType → List UInt8
  accepted : CType → List (List UInt8)
  handed : List (Nat × CType)
  taken : Nat
  written : Nat

namespace World

/-- `xTaskGetTickCount()`. -/
def now (w : World) : UInt32 := UInt32.ofNat w.time

/-- `printTimeout=xTaskGetTickCount();` -/
def writeTimer (w : World) : World := { w with printTimeout := w.now, written := w.time }

/-- A buffer arrives: the receiver cuts it into pieces. -/
def receive (w : World) (c : CType) (data : List UInt8) : World :=
  { w with
    pending := Function.update w.pending c (c.received data)
    arrived := Function.update w.arrived c (w.arrived c ++ data) }

/-- `_malloc`: the next piece is queued. -/
def malloc (w : World) (c : CType) (piece : List UInt8) (rest : List (List UInt8)) : World :=
  { w with
    pending := Function.update w.pending c rest
    DP := Function.update w.DP c (w.DP c ++ [piece]) }

/-- The `switch(method)` of `DataManagementTask`. -/
def dispatch (w : World) : World :=
  { w with pc :=
    match w.method with
    | .IDLE => .poll [.C_Type_USB, .C_Type_SSP, .C_Type_BLE, .C_Type_Net]
    | .USB => .copy .C_Type_USB 0 []
    | .WIFI => .copy .C_Type_Net 0 []
    | .SPP => .copy .C_Type_SSP 0 []
    | .BLE => .copy .C_Type_BLE 0 [] }

/-- `if(method==IDLE)CopyMemoryTask(...);` for the next channel of `case IDLE`. After the last one
the task sleeps and starts over. -/
def pollNext (w : World) : List CType → World
  | [] => { w with pc := .loop }
  | c :: rest => { w with pc := if w.method = .IDLE then .copy c 0 rest else .poll rest }

/-- The body of the loop of `CopyMemoryTask` up to the call of `PrintDataManagement`. -/
def copyHead (w : World) (c : CType) (count : Nat) (rest : List CType) : World :=
  match w.DP c with
  | data :: _ =>
    let w :=
      if w.method = .IDLE then { w with method := c.method, taken := w.time } else w.writeTimer
    { w with pc := .manage c count data rest, handed := (w.time, c) :: w.handed }
  | [] =>
    { w with
      method :=
        if w.now - w.printTimeout ≥ 1000 ∧ w.method ≠ .IDLE then .IDLE else w.method
      pc := .poll rest }

/-- The rest of the body, after the return of `PrintDataManagement`. -/
def copyDone (w : World) (c : CType) (count : Nat) (data : List UInt8) (rest : List CType)
    (accepted : Bool) (printer : Printer) : World :=
  if accepted then
    { w with
      printer := printer
      DP := Function.update w.DP c (w.DP c).tail
      accepted := Function.update w.accepted c (w.accepted c ++ [data])
      pc := if count > 200 then .poll rest else .copy c (count + 1) rest }
  else { w with printer := printer, pc := .poll rest }

/-- One action of the data task, of a receiver, of the tick, or of the printing side. -/
inductive Step (env : Env) : World → World → Prop
  | tick (w : World) : Step env w { w with time := w.time + 1 }
  | receive (w : World) (c : CType) (data : List UInt8) :
      w.pending c = [] → Step env w (w.receive c data)
  | malloc (w : World) (c : CType) (piece : List UInt8) (rest : List (List UInt8)) :
      w.pending c = piece :: rest → Step env w (w.malloc c piece rest)
  | Print (w : World) : Step env w w.writeTimer
  | takeRows (w : World) (n : Nat) : Step env w { w with printer := w.printer.takeRows n }
  | dispatch (w : World) : w.pc = .loop → Step env w w.dispatch
  | poll (w : World) (rest : List CType) : w.pc = .poll rest → Step env w (w.pollNext rest)
  | copyHead (w : World) (c : CType) (count : Nat) (rest : List CType) :
      w.pc = .copy c count rest → Step env w (w.copyHead c count rest)
  | copyDone (w : World) (c : CType) (count : Nat) (data : List UInt8) (rest : List CType)
      (fuel : Nat) (accepted : Bool) (printer : Printer) :
      w.pc = .manage c count data rest →
      Printer.feed env fuel data w.printer = .ok (accepted, printer) →
      Step env w (w.copyDone c count data rest accepted printer)

/-- The world at boot, after some ticks. -/
def init (HeadStbLowValid : UInt8) (time : Nat) : World where
  method := .IDLE
  printTimeout := 0
  time := time
  DP _ := []
  pending _ := []
  pc := .loop
  printer := .init HeadStbLowValid
  arrived _ := []
  accepted _ := []
  handed := []
  taken := 0
  written := 0

end World

end ThermalPrinter
