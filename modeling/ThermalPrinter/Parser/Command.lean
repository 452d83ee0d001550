import Mathlib.Data.List.Basic
import Mathlib.Tactic.Cases

/-!
# The command record of the print-stream parser

The data model of `AppDriver.h` and of the globals of `AppDriverCommand.c`: the decode states, the
table of command heads, the row queue `PrintBLink` and the record `command`. The record is split in
two. `Decoder` holds what survives from one packet to the next besides the unread bytes, together
with the two function statics of the decoder (`DotValue` of `CommandSetLineStart`, `Write` of
`CommandZipFetchData`); `Command` adds the working buffer of the packet at hand. `TotalLength` is
the length of `Buffer` by construction, so a record whose buffer and length disagree cannot be
built.

What the handlers do to the outside world (a row queued, a setting changed, the WiFi credentials
stored) is logged as an `Event`; the log is the sequence of executed commands.
-/

namespace ThermalPrinter

/-- `CMDStatus`: the decode states. The first eleven are the commands of the head table, in its
order. -/
inductive CMDStatus
  | CommandSpeed | CommandDensity | CommandPaperType | CommandPageStart | CommandLineStart
  | CommandLineEnd | CommandPageEnd | CommandZipStart | commandNVSWiFi | commandSetBTName
  | commandSetPID | CommandTotalNum | CommandZipCheck | CommandZipData | CommandNVSPID
  | CommandIdle
  deriving DecidableEq, Repr

/-- What `LineDeCodeWrite` selects inside a row: the first byte of a token
(`UserDefineCommandHead`) or the count byte of a run (`UserDefineCommandData`). -/
inductive LineWrite
  | UserDefineCommandHead | UserDefineCommandData
  deriving DecidableEq, Repr

/-- `LineDecodeDots`: the dots of one row. -/
def LineDecodeDots : Nat := 576

/-- `PrintlineBytes`: the bytes of one queued row. -/
def PrintlineBytes : Nat := 72

/-- `PrintLinkedListCount`: no packet is accepted while this many rows are queued. -/
def PrintLinkedListCount : Nat := 400

/-- `MAxHeadLength`: the look-ahead of the idle scan, the longest command head. -/
def MAxHeadLength : Nat := 8

/-- `DecodeMaxBytes`: the size of the inflate output buffer. -/
def DecodeMaxBytes : Nat := 1000

/-- `CMDHead`: the command heads with the state each of them enters, in the order in which the
idle scan tries them. -/
def CMDHead : List (CMDStatus × List UInt8) :=
  [(.CommandSpeed, [0x40, 0x53, 0x4d, 0x53]),
   (.CommandDensity, [0x40, 0x53, 0x7E, 0x7E]),
   (.CommandPaperType, [0x40, 0x53, 0x50, 0x50]),
   (.CommandPageStart, [0x40, 0x3C]),
   (.CommandLineStart, [0x23, 0x3C]),
   (.CommandLineEnd, [0x23, 0x3E]),
   (.CommandPageEnd, [0x40, 0x3E]),
   (.CommandZipStart, [0x41, 0x4E, 0x47, 0x45, 0x4E, 0x4C]),
   (.commandNVSWiFi, [0x4E, 0x56, 0x53, 0x2D, 0x57, 0x69, 0x46, 0x69]),
   (.commandSetBTName, [0x40, 0x53, 0x42, 0x54]),
   (.commandSetPID, [0x40, 0x53, 0x49, 0x44])]

/-- The head `ANGENL` of a compressed block. -/
def angenl : List UInt8 := [0x41, 0x4E, 0x47, 0x45, 0x4E, 0x4C]

/-- The head `NVS-WiFi` of the provisioning command. -/
def nvsWiFi : List UInt8 := [0x4E, 0x56, 0x53, 0x2D, 0x57, 0x69, 0x46, 0x69]

/-- `LinkedListData` as queued in `PrintBLink`: the bytes of one row and the page it belongs to.
Its `len` is the number of its bytes. -/
structure LinkedListData where
  data : List UInt8
  PageNum : Nat
  deriving DecidableEq, Repr

/-- An executed command, or a row handed to the print queue. -/
inductive Event
  | row (LLData : LinkedListData)
  | speed (Speed AccSteps : Nat)
  | density (density : UInt8)
  | paperType (PaperType : UInt8)
  | pageStart
  | lineEnd
  | pageEnd (PageNum : Nat)
  | btName (payload : List UInt8)
  | pid (low high : UInt8)
  | nvs (SSID SSIDPassword : List UInt8)
  deriving DecidableEq, Repr

/-- The rows among the events, in order. -/
def Event.rows : List Event → List LinkedListData
  | [] => []
  | .row d :: es => d :: Event.rows es
  | _ :: es => Event.rows es

/-- The part of `command` that survives a packet, with the function statics `DotValue` and `Write`.
`zipData` is `none` while the pointer is NULL and otherwise the block that `malloc` returned.
`HeadStbLowValid` is the head type found at boot, which `CommandSetDensity` reads. -/
structure Decoder where
  DecodeStatus : CMDStatus
  Speed : Nat
  AccSteps : Nat
  PaperType : UInt8
  density : UInt8
  LineDeCodeWrite : LineWrite
  ZipSize : Nat
  zipData : Option (List UInt8)
  Dots : Nat
  DotsMatric : List UInt8
  PageNum : Nat
  PageEndFlag : Bool
  DotValue : Bool
  Write : Nat
  HeadStbLowValid : UInt8
  deriving DecidableEq, Repr

/-- `Command`: the decoder and the working buffer of the packet at hand. -/
structure Command extends Decoder where
  Buffer : List UInt8
  RemainderLength : Nat
  ReadPos : Nat
  ReturnFlag : Bool
  LineDecodeOneceFinshed : Bool
  deriving DecidableEq, Repr

/-- `TotalLength`: the length of the working buffer. -/
def Command.TotalLength (c : Command) : Nat := c.Buffer.length

/-- The bytes the parser has not read. -/
def Command.unread (c : Command) : List UInt8 := c.Buffer.drop c.ReadPos

/-- `Buffer[ReadPos+i]`. -/
def Command.byteAt (c : Command) (i : Nat) : UInt8 := c.Buffer.getD (c.ReadPos + i) 0

/-- The globals the parser works on: the command record, the row queue `PrintBLink`, the inflate
output buffer `out`, the log of executed commands, and the number of `os_time_dly` calls made so
far while the row queue was full. -/
structure Printer where
  command : Command
  PrintBLink : List LinkedListData
  out : List UInt8
  log : List Event
  delays : Nat
  deriving DecidableEq, Repr

/-- The initialiser of `command`: idle, speed 830 with 19 acceleration steps, density 80. -/
def Decoder.init (HeadStbLowValid : UInt8) : Decoder where
  DecodeStatus := .CommandIdle
  Speed := 830
  AccSteps := 19
  PaperType := 0
  density := 80
  LineDeCodeWrite := .UserDefineCommandHead
  ZipSize := 0
  zipData := none
  Dots := 32
  DotsMatric := List.replicate (PrintlineBytes * 2) 0
  PageNum := 0
  PageEndFlag := false
  DotValue := false
  Write := 0
  HeadStbLowValid := HeadStbLowValid

/-- The printer at boot, for a head of the given type. -/
def Printer.init (HeadStbLowValid : UInt8) : Printer where
  command :=
    { Decoder.init HeadStbLowValid with
      Buffer := [], RemainderLength := 0, ReadPos := 0, ReturnFlag := false
      LineDecodeOneceFinshed := false }
  PrintBLink := []
  out := List.replicate DecodeMaxBytes 0
  log := []
  delays := 0

end ThermalPrinter
