import ThermalPrinter.Parser.Handlers

/-!
# The parser loop and compressed blocks

`PrintDataProcesser` runs one handler after another until a handler suspends the packet. The
handler of a compressed block inflates the block when its last byte is in and hands the output,
piece by piece, to `PrintDataManagement`, that is, to the parser itself: the loop is re-entered from
inside one of its own handlers. The definitions follow the calls of the source. `fuel` bounds the
passes of the loops; a run that uses it up is not a result (`Halt.fuel`), and neither is a store
outside the block that `malloc` returned (`Halt.fault`).

zlib is vendored in `include_lib/zlib-1.3` and too large to embed, so it is a parameter (`Zlib`), as
is the printing side that takes rows while the parser waits for room in the queue (`Env.drain`).
-/

namespace ThermalPrinter

/-- How a computation fails to give a result: a store outside an allocated block, or more passes
than the fuel allows. -/
inductive Halt
  | fault | fuel
  deriving DecidableEq, Repr

/-- The return codes of `inflate`. -/
inductive ZRet
  | Z_OK | Z_STREAM_END | Z_NEED_DICT | Z_DATA_ERROR | Z_MEM_ERROR | Z_BUF_ERROR | Z_STREAM_ERROR
  deriving DecidableEq, Repr

/-- The codes on which `ZipDecode` gives up. -/
def ZRet.isError : ZRet → Bool
  | .Z_NEED_DICT | .Z_DATA_ERROR | .Z_MEM_ERROR => true
  | _ => false

/-- zlib as `ZipDecode` uses it: `inflateInit2` on the compressed bytes, which may fail, and
`inflate` with room for `avail_out` bytes, which gives a return code, the bytes it produced, no more
than there is room for, and the stream it leaves. -/
structure Zlib where
  z_stream : Type
  inflateInit2 : List UInt8 → Option z_stream
  inflate : z_stream → Nat → ZRet × List UInt8 × z_stream
  inflate_le : ∀ strm avail_out, (inflate strm avail_out).2.1.length ≤ avail_out

/-- The surroundings of the parser: zlib, and the number of rows the printing side takes during the
`k`-th `os_time_dly`. -/
structure Env where
  zlib : Zlib
  drain : Nat → Nat

namespace Printer

/-- The closed `_realloc`: the working buffer becomes the unread remainder followed by the new
data. -/
def realloc (data : List UInt8) (s : Printer) : Printer :=
  { s with command :=
    { s.command with
      Buffer :=
        s.command.Buffer.drop (s.command.TotalLength - s.command.RemainderLength) ++ data
      ReadPos := 0
      ReturnFlag := false } }

/-- `PrintDataManagement`, over the parser loop `process`: refused while the row queue is full. -/
def PrintDataManagement (process : Printer → Except Halt Printer) (data : List UInt8)
    (s : Printer) : Except Halt (Bool × Printer) :=
  if s.PrintBLink.length < PrintLinkedListCount then
    (process (s.realloc data)).map (true, ·)
  else .ok (false, s)

/-- `os_time_dly`: meanwhile the printing side takes rows from the head of the queue. -/
def os_time_dly (env : Env) (s : Printer) : Printer :=
  { s with PrintBLink := s.PrintBLink.drop (env.drain s.delays), delays := s.delays + 1 }

/-- `while(PrintDataManagement(CurrentPos,out)==false) os_time_dly(10);` -/
def offer (env : Env) (process : Printer → Except Halt Printer) (data : List UInt8) :
    Nat → Printer → Except Halt Printer
  | 0, _ => .error .fuel
  | fuel + 1, s => do
    let (accepted, s) ← PrintDataManagement process data s
    if accepted then .ok s else offer env process data fuel (s.os_time_dly env)

/-- The decode loop of `ZipDecode`. `CurrentPos` is `total_out` at the end of the turn before. -/
def zipLoop (env : Env) (process : Printer → Except Halt Printer) (fuel : Nat) :
    Nat → env.zlib.z_stream → Nat → Nat → Printer → Except Halt (Bool × Printer)
  | 0, _, _, _, _ => .error .fuel
  | turns + 1, strm, total_out, CurrentPos, s =>
    let (ret, produced, strm) := env.zlib.inflate strm DecodeMaxBytes
    let s := { s with out := produced ++ s.out.drop produced.length }
    if ret.isError then .ok (false, s)
    else do
      let total_out := total_out + produced.length
      let CurrentPos := total_out - CurrentPos
      let s ← offer env process (s.out.take CurrentPos) fuel s
      if DecodeMaxBytes - produced.length = 0 then
        zipLoop env process fuel turns strm total_out total_out s
      else .ok (true, s)

/-- `ZipDecode`. -/
def ZipDecode (env : Env) (process : Printer → Except Halt Printer) (fuel : Nat)
    (ZipData : List UInt8) (len : Nat) (s : Printer) : Except Halt (Bool × Printer) :=
  match env.zlib.inflateInit2 (ZipData.take len) with
  | none => .ok (false, s)
  | some strm => zipLoop env process fuel fuel strm 0 0 s

/-- `ZipDecodeEntrance`. -/
def ZipDecodeEntrance (env : Env) (process : Printer → Except Halt Printer) (fuel : Nat)
    (s : Printer) : Except Halt Printer := do
  let zipData := s.command.zipData.getD []
  let ZipSize := s.command.ZipSize
  let s := { s with command := { s.command with DecodeStatus := .CommandIdle } }.ReturnModle
  let (decoded, s) ← ZipDecode env process fuel zipData ZipSize s
  let s : Printer :=
    if decoded then s else { s with command := { s.command with DecodeStatus := .CommandIdle } }
  .ok { s with command := { s.command with zipData := none } }

/-- `zipData[Write++]=Buffer[ReadPos++]`, unless the index is outside the block. -/
def zipStore (s : Printer) : Except Halt Printer :=
  let zipData := s.command.zipData.getD []
  if s.command.Write < zipData.length then
    .ok { s with command :=
      { s.command with
        zipData := some (zipData.set s.command.Write (s.command.byteAt 0))
        Write := s.command.Write + 1
        ReadPos := s.command.ReadPos + 1 } }
  else .error .fault

/-- The loop `while(Write<ZipSize)` of `CommandZipFetchData`, over the number of turns it has left;
`entrance` is `ZipDecodeEntrance`. -/
def zipFetchLoop (entrance : Printer → Except Halt Printer) :
    Nat → Printer → Except Halt Printer
  | 0, s => .ok s
  | left + 1, s =>
    if s.command.ReadPos + 1 ≤ s.command.TotalLength then do
      let s ← s.zipStore
      if s.command.Write ≥ s.command.ZipSize then
        let s ← entrance s
        .ok { s with command := { s.command with Write := 0 } }
      else zipFetchLoop entrance left s
    else .ok s.ReturnModle

/-- `if(command.zipData==NULL) command.zipData=malloc(ZipSize);` -/
def zipAlloc (s : Printer) : Printer :=
  match s.command.zipData with
  | none =>
    { s with command :=
      { s.command with zipData := some (List.replicate s.command.ZipSize 0) } }
  | some _ => s

/-- `CommandZipFetchData`. -/
def CommandZipFetchData (entrance : Printer → Except Halt Printer) (s : Printer) :
    Except Halt Printer :=
  zipFetchLoop entrance (s.command.ZipSize - s.command.Write) s.zipAlloc

/-- The handlers that need no other part of the parser, by decode state. -/
def handle (s : Printer) : Printer :=
  match s.command.DecodeStatus with
  | .CommandSpeed => s.CommandSetSpeed
  | .CommandDensity => s.CommandSetDensity
  | .CommandPaperType => s.CommandSetPaperType
  | .CommandPageStart => s.CommandSetPageStart
  | .CommandLineStart => s.CommandSetLineStart
  | .CommandLineEnd => s.CommandSetLineEnd
  | .CommandPageEnd => s.CommandSetPageEnd
  | .CommandZipStart => s.CommandZipSize
  | .commandNVSWiFi => s.CommandNVSWiFi
  | .commandSetBTName => s.CommandSetBTName
  | .commandSetPID => s.CommandSetPID
  | _ => s.IdleProces

/-- The `switch` of `PrintDataProcesser`. -/
def dispatch (entrance : Printer → Except Halt Printer) (s : Printer) : Except Halt Printer :=
  if s.command.DecodeStatus = .CommandZipData then s.CommandZipFetchData entrance
  else .ok s.handle

/-- `PrintDataProcesser`: one handler after another until the packet is suspended. A compressed
block re-enters this loop with its inflated bytes. -/
def PrintDataProcesser (env : Env) : Nat → Printer → Except Halt Printer
  | 0, _ => .error .fuel
  | fuel + 1, s =>
    if s.command.ReturnFlag then .ok s
    else do
      let s ← s.dispatch (ZipDecodeEntrance env (PrintDataProcesser env fuel) fuel)
      PrintDataProcesser env fuel s

/-- A call of `PrintDataManagement` with one packet. -/
def feed (env : Env) (fuel : Nat) (data : List UInt8) (s : Printer) :
    Except Halt (Bool × Printer) :=
  PrintDataManagement (PrintDataProcesser env fuel) data s

end Printer

end ThermalPrinter
