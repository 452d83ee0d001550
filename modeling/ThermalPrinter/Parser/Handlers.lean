import ThermalPrinter.Parser.Command

/-!
# The command handlers

The handlers that `PrintDataProcesser` dispatches to, except the two that touch a compressed block
(`ThermalPrinter.Parser.Process`). Each tests whether the bytes it needs have arrived, with the
comparison the source uses (most of them want one byte more than they read), and otherwise suspends
the packet through `ReturnModle`.
-/

namespace ThermalPrinter

/-- `TableSpeedUS`: the step periods of the acceleration table. -/
def TableSpeedUS : List Nat :=
  [10000, 3000, 2519, 2375, 1917, 1717, 1558, 1429, 1322, 1232, 1156, 1091, 1035, 987, 945, 908,
   875, 847, 822, 800, 781, 764, 750, 738, 727, 718, 712, 706, 702, 700, 700]

/-- `CalculateAccSteps`: the first table entry not above the period, or the last index. -/
def CalculateAccSteps (Speed : Nat) : Nat :=
  ((List.range 31).find? (fun i => Speed ≥ TableSpeedUS.getD i 0)).getD 30

namespace Printer

/-- `ReturnModle`: suspend the packet and record how many bytes stay unread. -/
def ReturnModle (s : Printer) : Printer :=
  { s with command :=
    { s.command with
      LineDecodeOneceFinshed := true
      ReturnFlag := true
      RemainderLength := s.command.TotalLength - s.command.ReadPos } }

/-- Append to the log of executed commands. -/
def record (s : Printer) (e : Event) : Printer := { s with log := s.log ++ [e] }

/-- `CommandSetSpeed`. -/
def CommandSetSpeed (s : Printer) : Printer :=
  if s.command.ReadPos + 2 < s.command.TotalLength then
    let Speed := (s.command.byteAt 0).toNat * 256 + (s.command.byteAt 1).toNat
    let AccSteps := CalculateAccSteps Speed
    { s with command :=
      { s.command with
        Speed := Speed, AccSteps := AccSteps, ReadPos := s.command.ReadPos + 2
        DecodeStatus := .CommandIdle } }.record (.speed Speed AccSteps)
  else s.ReturnModle

/-- The density that `CommandSetDensity` stores for a density byte: never below 96 for a head whose
strobe is active low, never below 45 for the others. -/
def clampDensity (HeadStbLowValid density : UInt8) : UInt8 :=
  if HeadStbLowValid = 1 then if density < 96 then 96 else density
  else if density < 45 then 45 else density

/-- `CommandSetDensity`. -/
def CommandSetDensity (s : Printer) : Printer :=
  if s.command.ReadPos + 1 < s.command.TotalLength then
    let density := clampDensity s.command.HeadStbLowValid (s.command.byteAt 0)
    { s with command :=
      { s.command with
        density := density, ReadPos := s.command.ReadPos + 1
        DecodeStatus := .CommandIdle } }.record (.density density)
  else s.ReturnModle

/-- `CommandSetPaperType`. -/
def CommandSetPaperType (s : Printer) : Printer :=
  if s.command.ReadPos + 1 < s.command.TotalLength then
    { s with command :=
      { s.command with
        PaperType := s.command.byteAt 0, ReadPos := s.command.ReadPos + 1
        DecodeStatus := .CommandIdle } }.record (.paperType (s.command.byteAt 0))
  else s.ReturnModle

/-- `CommandSetPageStart`. -/
def CommandSetPageStart (s : Printer) : Printer :=
  { s with command :=
    { s.command with DecodeStatus := .CommandIdle, PageEndFlag := false } }.record .pageStart

/-- `WritePrintLinkedList`: queue the first `PrintlineBytes` bytes of the dot matrix as a row of
the current page. -/
def WritePrintLinkedList (s : Printer) : Printer :=
  let LLData : LinkedListData :=
    { data := s.command.DotsMatric.take PrintlineBytes, PageNum := s.command.PageNum }
  { s with PrintBLink := s.PrintBLink ++ [LLData] }.record (.row LLData)

/-- `Cmp`: the bit of a dot inside its byte. -/
def Cmp : List UInt8 := [0x80, 0x40, 0x20, 0x10, 0x08, 0x04, 0x02, 0x01]

/-- `DotsMatric[i/8]|=Cmp[i%8]`. -/
def setDot (m : List UInt8) (i : Nat) : List UInt8 := m.modify (i / 8) (· ||| Cmp.getD (i % 8) 0)

/-- The dot loop of a run: `LineDots` dots from `Dots` on, none from dot 576 on. -/
def fillDots (m : List UInt8) (Dots : Nat) : Nat → List UInt8
  | 0 => m
  | LineDots + 1 => if Dots < 576 then fillDots (setDot m Dots) (Dots + 1) LineDots else m

/-- The end of a token: once the row has `LineDecodeDots` dots it is queued and the parser is idle
again. -/
def finishLine (s : Printer) : Printer :=
  if s.command.Dots ≥ LineDecodeDots then
    { s with command :=
      { s.command with
        DecodeStatus := .CommandIdle, LineDecodeOneceFinshed := true } }.WritePrintLinkedList
  else s

/-- The case `UserDefineCommandHead` of `CommandSetLineStart`: the first byte of a token. -/
def lineCommandHead (s : Printer) : Printer :=
  if s.command.ReadPos + 1 < s.command.TotalLength then
    let b := s.command.byteAt 0
    let s :=
      if b &&& 0x80 ≠ 0 then
        { s with command :=
          { s.command with
            LineDeCodeWrite := .UserDefineCommandData, DotValue := b &&& 0x7f ≠ 0 } }
      else
        { s with command :=
          { s.command with
            DotsMatric :=
              if b &&& 0x7f ≠ 0 ∧ s.command.Dots < 576 then
                setDot s.command.DotsMatric s.command.Dots
              else s.command.DotsMatric
            Dots := s.command.Dots + 1 } }.finishLine
    { s with command := { s.command with ReadPos := s.command.ReadPos + 1 } }
  else s.ReturnModle

/-- The case `UserDefineCommandData` of `CommandSetLineStart`: the count byte of a run. -/
def lineCommandData (s : Printer) : Printer :=
  if s.command.ReadPos + 1 < s.command.TotalLength then
    let LineDots := (s.command.byteAt 0).toNat + 1
    let s : Printer :=
      { s with command :=
        { s.command with
          ReadPos := s.command.ReadPos + 1
          DotsMatric :=
            if s.command.DotValue then fillDots s.command.DotsMatric s.command.Dots LineDots
            else s.command.DotsMatric
          Dots := s.command.Dots + LineDots } }
    let s := s.finishLine
    { s with command := { s.command with LineDeCodeWrite := .UserDefineCommandHead } }
  else s.ReturnModle

/-- One turn of the loop of `CommandSetLineStart`. -/
def lineToken (s : Printer) : Printer :=
  match s.command.LineDeCodeWrite with
  | .UserDefineCommandHead => s.lineCommandHead
  | .UserDefineCommandData => s.lineCommandData

/-- The loop of `CommandSetLineStart`. Every turn reads a byte or leaves the loop, so `n` turns are
enough when fewer than `n` bytes are unread. -/
def lineLoop : Nat → Printer → Printer
  | 0, s => s
  | n + 1, s => if s.command.LineDecodeOneceFinshed then s else lineLoop n s.lineToken

/-- `CommandSetLineStart`. -/
def CommandSetLineStart (s : Printer) : Printer :=
  lineLoop (s.command.TotalLength + 2)
    { s with command := { s.command with LineDecodeOneceFinshed := false } }

/-- `CommandSetLineEnd`. -/
def CommandSetLineEnd (s : Printer) : Printer :=
  { s with command := { s.command with DecodeStatus := .CommandIdle } }.record .lineEnd

/-- `CommandSetPageEnd`. -/
def CommandSetPageEnd (s : Printer) : Printer :=
  { s with command :=
    { s.command with
      DecodeStatus := .CommandIdle, PageEndFlag := true
      PageNum := s.command.PageNum + 1 } }.record (.pageEnd (s.command.PageNum + 1))

/-- The next `n` bytes of the buffer. -/
def bytes (s : Printer) (n : Nat) : List UInt8 := s.command.unread.take n

/-- `CommandSetBTName`: the 32 bytes of the payload are handed on. -/
def CommandSetBTName (s : Printer) : Printer :=
  if s.command.ReadPos + 32 ≤ s.command.TotalLength then
    { s with command :=
      { s.command with
        ReadPos := s.command.ReadPos + 32
        DecodeStatus := .CommandIdle } }.record (.btName (s.bytes 32))
  else s.ReturnModle

/-- `CommandSetPID`: the low and the high byte of the product id are handed on. -/
def CommandSetPID (s : Printer) : Printer :=
  if s.command.ReadPos + 2 < s.command.TotalLength then
    { s with command :=
      { s.command with
        ReadPos := s.command.ReadPos + 2
        DecodeStatus := .CommandIdle } }.record
          (.pid (s.command.byteAt 0) (s.command.byteAt 1))
  else s.ReturnModle

/-- `CommandNVSWiFi`: the two 32-byte fields are handed on. -/
def CommandNVSWiFi (s : Printer) : Printer :=
  if s.command.ReadPos + 64 ≤ s.command.TotalLength then
    { s with command :=
      { s.command with
        ReadPos := s.command.ReadPos + 64
        DecodeStatus := .CommandIdle } }.record
          (.nvs (s.bytes 32) ((s.command.unread.drop 32).take 32))
  else s.ReturnModle

/-- The test of the idle scan for one head: more bytes than the head are unread, and they begin
with it. -/
def headMatches (c : Command) (head : List UInt8) : Bool :=
  decide (c.ReadPos + head.length < c.TotalLength) && c.unread.take head.length == head

/-- `IdleProces`: enter the state of the first head that matches; otherwise skip a byte if
`MAxHeadLength` bytes are there. -/
def IdleProces (s : Printer) : Printer :=
  match CMDHead.find? (fun h => headMatches s.command h.2) with
  | some (status, head) =>
    let s : Printer :=
      { s with command :=
        { s.command with ReadPos := s.command.ReadPos + head.length, DecodeStatus := status } }
    if status = .CommandLineStart then
      { s with command :=
        { s.command with
          LineDeCodeWrite := .UserDefineCommandHead
          Dots := 0
          DotsMatric :=
            List.replicate PrintlineBytes 0 ++ s.command.DotsMatric.drop PrintlineBytes } }
    else s
  | none =>
    if s.command.ReadPos + MAxHeadLength ≤ s.command.TotalLength then
      { s with command := { s.command with ReadPos := s.command.ReadPos + 1 } }
    else s.ReturnModle

/-- `CommandZipSize`: the size of the block, high byte first. -/
def CommandZipSize (s : Printer) : Printer :=
  if s.command.ReadPos + 2 ≤ s.command.TotalLength then
    { s with command :=
      { s.command with
        ZipSize := (s.command.byteAt 0).toNat * 256 + (s.command.byteAt 1).toNat
        ReadPos := s.command.ReadPos + 2
        DecodeStatus := .CommandZipData } }
  else s.ReturnModle

end Printer

end ThermalPrinter
