import ThermalPrinter.Lib.Lookahead
import ThermalPrinter.Parser.Handlers

/-!
# The parser as a reader with look-ahead

What the parser does with the bytes of a packet, without the buffer: a reader (`Lookahead.Reader`)
whose control state is the `Decoder` and whose output is the log of executed commands. A state that
waits for arguments reacts as soon as `need` bytes are there and reads `use` of them; `need` is one
more than `use` for most commands, because most handlers of the source want one byte more than they
read. A row is read token byte by token byte.

The reader is blocked where the parser waits for more data and also where a compressed block needs
its last byte stored: inflating the block re-enters the parser, which is not a reaction
(`ThermalPrinter.Parser.Simulation` connects the reader with the handlers).
-/

namespace ThermalPrinter

open Lookahead

namespace Decoder

/-- What a reaction gives: the next decoder, the bytes it leaves and the events. -/
abbrev Reaction := Option (Decoder × List UInt8 × List Event)

/-- The reaction of a state that waits for arguments: with `need` bytes unread, `use` of them are
read. -/
def arg (need use : Nat) (f : List UInt8 → Decoder × List Event) (u : List UInt8) : Reaction :=
  if need ≤ u.length then some ((f (u.take use)).1, u.drop use, (f (u.take use)).2) else none

/-- The decoder, idle. -/
def idle (d : Decoder) : Decoder := { d with DecodeStatus := .CommandIdle }

/-- After a token: a row with enough dots is queued. -/
def finish (d : Decoder) : Decoder × List Event :=
  if d.Dots ≥ LineDecodeDots then
    (d.idle, [.row { data := d.DotsMatric.take PrintlineBytes, PageNum := d.PageNum }])
  else (d, [])

/-- A token byte with the dot or the gray flag it carries. -/
def headByte (d : Decoder) (b : UInt8) : Decoder × List Event :=
  if b &&& 0x80 ≠ 0 then
    ({ d with LineDeCodeWrite := .UserDefineCommandData, DotValue := b &&& 0x7f ≠ 0 }, [])
  else
    finish { d with
      DotsMatric :=
        if b &&& 0x7f ≠ 0 ∧ d.Dots < 576 then Printer.setDot d.DotsMatric d.Dots
        else d.DotsMatric
      Dots := d.Dots + 1 }

/-- The count byte of a run. -/
def countByte (d : Decoder) (b : UInt8) : Decoder × List Event :=
  let r := finish { d with
    DotsMatric :=
      if d.DotValue then Printer.fillDots d.DotsMatric d.Dots (b.toNat + 1) else d.DotsMatric
    Dots := d.Dots + (b.toNat + 1) }
  ({ r.1 with LineDeCodeWrite := .UserDefineCommandHead }, r.2)

/-- One byte of a row. -/
def token (d : Decoder) (b : UInt8) : Decoder × List Event :=
  match d.LineDeCodeWrite with
  | .UserDefineCommandHead => d.headByte b
  | .UserDefineCommandData => d.countByte b

/-- The state entered by a command head. -/
def enter (d : Decoder) (status : CMDStatus) : Decoder :=
  if status = .CommandLineStart then
    { d with
      DecodeStatus := status
      LineDeCodeWrite := .UserDefineCommandHead
      Dots := 0
      DotsMatric := List.replicate PrintlineBytes 0 ++ d.DotsMatric.drop PrintlineBytes }
  else { d with DecodeStatus := status }

/-- The head that the bytes begin with, if a byte follows it. -/
def findHead (u : List UInt8) : Option (CMDStatus × List UInt8) :=
  CMDHead.find? (fun h => decide (h.2.length < u.length) && u.take h.2.length == h.2)

/-- The idle scan. -/
def scan (d : Decoder) (u : List UInt8) : Reaction :=
  match findHead u with
  | some (status, head) => some (d.enter status, u.drop head.length, [])
  | none => if MAxHeadLength ≤ u.length then some (d, u.drop 1, []) else none

/-- The block data: allocate the block, or store a byte that is not its last. -/
def fetch (d : Decoder) (u : List UInt8) : Reaction :=
  match d.zipData with
  | none => arg 0 0 (fun _ => ({ d with zipData := some (List.replicate d.ZipSize 0) }, [])) u
  | some zipData =>
    if d.Write < zipData.length ∧ d.Write + 1 < d.ZipSize then
      arg 1 1
        (fun a => ({ d with
          zipData := some (zipData.set d.Write (a.getD 0 0)), Write := d.Write + 1 }, [])) u
    else none

/-- The reaction of the parser in each of its states. -/
def react (d : Decoder) (u : List UInt8) : Reaction :=
  match d.DecodeStatus with
  | .CommandSpeed =>
    arg 3 2
      (fun a =>
        let Speed := (a.getD 0 0).toNat * 256 + (a.getD 1 0).toNat
        ({ d with
          Speed := Speed, AccSteps := CalculateAccSteps Speed, DecodeStatus := .CommandIdle },
          [.speed Speed (CalculateAccSteps Speed)])) u
  | .CommandDensity =>
    arg 2 1
      (fun a =>
        let density := Printer.clampDensity d.HeadStbLowValid (a.getD 0 0)
        ({ d with density := density, DecodeStatus := .CommandIdle }, [.density density])) u
  | .CommandPaperType =>
    arg 2 1
      (fun a => ({ d with PaperType := a.getD 0 0, DecodeStatus := .CommandIdle },
        [.paperType (a.getD 0 0)])) u
  | .CommandPageStart =>
    arg 0 0 (fun _ => ({ d with DecodeStatus := .CommandIdle, PageEndFlag := false },
      [.pageStart])) u
  | .CommandLineStart => arg 2 1 (fun a => d.token (a.getD 0 0)) u
  | .CommandLineEnd => arg 0 0 (fun _ => (d.idle, [.lineEnd])) u
  | .CommandPageEnd =>
    arg 0 0
      (fun _ => ({ d with
        DecodeStatus := .CommandIdle, PageEndFlag := true, PageNum := d.PageNum + 1 },
        [.pageEnd (d.PageNum + 1)])) u
  | .CommandZipStart =>
    arg 2 2
      (fun a => ({ d with
        ZipSize := (a.getD 0 0).toNat * 256 + (a.getD 1 0).toNat
        DecodeStatus := .CommandZipData }, [])) u
  | .CommandZipData => d.fetch u
  | .commandNVSWiFi => arg 64 64 (fun a => (d.idle, [.nvs (a.take 32) (a.drop 32)])) u
  | .commandSetBTName => arg 32 32 (fun a => (d.idle, [.btName a])) u
  | .commandSetPID => arg 3 2 (fun a => (d.idle, [.pid (a.getD 0 0) (a.getD 1 0)])) u
  | _ => d.scan u

/-- A block is at its last byte, or the store of the next byte would be outside the block, or the
block has no room left: the parser is blocked, but does not wait for data. -/
def AtBlock (d : Decoder) (u : List UInt8) : Prop :=
  d.DecodeStatus = .CommandZipData ∧ (d.ZipSize ≤ d.Write ∨ u ≠ [])

instance (d : Decoder) (u : List UInt8) : Decidable (d.AtBlock u) := by
  unfold AtBlock; infer_instance

end Decoder

/-- The parser as a reader. -/
def parser : Reader Decoder UInt8 Event := ⟨Decoder.react⟩

theorem parser_react (d : Decoder) (u : List UInt8) : parser.react d u = d.react u := rfl

theorem parser_blocked {d : Decoder} {u : List UInt8} :
    parser.Blocked d u ↔ d.react u = none := Iff.rfl

end ThermalPrinter
