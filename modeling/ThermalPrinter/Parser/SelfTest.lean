import Mathlib.Logic.Relation
import Mathlib.Order.Monotone.Basic
import ThermalPrinter.Parser.Packet
import ThermalPrinter.Parser.Pages
import ThermalPrinter.Parser.Stored

/-!
# The self test page

`SelfPrint` runs in the task of the keys and prints its pages with the handlers of the parser, on
the command record of the host's stream. It ends a page and begins one, so it closes a page that the
host has open and drops the command the host is in the middle of. Between two pages it is invisible
but for the page numbers, which all move up by three (`selfPrint_unnoticed`). The proof follows the
two runs with and without self tests: they stay equal up to the shift of the page number
(`Decoder.shift`), with which every reaction of the parser commutes.
-/

namespace ThermalPrinter

open Lookahead Relation

/-- What `SelfPrint` reads: the rows that `SelfPrintWriteLines` draws for a text (`draw`, with the
font of `AsciiLib.c`), the names and addresses it prints, as they are printed, and the levels of the
gap sensor, once they are known (`gapCalculated`). -/
structure SelfTest where
  draw : String → Nat → List UInt8
  gap_device_name : String
  PID : String
  VID : String
  BLE_MAC : String
  EDR_MAC : String
  WiFiMAC : String
  SSIDSave : String
  PASSWORDSave : String
  IPAddress : String
  gap : Option String

namespace SelfTest

/-- The lines of the first page. -/
def firstPage : List String :=
  ["  ", " Printer self Test", " Right  Button: OTA    Detected  ",
   " Middle Button: Power  ON/OFF", " Left   Button: Self   Test",
   " Press  Self Test Button to print this self ",
   "        page after Power ON in  5 minutes",
   " Press  Power  Button over 3 second when red", "        led blink to Power OFF",
   " Press  OTA Button, then Power ON, Enter", "        to OTA Mode",
   " Hardware : D12 V101", " Software : D12 20251221",
   " Interface: USB+WiFi+BT(BLE+EDR)"]

/-- The lines of the second page. -/
def secondPage (t : SelfTest) : List String :=
  [" Model    : TP877 SZ", " BT Name  : " ++ t.gap_device_name,
   " PID      : " ++ t.PID ++ "   VID:" ++ t.VID, " BLE  MAC : " ++ t.BLE_MAC,
   " EDR  MAC : " ++ t.EDR_MAC, " WiFi MAC : " ++ t.WiFiMAC, " SSID     : " ++ t.SSIDSave,
   " PWD      : " ++ t.PASSWORDSave, " I P      : " ++ t.IPAddress,
   " Head     : 3inch (576dots,72mm,8d/mm)", " LedPWM   : 40%",
   " !#S%&\x27()*+,-./0123456789:;<=>?@ABCDDEFGHIJKLMNOP"]

/-- The lines of the third page, up to the dots test. -/
def thirdPage (t : SelfTest) : List String :=
  ["  ", " QRSTUVWXYZ[]^-\x27abcdefghijklmnopqrstuvwxyz\x7b!\x7d"] ++
    (t.gap.map (" ADC Page/Level/Gap: " ++ ·)).toList ++ [" Printer dots test:"]

/-- A row of the dots test: every fourth dot, from dot `j` on. -/
def dotsRow (j : Nat) : List UInt8 :=
  List.replicate 2 (0 : UInt8) ++ List.replicate 70 ((0x88 : UInt8) >>> UInt8.ofNat j)

/-- The rows of the lines. -/
def lineRows (t : SelfTest) (lines : List String) : List (List UInt8) :=
  lines.flatMap fun line => (List.range (24 + 4)).map (t.draw line)

/-- The rows of the first page. -/
def rows₁ (t : SelfTest) : List (List UInt8) := t.lineRows firstPage

/-- The rows of the second page. -/
def rows₂ (t : SelfTest) : List (List UInt8) := t.lineRows t.secondPage

/-- The rows of the dots test, 24 for each of the four phases. -/
def dotsRows : List (List UInt8) := (List.range 4).flatMap fun j => List.replicate 24 (dotsRow j)

/-- The rows of the third page. -/
def rows₃ (t : SelfTest) : List (List UInt8) :=
  t.lineRows t.thirdPage ++ dotsRows ++ t.lineRows [" Self page end!"]

end SelfTest

namespace Printer

/-- `WritePrintLinkedListB`: queue a drawn row as a row of the current page. -/
def WritePrintLinkedListB (s : Printer) (Buffer : List UInt8) : Printer :=
  let LLData : LinkedListData := { data := Buffer, PageNum := s.command.PageNum }
  { s with PrintBLink := s.PrintBLink ++ [LLData] }.record (.row LLData)

/-- `SelfPrintWriteLines`: the 24 rows of a text and the four of the line gap. -/
def SelfPrintWriteLines (draw : String → Nat → List UInt8) (s : Printer) (BufferStr : String) :
    Printer :=
  ((List.range (24 + 4)).map (draw BufferStr)).foldl WritePrintLinkedListB s

/-- `DotsCheck`. -/
def DotsCheck (s : Printer) : Printer := SelfTest.dotsRows.foldl WritePrintLinkedListB s

/-- `SelfPrint`. -/
def SelfPrint (t : SelfTest) (s : Printer) : Printer :=
  let s := (SelfTest.firstPage.foldl (SelfPrintWriteLines t.draw) s.CommandSetPageStart)
  let s := s.CommandSetPageEnd
  let s := (t.secondPage.foldl (SelfPrintWriteLines t.draw) s.CommandSetPageStart)
  let s := s.CommandSetPageEnd
  let s := (t.thirdPage.foldl (SelfPrintWriteLines t.draw) s.CommandSetPageStart)
  let s := SelfPrintWriteLines t.draw s.DotsCheck " Self page end!"
  s.CommandSetPageEnd

/-! ## What the self test prints -/

variable {s : Printer} {t : SelfTest} {rows : List (List UInt8)}

/-- The printer with drawn rows queued. -/
def drawn (s : Printer) (rows : List (List UInt8)) : Printer :=
  { s with
    PrintBLink := s.PrintBLink ++ rows.map fun row => ⟨row, s.command.PageNum⟩
    log := s.log ++ rows.map fun row => .row ⟨row, s.command.PageNum⟩ }

theorem foldl_WritePrintLinkedListB (rows : List (List UInt8)) (s : Printer) :
    rows.foldl WritePrintLinkedListB s = s.drawn rows := by
  induction rows generalizing s with
  | nil => simp [drawn]
  | cons row rows ih =>
    rw [List.foldl_cons, ih]
    simp [drawn, WritePrintLinkedListB, record]

theorem drawn_drawn (s : Printer) (rows rows' : List (List UInt8)) :
    (s.drawn rows).drawn rows' = s.drawn (rows ++ rows') := by
  simp [drawn]

/-- Lines are drawn one after another. -/
theorem foldl_SelfPrintWriteLines (t : SelfTest) (lines : List String) (s : Printer) :
    lines.foldl (SelfPrintWriteLines t.draw) s = s.drawn (t.lineRows lines) := by
  unfold SelfTest.lineRows
  induction lines generalizing s with
  | nil => simp [drawn]
  | cons line lines ih =>
    rw [List.foldl_cons, ih, SelfPrintWriteLines, foldl_WritePrintLinkedListB, drawn_drawn,
      List.flatMap_cons]

/-- The printer with a page of drawn rows. -/
def drawnPage (s : Printer) (rows : List (List UInt8)) : Printer :=
  (s.CommandSetPageStart.drawn rows).CommandSetPageEnd

/-- The self test prints three pages. -/
theorem SelfPrint_eq (t : SelfTest) (s : Printer) :
    s.SelfPrint t = ((s.drawnPage t.rows₁).drawnPage t.rows₂).drawnPage t.rows₃ := by
  have hlast (s : Printer) (line : String) :
      SelfPrintWriteLines t.draw s line = s.drawn (t.lineRows [line]) := by
    rw [← foldl_SelfPrintWriteLines, List.foldl_cons, List.foldl_nil]
  simp only [SelfPrint, foldl_SelfPrintWriteLines, hlast, DotsCheck, foldl_WritePrintLinkedListB,
    drawn_drawn, drawnPage, SelfTest.rows₁, SelfTest.rows₂, SelfTest.rows₃]

/-- What a page of drawn rows logs. -/
def drawnEvents (PageNum : Nat) (rows : List (List UInt8)) : List Event :=
  [.pageStart] ++ rows.map (fun row => .row ⟨row, PageNum⟩) ++ [.pageEnd (PageNum + 1)]

/-- Rows drawn on page `P` are numbered and end no page. -/
theorem numbered_drawn (P : Nat) (rows : List (List UInt8)) :
    Numbered P (rows.map fun row => .row ⟨row, P⟩) ∧
      Event.ends (rows.map fun row => .row ⟨row, P⟩) = 0 ∧
      Event.rows (rows.map fun row => .row ⟨row, P⟩) = rows.map fun row => ⟨row, P⟩ := by
  induction rows with
  | nil => exact ⟨trivial, rfl, rfl⟩
  | cons row rows ih =>
    obtain ⟨hnum, hends, hrows⟩ := ih
    exact ⟨⟨rfl, hnum⟩, hends, congrArg _ hrows⟩

/-- **A page of drawn rows** is numbered and queued like one of the host. -/
theorem drawnPage_adds (s : Printer) (rows : List (List UInt8)) :
    Adds s (s.drawnPage rows) (drawnEvents s.command.PageNum rows) := by
  obtain ⟨hnum, hends, hrows⟩ := numbered_drawn s.command.PageNum rows
  have hstart : Adds s s.CommandSetPageStart [.pageStart] :=
    ⟨rfl, trivial, rfl, by simp [CommandSetPageStart, record, Event.rows]⟩
  have hdrawn : Adds s.CommandSetPageStart (s.CommandSetPageStart.drawn rows)
      (rows.map fun row => .row ⟨row, s.command.PageNum⟩) :=
    ⟨rfl, hnum, by rw [hends]; rfl, hrows ▸ List.suffix_rfl⟩
  have hend : Adds (s.CommandSetPageStart.drawn rows) (s.drawnPage rows)
      [.pageEnd (s.command.PageNum + 1)] :=
    ⟨rfl, ⟨rfl, trivial⟩, rfl, by simp [drawnPage, CommandSetPageEnd, record, Event.rows]⟩
  exact (hstart.trans hdrawn).trans hend

/-- What the self test logs from page `P` on. -/
def selfEvents (t : SelfTest) (P : Nat) : List Event :=
  drawnEvents P t.rows₁ ++ drawnEvents (P + 1) t.rows₂ ++ drawnEvents (P + 2) t.rows₃

/-- **The self test** is numbered and queued like pages of the host. -/
theorem SelfPrint_adds (t : SelfTest) (s : Printer) :
    Adds s (s.SelfPrint t) (selfEvents t s.command.PageNum) := by
  rw [SelfPrint_eq]
  exact ((drawnPage_adds s t.rows₁).trans (drawnPage_adds _ t.rows₂)).trans
    (drawnPage_adds _ t.rows₃)

/-- The self test leaves the parser idle, three pages on, with the last page ended. -/
theorem SelfPrint_decoder (t : SelfTest) (s : Printer) :
    (s.SelfPrint t).decoder =
      { s.decoder with
        DecodeStatus := .CommandIdle, PageEndFlag := true, PageNum := s.decoder.PageNum + 3 } := by
  rw [SelfPrint_eq]
  rfl

theorem SelfPrint_remainder (t : SelfTest) (s : Printer) :
    (s.SelfPrint t).remainder = s.remainder := by
  rw [SelfPrint_eq]
  rfl

/-- The rows of the self test belong to its three pages. -/
theorem selfEvents_bounds {t : SelfTest} {P : Nat} :
    ∀ r ∈ Event.rows (selfEvents t P), P ≤ r.PageNum ∧ r.PageNum < P + 3 := by
  have hpage (P : Nat) (rows : List (List UInt8)) :
      ∀ r ∈ Event.rows (drawnEvents P rows), r.PageNum = P := by
    intro r hr
    simp only [drawnEvents, rows_append, (numbered_drawn P rows).2.2] at hr
    simp only [Event.rows, List.nil_append, List.append_nil, List.mem_map] at hr
    obtain ⟨row, -, rfl⟩ := hr
    rfl
  intro r hr
  simp only [selfEvents, rows_append, List.mem_append] at hr
  rcases hr with (hr | hr) | hr <;> have := hpage _ _ r hr <;> omega

end Printer

/-! ## The shift of the page numbers -/

/-- The row with another page number. -/
def LinkedListData.renumber (f : Nat → Nat) (r : LinkedListData) : LinkedListData :=
  { r with PageNum := f r.PageNum }

/-- The event with the page numbers moved up. -/
def Event.shift (k : Nat) : Event → Event
  | .row LLData => .row (LLData.renumber (· + k))
  | .pageEnd PageNum => .pageEnd (PageNum + k)
  | e => e

theorem Event.rows_shift (k : Nat) (es : List Event) :
    Event.rows (es.map (Event.shift k)) = (Event.rows es).map (·.renumber (· + k)) := by
  induction es with
  | nil => rfl
  | cons e es ih => cases e <;> simp [Event.shift, Event.rows, ih]

namespace Decoder

variable {d d' : Decoder} {u u' : List UInt8} {es : List Event} {k : Nat} {z : Zlib}

/-- The decoder with the page number moved up. -/
def shift (k : Nat) (d : Decoder) : Decoder := { d with PageNum := d.PageNum + k }

/-- The end of a token only copies the page number. -/
theorem shift_finish (d : Decoder) :
    (d.shift k).finish = (d.finish.1.shift k, d.finish.2.map (Event.shift k)) := by
  unfold finish shift
  split <;> rfl

/-- A token only copies the page number. -/
theorem shift_token (d : Decoder) (b : UInt8) :
    (d.shift k).token b = ((d.token b).1.shift k, (d.token b).2.map (Event.shift k)) := by
  unfold token
  rw [show (d.shift k).LineDeCodeWrite = d.LineDeCodeWrite from rfl]
  cases d.LineDeCodeWrite with
  | UserDefineCommandHead =>
    simp only [headByte]
    split
    · rfl
    · exact shift_finish { d with
        DotsMatric :=
          if b &&& 0x7f ≠ 0 ∧ d.Dots < 576 then Printer.setDot d.DotsMatric d.Dots
          else d.DotsMatric
        Dots := d.Dots + 1 }
  | UserDefineCommandData =>
    exact congrArg (fun r : Decoder × List Event =>
      ({ r.1 with LineDeCodeWrite := .UserDefineCommandHead }, r.2))
      (shift_finish { d with
        DotsMatric :=
          if d.DotValue then Printer.fillDots d.DotsMatric d.Dots (b.toNat + 1) else d.DotsMatric
        Dots := d.Dots + (b.toNat + 1) })

/-- **The parser commutes with the shift**: no reaction looks at the page number. -/
theorem shift_hom (k : Nat) : parser.Hom parser (shift k) (Event.shift k) := by
  intro d u
  have harg : ∀ {need use : Nat} {f g : List UInt8 → Decoder × List Event},
      (∀ a, g a = ((f a).1.shift k, (f a).2.map (Event.shift k))) →
      arg need use g u = (arg need use f u).map fun r =>
        (r.1.shift k, r.2.1, r.2.2.map (Event.shift k)) := by
    intro need use f g hfg
    unfold arg
    split
    · simp [hfg]
    · rfl
  have hscan : (d.shift k).scan u = (d.scan u).map fun r =>
      (r.1.shift k, r.2.1, r.2.2.map (Event.shift k)) := by
    unfold scan
    cases findHead u with
    | some h =>
      simp only [enter, Option.map_some, List.map_nil]
      split <;> rfl
    | none => simp only; split <;> rfl
  have hst : (d.shift k).DecodeStatus = d.DecodeStatus := rfl
  rw [parser_react, parser_react]
  cases h : d.DecodeStatus
  case CommandLineStart =>
    rw [react, react, hst, h]
    exact harg fun a => shift_token ..
  case CommandPageEnd =>
    rw [react, react, hst, h]
    refine harg ?_
    intro a
    simp only [shift, List.map_cons, List.map_nil, Event.shift, Nat.add_right_comm]
  case CommandZipData =>
    rw [react, react, hst, h]
    simp only [fetch, show (d.shift k).zipData = d.zipData from rfl]
    cases d.zipData with
    | none => exact harg fun a => rfl
    | some zipData =>
      simp only [show (d.shift k).Write = d.Write from rfl,
        show (d.shift k).ZipSize = d.ZipSize from rfl]
      split
      · exact harg fun a => rfl
      · rfl
  case CommandIdle | CommandTotalNum | CommandZipCheck | CommandNVSPID =>
    rw [react, react, hst, h]
    exact hscan
  all_goals
    rw [react, react, hst, h]
    exact harg fun a => rfl

/-- Packets that are calm with the page number moved up are calm without. -/
theorem calm_of_shift {ps : List (List UInt8)} (h : Printer.Calm (d.shift k) u ps) :
    Printer.Calm d u ps := by
  induction ps generalizing d u with
  | nil => exact trivial
  | cons p ps ih =>
    intro es d' u' hsteps hblk
    obtain ⟨hat, hcalm⟩ := h _ _ _ ((shift_hom k).steps hsteps) ((shift_hom k).blocked.2 hblk)
    exact ⟨hat, ih hcalm⟩

end Decoder

section
variable {d d' : Decoder} {u u' : List UInt8} {es : List Event} {k : Nat} {z : Zlib}

/-- What a packet does with the page number moved up is what it does without, moved up. -/
theorem Reads.of_shift (h : Reads z (d.shift k) u es d' u') :
    ∃ es₀ d₀, es = es₀.map (Event.shift k) ∧ d' = d₀.shift k ∧ Reads z d u es₀ d₀ u' := by
  have hom := Decoder.shift_hom k
  cases h with
  | plain hs hb hat =>
    obtain ⟨es₀, d₀, rfl, rfl, hs₀⟩ := hom.of_steps hs
    exact ⟨es₀, d₀, rfl, rfl, .plain hs₀ (hom.blocked.1 hb) hat⟩
  | rejected hs hb hat hw hnone =>
    obtain ⟨es₀, d₀, rfl, rfl, hs₀⟩ := hom.of_steps hs
    exact ⟨es₀, _, rfl, rfl, .rejected hs₀ (hom.blocked.1 hb) hat hw hnone⟩
  | @inflated es₁ es₂ d₁ d₂ b rest u' strm pieces ended hs hb hat hw hsome hout hcalm hfeeds =>
    obtain ⟨es₀, d₀, rfl, rfl, hs₀⟩ := hom.of_steps hs
    obtain ⟨es₀', d₀', rfl, rfl, hfeeds₀⟩ := hom.of_feeds (s := d₀.inflating b) hfeeds
    exact ⟨es₀ ++ es₀', _, (List.map_append ..).symm, rfl, .inflated hs₀ (hom.blocked.1 hb) hat hw
      hsome hout (Decoder.calm_of_shift (d := d₀.inflating b) hcalm) hfeeds₀⟩

end

/-! ## Self tests between the packets of the host -/

/-- The printer between the host and the keys: the packets it accepted, and the rows that these and
the self tests queued. -/
structure Session where
  printer : Printer
  packets : List (List UInt8)
  hostRows : List LinkedListData
  selfRows : List LinkedListData

namespace Session

variable {S S' : Session} {env : Env} {v : UInt8} {d : Decoder} {es : List Event}
  {f : Nat → Nat} {k : Nat}

/-- What happens: the host offers a packet, the printing side takes rows, and a key starts the self
test. -/
inductive Action
  | packet (fuel : Nat) (data : List UInt8)
  | takeRows (n : Nat)
  | selfPrint (t : SelfTest)

/-- The session at boot. -/
def init (HeadStbLowValid : UInt8) : Session := ⟨Printer.init HeadStbLowValid, [], [], []⟩

/-- The rows queued from `s` to `s'`. -/
def queued (s s' : Printer) : List LinkedListData := Event.rows (s'.log.drop s.log.length)

/-- One action. -/
def next (env : Env) (S : Session) : Action → Except Halt Session
  | .packet fuel data => do
    let (accepted, s) ← Printer.feed env fuel data S.printer
    .ok { S with
      printer := s
      packets := if accepted then S.packets ++ [data] else S.packets
      hostRows := S.hostRows ++ queued S.printer s }
  | .takeRows n => .ok { S with printer := S.printer.takeRows n }
  | .selfPrint t =>
    .ok { S with
      printer := S.printer.SelfPrint t
      selfRows := S.selfRows ++ queued S.printer (S.printer.SelfPrint t) }

/-- The host is between two pages: the parser is idle, the last page is ended, and no row of the
host belongs to the page to come. -/
structure BetweenPages (S : Session) : Prop where
  DecodeStatus : S.printer.command.DecodeStatus = .CommandIdle
  PageEndFlag : S.printer.command.PageEndFlag = true
  fresh : ∀ r ∈ S.hostRows, r.PageNum ≠ S.printer.command.PageNum

/-- The actions that leave the pages of the host alone. -/
def Allows (S : Session) : Action → Prop
  | .selfPrint _ => S.BetweenPages
  | _ => True

/-- One allowed action. -/
def AllowedStep (env : Env) (S S' : Session) : Prop := ∃ a, S.Allows a ∧ S.next env a = .ok S'

/-- The host's rows are those of the printer `A`, with the pages renumbered in their order, the page
end is that of `A`, and no row of a self test is on a page of the host. -/
structure Agrees (S : Session) (A : Printer) : Prop where
  rows : ∃ f, StrictMono f ∧ S.hostRows = (Event.rows A.log).map (·.renumber f)
  PageEndFlag : S.printer.command.PageEndFlag = A.command.PageEndFlag
  apart : ∀ r ∈ S.hostRows, ∀ q ∈ S.selfRows, r.PageNum ≠ q.PageNum

/-- The packets can be fed to a printer without self tests, and however they are, the session agrees
with it. -/
def Unnoticed (env : Env) (HeadStbLowValid : UInt8) (S : Session) : Prop :=
  (∃ (ps : List (Nat × List UInt8)) (A : Printer) (n : Nat), ps.map Prod.snd = S.packets ∧
    ∀ fuel, n ≤ fuel →
      Printer.feedAll env fuel ps (Printer.init HeadStbLowValid) = .ok (some A)) ∧
    ∀ (ps : List (Nat × List UInt8)) (fuel : Nat) (A : Printer), ps.map Prod.snd = S.packets →
      Printer.feedAll env fuel ps (Printer.init HeadStbLowValid) = .ok (some A) → S.Agrees A

/-- The packets lead the parser to `d` with the events `es`; the printer is there with the page
number moved up by `k`, and the host's rows are those of `es` with the pages renumbered by `f`. -/
structure Tracks (env : Env) (HeadStbLowValid : UInt8) (S : Session) (d : Decoder)
    (es : List Event) (f : Nat → Nat) (k : Nat) : Prop where
  reads : ReadsAll env.zlib (Decoder.init HeadStbLowValid) [] S.packets es d S.printer.remainder
  decoder : S.printer.decoder = d.shift k
  tidy : d.Tidy
  hostRows : S.hostRows = (Event.rows es).map (·.renumber f)
  mono : StrictMono f
  ahead : ∀ p, d.PageNum ≤ p → f p = p + k
  known : ∀ r ∈ Event.rows es, r.PageNum ≤ d.PageNum
  selfRows : ∀ q ∈ S.selfRows, q.PageNum < d.PageNum + k ∧ ∀ p, f p ≠ q.PageNum

theorem init_tracks : (init v).Tracks env v (Decoder.init v) [] id 0 where
  reads := .nil
  decoder := rfl
  tidy := .inl ⟨rfl, rfl⟩
  hostRows := rfl
  mono := strictMono_id
  ahead := fun _ _ => rfl
  known := fun _ h => by cases h
  selfRows := fun _ h => by cases h

theorem queued_of_adds {s s' : Printer} (h : Printer.Adds s s' es) :
    queued s s' = Event.rows es := by
  rw [queued, h.log, List.drop_left]

/-- Rows of the pages to come are renumbered by the shift. -/
theorem renumber_ahead {rows : List LinkedListData} (hf : ∀ p, d.PageNum ≤ p → f p = p + k)
    (hrows : ∀ r ∈ rows, d.PageNum ≤ r.PageNum) :
    rows.map (·.renumber (· + k)) = rows.map (·.renumber f) := by
  refine List.map_congr_left ?_
  intro r hr
  rw [LinkedListData.renumber, LinkedListData.renumber, hf _ (hrows r hr)]

/-- **A packet** is read as without self tests. -/
theorem Tracks.packet (h : S.Tracks env v d es f k) (hfair : env.Fair) (hfin : env.zlib.Finite)
    {fuel : Nat} {data : List UInt8} (hr : S.next env (.packet fuel data) = .ok S') :
    ∃ d' es', S'.Tracks env v d' es' f k := by
  obtain ⟨⟨accepted, s⟩, hfeed, hS'⟩ := Printer.bind_eq_ok.1 hr
  cases hS'
  cases accepted with
  | false =>
    have hs : s = S.printer := by
      rw [Printer.feed, Printer.PrintDataManagement] at hfeed
      split at hfeed
      · cases hp : Printer.PrintDataProcesser env fuel (S.printer.realloc data) with
        | error e => rw [hp] at hfeed; cases hfeed
        | ok q => rw [hp] at hfeed; cases hfeed
      · cases hfeed
        rfl
    subst hs
    refine ⟨d, es, h.reads, h.decoder, h.tidy, ?_, h.mono, h.ahead, h.known, h.selfRows⟩
    simp [queued, Event.rows, h.hostRows]
  | true =>
    have htidy : S.printer.decoder.Tidy := by
      rw [h.decoder]
      exact h.tidy
    obtain ⟨es₁, hreads, hlog, htidy'⟩ := Printer.feed_reads hfair hfin htidy hfeed
    obtain ⟨es₂, hadds⟩ := Printer.feed_adds hfeed
    obtain rfl : es₁ = es₂ := List.append_cancel_left (hlog.symm.trans hadds.log)
    rw [h.decoder] at hreads
    obtain ⟨es₀, d₀, rfl, hd₀, hreads₀⟩ := hreads.of_shift
    -- the rows of the packet belong to pages from the current one on
    have hpage : S.printer.command.PageNum = d.PageNum + k := congrArg Decoder.PageNum h.decoder
    have hpage' : s.command.PageNum = d₀.PageNum + k := congrArg Decoder.PageNum hd₀
    have hnum := hadds.PageNum
    have hbounds : ∀ r ∈ Event.rows es₀, d.PageNum ≤ r.PageNum ∧ r.PageNum ≤ d₀.PageNum := by
      intro r hr
      have hmem : r.renumber (· + k) ∈ Event.rows (es₀.map (Event.shift k)) := by
        rw [Event.rows_shift]
        exact List.mem_map_of_mem hr
      have hb := hadds.numbered.bounds _ hmem
      simp only [LinkedListData.renumber] at hb
      omega
    refine ⟨d₀, es ++ es₀, h.reads.snoc hreads₀, hd₀, ?_, ?_, h.mono, ?_, ?_, ?_⟩
    · rw [hd₀] at htidy'
      exact htidy'
    · rw [queued_of_adds hadds, Event.rows_shift,
        renumber_ahead h.ahead fun r hr => (hbounds r hr).1, h.hostRows, Printer.rows_append,
        List.map_append]
    · exact fun p hp => h.ahead p (by omega)
    · intro r hr
      rw [Printer.rows_append] at hr
      rcases List.mem_append.1 hr with hr | hr
      · have := h.known r hr
        omega
      · exact (hbounds r hr).2
    · intro q hq
      obtain ⟨hlt, hne⟩ := h.selfRows q hq
      exact ⟨by omega, hne⟩

/-- **A self test between two pages** moves the pages to come up by three. -/
theorem Tracks.selfPrint (h : S.Tracks env v d es f k) (hbetween : S.BetweenPages) {t : SelfTest}
    (hr : S.next env (.selfPrint t) = .ok S') :
    S'.Tracks env v d es (fun p => if p < d.PageNum then f p else p + (k + 3)) (k + 3) := by
  cases hr
  have hpage : S.printer.command.PageNum = d.PageNum + k := congrArg Decoder.PageNum h.decoder
  -- the pages before the current one come before those of the self test
  have hbelow : ∀ p < d.PageNum, f p < d.PageNum + k := by
    intro p hp
    rw [← h.ahead _ (Nat.le_refl _)]
    exact h.mono hp
  have hknown : ∀ r ∈ Event.rows es, r.PageNum < d.PageNum := by
    intro r hr
    refine Nat.lt_of_le_of_ne (h.known r hr) ?_
    intro heq
    refine hbetween.fresh (r.renumber f) (h.hostRows ▸ List.mem_map_of_mem hr) ?_
    rw [hpage, LinkedListData.renumber, heq]
    exact h.ahead _ (Nat.le_refl _)
  refine ⟨?_, ?_, h.tidy, ?_, ?_, ?_, h.known, ?_⟩
  · rw [Printer.SelfPrint_remainder]
    exact h.reads
  · have hstatus : (d.shift k).DecodeStatus = .CommandIdle := h.decoder ▸ hbetween.DecodeStatus
    have hflag : (d.shift k).PageEndFlag = true := h.decoder ▸ hbetween.PageEndFlag
    rw [Printer.SelfPrint_decoder, h.decoder, ← hstatus, ← hflag]
    rfl
  · rw [h.hostRows]
    refine List.map_congr_left ?_
    intro r hr
    simp only [LinkedListData.renumber, if_pos (hknown r hr)]
  · intro p q hpq
    dsimp only
    split <;> split
    · exact h.mono hpq
    · have := hbelow p (by assumption)
      omega
    · omega
    · omega
  · intro p hp
    exact if_neg (Nat.not_lt.2 hp)
  · intro q hq
    rcases List.mem_append.1 hq with hq | hq
    · obtain ⟨hlt, hne⟩ := h.selfRows q hq
      refine ⟨by omega, ?_⟩
      intro p
      split
      · exact hne p
      · omega
    · rw [queued_of_adds (Printer.SelfPrint_adds t S.printer)] at hq
      have hb := Printer.selfEvents_bounds q hq
      refine ⟨by omega, ?_⟩
      intro p
      split
      · have := hbelow p (by assumption)
        omega
      · omega

/-- The session tracks its packets, as long as self tests run between two pages. -/
theorem tracks_of_run (hfair : env.Fair) (hfin : env.zlib.Finite)
    (h : ReflTransGen (AllowedStep env) (init v) S) :
    ∃ d es f k, S.Tracks env v d es f k := by
  induction h with
  | refl => exact ⟨_, _, _, _, init_tracks⟩
  | tail _ hstep ih =>
    obtain ⟨d, es, f, k, htracks⟩ := ih
    obtain ⟨a, hallows, hnext⟩ := hstep
    cases a with
    | packet fuel data =>
      obtain ⟨d', es', htracks'⟩ := htracks.packet hfair hfin hnext
      exact ⟨d', es', f, k, htracks'⟩
    | takeRows n =>
      cases hnext
      exact ⟨d, es, f, k, htracks.reads, htracks.decoder, htracks.tidy, htracks.hostRows,
        htracks.mono, htracks.ahead, htracks.known, htracks.selfRows⟩
    | selfPrint t => exact ⟨_, _, _, _, htracks.selfPrint hallows hnext⟩

/-- **Noninterference of the self test.** As long as self tests run between two pages of the host,
the host's packets are read as without them, up to the page numbers. -/
theorem selfPrint_unnoticed (hfair : env.Fair) (hfin : env.zlib.Finite)
    (h : ReflTransGen (AllowedStep env) (init v) S) : S.Unnoticed env v := by
  obtain ⟨d, es, f, k, htracks⟩ := tracks_of_run hfair hfin h
  constructor
  · obtain ⟨ps, A, n, hps, hn⟩ := Printer.feedAll_of_reads (s := Printer.init v) hfair hfin
      htracks.reads (.inl ⟨rfl, rfl⟩) rfl rfl
    exact ⟨ps, A, n, hps, hn⟩
  · intro ps fuel A hps hrun
    obtain ⟨es', hreads, hlog⟩ := Printer.feedAll_reads hfair hfin (.inl ⟨rfl, rfl⟩) hrun
    rw [hps] at hreads
    obtain ⟨hd, -, rfl⟩ := hreads.unique htracks.reads
    have hrows : Event.rows A.log = Event.rows es' := by rw [hlog]; rfl
    refine ⟨⟨f, htracks.mono, by rw [hrows, htracks.hostRows]⟩, ?_, ?_⟩
    · have hflag := congrArg Decoder.PageEndFlag htracks.decoder
      rw [← hd] at hflag
      exact hflag
    · intro r hr q hq
      rw [htracks.hostRows] at hr
      obtain ⟨r₀, -, rfl⟩ := List.mem_map.1 hr
      exact (htracks.selfRows q hq).2 _

/-- A self test with a font of blank characters. -/
def blankTest : SelfTest where
  draw := fun _ _ => List.replicate PrintlineBytes 0
  gap_device_name := "D12"
  PID := "0512"
  VID := "0483"
  BLE_MAC := "00:00:00:00:00:01"
  EDR_MAC := "00:00:00:00:00:02"
  WiFiMAC := "00:00:00:00:00:03"
  SSIDSave := ""
  PASSWORDSave := ""
  IPAddress := "0.0.0.0"
  gap := none

/-- A page end, and a self test after it. -/
theorem selfPrint_unnoticed_once :
    ∃ S₁ S, (init 2).next .stored (.packet 9 [0x40, 0x3E, 0]) = .ok S₁ ∧
      S₁.next .stored (.selfPrint blankTest) = .ok S ∧ S.Unnoticed .stored 2 := by
  have hpacket : ((init 2).next .stored (.packet 9 [0x40, 0x3E, 0])).toOption.map (fun S =>
      (S.printer.command.DecodeStatus, S.printer.command.PageEndFlag, S.hostRows)) =
      some (.CommandIdle, true, []) := by decide +kernel
  obtain ⟨S₁, h₁, hS₁⟩ := exists_ok_of_map hpacket
  simp only [Prod.mk.injEq] at hS₁
  obtain ⟨hstatus, hflag, hrows⟩ := hS₁
  have hbetween : S₁.BetweenPages := ⟨hstatus, hflag, by simp [hrows]⟩
  have hrun : ReflTransGen (AllowedStep .stored) (init 2) _ :=
    (ReflTransGen.refl.tail ⟨.packet 9 _, trivial, h₁⟩).tail ⟨.selfPrint blankTest, hbetween, rfl⟩
  exact ⟨S₁, _, h₁, rfl, selfPrint_unnoticed Env.stored_fair Zlib.stored_finite hrun⟩

/-- One action, allowed or not. -/
def Step (env : Env) (S S' : Session) : Prop := ∃ a, S.next env a = .ok S'

/-- What the self test leaves of the parser. -/
def tested (s : Printer) : Printer :=
  { s with command :=
    { s.command with
      DecodeStatus := .CommandIdle, PageEndFlag := true, PageNum := s.command.PageNum + 3 } }

/-- **A self test in the middle of a row loses the row**: the rest of the row is scanned for command
heads. -/
theorem selfPrint_loses_row :
    ∃ S, ReflTransGen (Step .stored) (init 2) S ∧ ¬ S.Unnoticed .stored 2 := by
  -- the row begins in the first packet and ends in the second
  let p : List UInt8 := [0x40, 0x3C, 0x23, 0x3C, 0x81, 0xFF, 0x81]
  let q : List UInt8 := [0xFF, 0x81, 0x3F, 0x40]
  have hfirst : ((init 2).next .stored (.packet 20 p)).toOption.map (fun S =>
      (S.packets, S.hostRows, S.printer.decoder.zipData, S.printer.decoder.Write)) =
      some ([p], [], none, 0) := by decide +kernel
  have hsecond : ((init 2).next .stored (.packet 20 p)).toOption.map (fun S =>
      (Printer.feed .stored 20 q (tested S.printer)).toOption.map fun r =>
        (r.1, queued (tested S.printer) r.2)) = some (some (true, [])) := by decide +kernel
  have hwithout : (Printer.feedAll .stored 20 [(0, p), (0, q)] (Printer.init 2)).toOption.map
      (Option.map fun A => (Event.rows A.log).length) = some (some 1) := by decide +kernel
  obtain ⟨S₁, h₁, hS₁⟩ := exists_ok_of_map hfirst
  simp only [Prod.mk.injEq] at hS₁
  obtain ⟨hpackets, hrows, hzip, hwrite⟩ := hS₁
  have htested : (Printer.feed .stored 20 q (tested S₁.printer)).toOption.map
      (fun r => (r.1, queued (tested S₁.printer) r.2)) = some (true, []) := by
    rw [h₁] at hsecond
    exact Option.some.inj hsecond
  obtain ⟨⟨accepted, s⟩, hs, hsr⟩ := exists_ok_of_map htested
  simp only [Prod.mk.injEq] at hsr
  obtain ⟨rfl, hqueued⟩ := hsr
  -- the second packet does to the printer after the self test what it does without its rows
  obtain ⟨T, hT, hdecoder, hremainder⟩ : ∃ T, T = S₁.printer.SelfPrint blankTest ∧
      T.decoder = (tested S₁.printer).decoder ∧ T.remainder = (tested S₁.printer).remainder :=
    ⟨_, rfl, Printer.SelfPrint_decoder .., Printer.SelfPrint_remainder ..⟩
  let S₂ : Session := { S₁ with printer := T, selfRows := S₁.selfRows ++ queued S₁.printer T }
  let S₃ : Session := { S₂ with printer := T.takeRows T.PrintBLink.length }
  have h₂ : S₁.next .stored (.selfPrint blankTest) = .ok S₂ := by
    simp only [S₂, hT]
    rfl
  have hroom : S₃.printer.PrintBLink.length < PrintLinkedListCount := by
    simp [S₃, Printer.takeRows, PrintLinkedListCount]
  have htidy : (tested S₁.printer).decoder.Tidy := .inl ⟨hzip, hwrite⟩
  obtain ⟨s', es, n, hn, hlog, hlog'⟩ := Printer.feed_congr (t := S₃.printer) Env.stored_fair
    Zlib.stored_finite htidy hdecoder hremainder hroom hs
  have hnone : queued S₃.printer s' = [] := by
    rw [← hqueued, queued, queued, hlog, hlog', List.drop_left, List.drop_left]
  have h₄ : S₃.next .stored (.packet n q) = .ok
      { S₃ with
        printer := s', packets := S₃.packets ++ [q]
        hostRows := S₃.hostRows ++ queued S₃.printer s' } :=
    Printer.bind_eq_ok.2 ⟨(true, s'), hn n (Nat.le_refl n), rfl⟩
  have h₃ : S₂.next .stored (.takeRows T.PrintBLink.length) = .ok S₃ := rfl
  refine ⟨_, (((ReflTransGen.refl.tail ⟨_, h₁⟩).tail ⟨_, h₂⟩).tail ⟨_, h₃⟩).tail ⟨_, h₄⟩, ?_⟩
  intro hunnoticed
  obtain ⟨r, hr, hlength⟩ := exists_ok_of_map hwithout
  obtain ⟨A, rfl, hA⟩ := Option.map_eq_some_iff.1 hlength
  obtain ⟨f, -, hsame⟩ := (hunnoticed.2 _ _ A (by simp [S₃, S₂, hpackets, p, q]) hr).rows
  have hlen := congrArg List.length hsame
  simp [S₃, S₂, hnone, hrows, hA] at hlen

end Session

end ThermalPrinter
