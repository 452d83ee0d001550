import ThermalPrinter.Parser.Framing
import ThermalPrinter.System.Stream

/-!
# A document is printed

A document is a sequence of pages, each after bytes in which no command head occurs. If nothing else
arrives, then at every moment the executed commands are the first ones of the document, and the
printed lines are rows of the document, in order and each at most once (`document_printed`). The
moment may be any one: between two pages, in the middle of a packet, while the motor runs.

The invariant (`Amid`) says where the reader stands in the whole document: what it has still to
read is what the parser has not read of the packet in hand, followed by what has not been accepted.
-/

namespace ThermalPrinter

open Lookahead Relation

/-- A page of a document, after some other bytes. -/
structure Sheet where
  gap : List UInt8
  page : List (List Token)

/-- A document as it is sent. -/
def sheetBytes (sheets : List Sheet) : List UInt8 :=
  sheets.flatMap fun sheet => sheet.gap ++ pageBytes sheet.page

/-- What a document is meant to do, from page `PageNum` on. -/
def sheetEvents : Nat → List Sheet → List Event
  | _, [] => []
  | PageNum, sheet :: sheets => pageEvents PageNum sheet.page ++ sheetEvents (PageNum + 1) sheets

/-- The rows of a document, as bytes of dots. -/
def sheetRows (sheets : List Sheet) : List (List UInt8) :=
  sheets.flatMap fun sheet =>
    sheet.page.map fun row => Bitmap.pack PrintlineBytes ((rowDots row).take LineDecodeDots)

/-- The rows of a sheet have all their dots, and no command head occurs in the bytes before the page
nor in the tokens left over of a row. -/
structure Sheet.Clean (sheet : Sheet) : Prop where
  gap : Headless sheet.gap
  dots : ∀ row ∈ sheet.page, LineDecodeDots ≤ (rowDots row).length
  surplus : ∀ row ∈ sheet.page, Headless (tokenBytes (surplus 0 row))

/-! ## Reading a document -/

/-- The rows among the events of a page. -/
theorem rows_pageEvents (PageNum : Nat) (page : List (List Token)) :
    Event.rows (pageEvents PageNum page) = page.map (rowData PageNum) := by
  have hrows : Event.rows (rowEvents PageNum page) = page.map (rowData PageNum) := by
    induction page with
    | nil => rfl
    | cons row page ih => exact congrArg (_ :: ·) ih
  simp [pageEvents, Printer.rows_append, hrows, Event.rows]

/-- The rows among the events of a document. -/
theorem rows_sheetEvents (PageNum : Nat) (sheets : List Sheet) :
    (Event.rows (sheetEvents PageNum sheets)).map (·.data) = sheetRows sheets := by
  induction sheets generalizing PageNum with
  | nil => rfl
  | cons sheet sheets ih =>
    rw [sheetEvents, Printer.rows_append, List.map_append, ih, rows_pageEvents, List.map_map]
    rfl

namespace Decoder

variable {d d' : Decoder} {u u' v : List UInt8} {es : List Event}

/-- A page is read after bytes without a head, up to the bytes that follow it. -/
theorem steps_sheet {sheet : Sheet} (hd : d.DecodeStatus = .CommandIdle) (hs : sheet.Clean)
    (hlen : MAxHeadLength ≤ v.length) :
    ∃ d' : Decoder, d'.DecodeStatus = .CommandIdle ∧ d'.PageNum = d.PageNum + 1 ∧
      parser.Steps d (sheet.gap ++ (pageBytes sheet.page ++ v)) (pageEvents d.PageNum sheet.page)
        d' v := by
  have hv : v ≠ [] := by
    rintro rfl
    exact absurd hlen (by decide)
  have hlen₂ : MAxHeadLength ≤ ([0x40, 0x3E] ++ v).length := by
    rw [List.length_append]
    omega
  have hlen₁ : MAxHeadLength ≤ (sheet.page.flatMap rowBytes ++ ([0x40, 0x3E] ++ v)).length := by
    rw [List.length_append]
    omega
  obtain ⟨d₁, hidle₁, hpage₁, hstart⟩ := steps_page_start hd hs.gap hlen₁
  obtain ⟨d₂, hidle₂, hpage₂, hrows⟩ := steps_rows hidle₁ hs.dots hs.surplus hlen₂
  obtain ⟨d₃, hidle₃, hpage₃, hend⟩ := steps_page_end hidle₂ hv
  refine ⟨d₃, hidle₃, by rw [hpage₃, hpage₂, hpage₁], ?_⟩
  rw [hpage₁] at hrows
  rw [hpage₂, hpage₁] at hend
  have hbytes : sheet.gap ++ (pageBytes sheet.page ++ v) =
      sheet.gap ++ ([0x40, 0x3C] ++ (sheet.page.flatMap rowBytes ++ ([0x40, 0x3E] ++ v))) := by
    simp [pageBytes]
  have hevents : pageEvents d.PageNum sheet.page =
      [.pageStart] ++ (rowEvents d.PageNum sheet.page ++ [.pageEnd (d.PageNum + 1)]) := by
    simp [pageEvents]
  rw [hbytes, hevents]
  exact hstart.trans (hrows.trans hend)

/-- **A document is read**, page after page. -/
theorem steps_sheets {sheets : List Sheet} (hd : d.DecodeStatus = .CommandIdle)
    (hs : ∀ sheet ∈ sheets, sheet.Clean) (hlen : MAxHeadLength ≤ v.length) :
    ∃ d' : Decoder, d'.DecodeStatus = .CommandIdle ∧
      parser.Steps d (sheetBytes sheets ++ v) (sheetEvents d.PageNum sheets) d' v := by
  induction sheets generalizing d with
  | nil => exact ⟨d, hd, .refl⟩
  | cons sheet sheets ih =>
    have hlen' : MAxHeadLength ≤ (sheetBytes sheets ++ v).length := by
      rw [List.length_append]
      omega
    obtain ⟨d₁, hidle₁, hpage₁, hsheet⟩ := steps_sheet hd (hs sheet (by simp)) hlen'
    obtain ⟨d', hidle', hrest⟩ := ih hidle₁ fun s hm => hs s (List.mem_cons_of_mem _ hm)
    refine ⟨d', hidle', ?_⟩
    rw [hpage₁] at hrest
    have hbytes : sheetBytes (sheet :: sheets) ++ v =
        sheet.gap ++ (pageBytes sheet.page ++ (sheetBytes sheets ++ v)) := by
      simp [sheetBytes]
    rw [hbytes]
    exact hsheet.trans hrest

/-- Inside a compressed block the reader stays there. -/
theorem steps_zipData (hd : d.DecodeStatus = .CommandZipData)
    (h : parser.Steps d u es d' u') : d'.DecodeStatus = .CommandZipData := by
  induction h with
  | refl => exact hd
  | head hr _ ih =>
    refine ih ?_
    simp only [parser_react, react, hd, fetch] at hr
    split at hr
    · obtain ⟨-, rfl, -, -⟩ := arg_eq_some.1 hr
      rfl
    · split at hr
      · obtain ⟨-, rfl, -, -⟩ := arg_eq_some.1 hr
        rfl
      · cases hr

end Decoder

/-! ## The document on its way -/

namespace Firmware

variable {z : Zlib} {σ τ : Firmware z} {v : UInt8} {time : Nat} {w : List UInt8} {d : Decoder}
  {u : List UInt8} {es : List Event}

/-- The reader runs on all of the bytes to a scan that waits for more, and stores no WiFi
credentials on the way. -/
structure Readable (v : UInt8) (w : List UInt8) (es : List Event) (d : Decoder) (u : List UInt8) :
    Prop where
  steps : parser.Steps (Decoder.init v) w es d u
  blocked : parser.Blocked d u
  scanning : d.Scanning
  nvs : ∀ SSID SSIDPassword, .nvs SSID SSIDPassword ∉ es

/-- The packets that were accepted, one after another. -/
def fedBytes (fed : List (CType × List UInt8)) : List UInt8 := (fed.map Prod.snd).flatten

/-- The packet is suspended where the reader waits for more bytes. -/
def Waits (s : Printer) : Prop := s.Suspended ∧ parser.Blocked s.decoder s.unread

/-- Where the reader stands in the bytes `w`, of which `rest` has not been accepted yet. -/
def Amid (v : UInt8) (w : List UInt8) (σ : Firmware z) : Prop :=
  ∃ rest, w = fedBytes σ.fed ++ rest ∧
    match σ.calls with
    | none =>
      parser.Steps (Decoder.init v) w σ.printer.log σ.printer.decoder
          (σ.printer.remainder ++ rest) ∧
        (σ.fed = [] ∨ parser.Blocked σ.printer.decoder σ.printer.remainder)
    | some calls =>
      parser.Steps (Decoder.init v) w σ.printer.log σ.printer.decoder (σ.printer.unread ++ rest) ∧
        σ.printer.InBuffer ∧
        (calls = [.PrintDataProcesser] ∧
            (σ.printer.command.ReturnFlag = false ∨ Waits σ.printer) ∨
          calls = [] ∧ Waits σ.printer)

/-- On the way through readable bytes the decoder is never inside a compressed block. -/
theorem Readable.outside (hw : Readable v w es d u) {es' : List Event} {d' : Decoder}
    {u' : List UInt8} (h : parser.Steps (Decoder.init v) w es' d' u') :
    d'.DecodeStatus ≠ .CommandZipData := by
  intro hzip
  obtain ⟨_, -, hrest⟩ := h.extend hw.steps hw.blocked
  exact hw.scanning.2 (Decoder.steps_zipData hzip hrest)

/-- The reader goes on in readable bytes as it does in the packet at hand. -/
theorem Readable.goes_on (hw : Readable v w es d u) {es₁ es₂ : List Event} {d₁ d₂ : Decoder}
    {u₁ u₂ rest : List UInt8} (h₁ : parser.Steps (Decoder.init v) w es₁ d₁ (u₁ ++ rest))
    (h₂ : parser.Steps d₁ u₁ es₂ d₂ u₂) :
    parser.Steps (Decoder.init v) w (es₁ ++ es₂) d₂ (u₂ ++ rest) := by
  have hclear := (Decoder.undisturbed_of_steps hw.steps hw.blocked hw.scanning hw.nvs).steps h₁
  exact h₁.trans (h₂.append Decoder.parser_stable rest hclear.1)

/-- A pass of the parser loop over readable bytes. -/
theorem Amid.call (hw : Readable v w es d u) (h : σ.Amid v w) {call : Call z}
    {calls new : List (Call z)} {printer : Printer} (hcalls : σ.calls = some (call :: calls))
    (hcall : Printer.call z call σ.printer = some (printer, new)) :
    Amid v w { σ.setPrinter printer with calls := some (new ++ calls) } := by
  obtain ⟨rest, hrest, hamid⟩ := h
  rw [hcalls] at hamid
  obtain ⟨hsteps, hb, ⟨hloop, hready⟩ | ⟨hnil, -⟩⟩ := hamid
  · cases hloop
    refine ⟨rest, hrest, ?_⟩
    rw [Printer.call] at hcall
    split at hcall
    next hreturn =>
      cases hcall
      exact ⟨hsteps, hb, .inr ⟨rfl, hready.resolve_left (by simp [hreturn])⟩⟩
    next hreturn =>
      rw [if_neg (hw.outside hsteps)] at hcall
      cases hcall
      obtain ⟨es', hran, hend⟩ :=
        Printer.handle_handled hb (by simpa using hreturn) (hw.outside hsteps)
      refine ⟨?_, hran.inBuffer, .inl ⟨rfl, ?_⟩⟩
      · have hlog : σ.printer.handle.log = σ.printer.log ++ es' := hran.log
        change parser.Steps _ _ σ.printer.handle.log _ _
        rw [hlog]
        exact hw.goes_on hsteps hran.steps
      · exact hend.imp And.left fun h => ⟨h.1, h.2.1⟩
  · cases hnil

/-- Rows that leave the queue change nothing of it. -/
theorem Amid.setRows (h : σ.Amid v w) (rows : List LinkedListData) (job : Job) :
    Amid v w { σ.setPrinter { σ.printer with PrintBLink := rows } with job := job } := by
  have hwaits (hs : Waits σ.printer) : Waits { σ.printer with PrintBLink := rows } :=
    ⟨⟨hs.1.ReturnFlag, hs.1.remainder⟩, hs.2⟩
  obtain ⟨rest, hrest, hamid⟩ := h
  refine ⟨rest, hrest, ?_⟩
  change match σ.calls with | none => _ | some calls => _
  cases hcalls : σ.calls with
  | none =>
    rw [hcalls] at hamid
    exact hamid
  | some calls =>
    rw [hcalls] at hamid
    obtain ⟨hsteps, hb, hplace⟩ := hamid
    exact ⟨hsteps, hb, hplace.imp (And.imp_right (Or.imp_right hwaits)) (And.imp_right hwaits)⟩

/-- **Every action keeps the reader on its way through the document**, as long as what was accepted
is part of it. -/
theorem Amid.step (hw : Readable v w es d u) (h : σ.Amid v w) (hfed : fedBytes τ.fed <+: w)
    (hstep : Step False σ τ) : τ.Amid v w := by
  cases hstep with
  | goes w' hw' =>
    obtain ⟨rest, hrest, hamid⟩ := h
    refine ⟨rest, hrest, ?_⟩
    rw [show ({ σ with world := w' } : Firmware z).printer = σ.printer from hw'.printer.1]
    exact hamid
  | refuse c count data rest' hpc hcalls =>
    obtain ⟨rest, hrest, hamid⟩ := h
    exact ⟨rest, hrest, hamid⟩
  | accept c count data rest' hpc hcalls =>
    obtain ⟨rest, hrest, hamid⟩ := h
    rw [hcalls] at hamid
    obtain ⟨rest₁, hrest₁⟩ := hfed
    have hbytes : fedBytes (σ.fed ++ [(c, data)]) = fedBytes σ.fed ++ data := by simp [fedBytes]
    refine ⟨rest₁, hrest₁.symm, ?_⟩
    change fedBytes (σ.fed ++ [(c, data)]) ++ rest₁ = w at hrest₁
    rw [hbytes, List.append_assoc, hrest, List.append_cancel_left_eq] at hrest₁
    rw [← hrest₁, ← List.append_assoc] at hamid
    exact ⟨hamid.1, Nat.zero_le _, .inl ⟨rfl, .inl rfl⟩⟩
  | call call calls new printer hcalls hcall => exact h.call hw hcalls hcall
  | returned c count data rest' hpc hcalls =>
    obtain ⟨rest, hrest, hamid⟩ := h
    rw [hcalls] at hamid
    obtain ⟨hsteps, hb, ⟨hloop, -⟩ | ⟨-, hwaits⟩⟩ := hamid
    · cases hloop
    · refine ⟨rest, hrest, ?_⟩
      change parser.Steps _ _ σ.printer.log σ.printer.decoder (σ.printer.remainder ++ rest) ∧
        (σ.fed = [] ∨ parser.Blocked σ.printer.decoder σ.printer.remainder)
      rw [hwaits.1.remainder_eq hb]
      exact ⟨hsteps, .inr hwaits.2⟩
  | onJob a ha => exact h.setRows _ _
  | selfPrint printer htests => exact htests.elim
  | others job => exact h

/-- Accepted packets stay accepted. -/
theorem fedBytes_mono {selfTests : Prop} (hstep : Step selfTests σ τ) :
    fedBytes σ.fed <+: fedBytes τ.fed := by
  cases hstep with
  | accept c count data rest =>
    simp only [fedBytes, List.map_append, List.flatten_append]
    exact List.prefix_append ..
  | _ => exact List.prefix_refl _

/-- In a run that accepts only bytes of the document, the reader is on its way through it. -/
theorem amid_of_run (hw : Readable v w es d u)
    (hrun : ReflTransGen (Step False) (init z v time) σ) (hfed : fedBytes σ.fed <+: w) :
    σ.Amid v w := by
  induction hrun with
  | refl => exact ⟨w, rfl, .refl, .inl rfl⟩
  | tail _ hstep ih => exact (ih ((fedBytes_mono hstep).trans hfed)).step hw hfed hstep

/-- What was accepted from a channel has arrived on it. -/
theorem fedBy_of_arrived (hsorted : σ.Sorted) (hkept : σ.world.Kept) (c : CType) :
    (fedBy c σ.fed).flatten <+: σ.world.arrived c := by
  rw [← hkept.whole c]
  unfold Sorted at hsorted
  split at hsorted
  · rw [hsorted c]
    exact List.prefix_append ..
  · obtain ⟨fed, c', count, data, rest, hfed, hpc, hsorted⟩ := hsorted
    obtain ⟨q, hq⟩ := hkept.head c' count data rest hpc
    rw [hfed, fedBy_append, hsorted c]
    split
    · next hc =>
      -- the packet in hand is still the head of its list
      rw [← hc, hq, List.flatten_append, List.flatten_singleton, List.flatten_cons,
        List.append_assoc]
      exact (List.prefix_append_right_inj _).2 (List.prefix_append ..)
    · rw [List.append_nil]
      exact List.prefix_append ..

/-- If nothing was accepted from the other channels, what was accepted is the channel's. -/
theorem fedBytes_eq {fed : List (CType × List UInt8)} {c : CType}
    (hothers : ∀ c' ≠ c, (fedBy c' fed).flatten = []) : fedBytes fed = (fedBy c fed).flatten := by
  induction fed using List.reverseRecOn with
  | nil => rfl
  | append_singleton fed p ih =>
    obtain ⟨c', data⟩ := p
    have hsplit (c₁ : CType) : (fedBy c₁ (fed ++ [(c', data)])).flatten =
        (fedBy c₁ fed).flatten ++ (if c' = c₁ then [data] else []).flatten := by
      rw [fedBy_append, List.flatten_append]
    have hfed : fedBytes (fed ++ [(c', data)]) = fedBytes fed ++ data := by simp [fedBytes]
    rw [hfed, hsplit, ih fun c₁ hne => ?_]
    · rcases eq_or_ne c' c with rfl | hne
      · simp
      · have hdata := hothers c' hne
        rw [hsplit, if_pos rfl, List.flatten_singleton] at hdata
        rw [(List.append_eq_nil_iff.1 hdata).2, if_neg hne, List.flatten_nil]
    · have hnil := hothers c₁ hne
      rw [hsplit] at hnil
      exact (List.append_eq_nil_iff.1 hnil).1

/-- A document is readable. -/
theorem readable_sheets {sheets : List Sheet} {trail : List UInt8}
    (hs : ∀ sheet ∈ sheets, sheet.Clean) (hlen : MAxHeadLength ≤ trail.length)
    (htrail : Headless trail) :
    ∃ d u, Readable v (sheetBytes sheets ++ trail) (sheetEvents 0 sheets) d u := by
  obtain ⟨d, hidle, hsteps⟩ := Decoder.steps_sheets (d := Decoder.init v) rfl hs hlen
  obtain ⟨u, hrest, hblk⟩ := Decoder.steps_trailing (Decoder.scanning_of_idle hidle) htrail
  have hnvs (PageNum : Nat) (SSID SSIDPassword : List UInt8) :
      Event.nvs SSID SSIDPassword ∉ sheetEvents PageNum sheets := by
    clear hs hsteps
    induction sheets generalizing PageNum with
    | nil => exact List.not_mem_nil
    | cons sheet sheets ih => simp [sheetEvents, pageEvents, rowEvents, ih]
  refine ⟨d, u, ?_, hblk, Decoder.scanning_of_idle hidle, hnvs 0⟩
  have hall := hsteps.trans hrest
  rwa [List.append_nil] at hall

/-- Where the executed commands are the first ones of a document, the printed lines are rows of
it. -/
theorem lines_of_log {selfTests : Prop} {sheets : List Sheet}
    (hrun : ReflTransGen (Step selfTests) (init z v time) σ)
    (hlog : σ.printer.log <+: sheetEvents 0 sheets) :
    (σ.latched.filter (· ≠ blank)).Sublist (sheetRows sheets) := by
  have hprinted : σ.Printed :=
    Runs.invariant (fun _ _ hI hstep => hI.step hstep) hrun init_printed
  obtain ⟨gone, hgone, hsub⟩ := hprinted.lines
  obtain ⟨es, hes⟩ := hlog
  refine hsub.trans ?_
  rw [← rows_sheetEvents 0 sheets, ← hes, Printer.rows_append, hgone, List.append_assoc,
    List.map_append]
  exact List.sublist_append_left ..

/-- **A document is printed.** The document is sent on one channel, in whatever pieces, and nothing
arrives on the others. In every run without a self test, at every moment: the executed commands are
the first ones of the document; the printed lines are rows of the document, in order and each at
most once; and once all of the document is accepted and read, its commands have been executed, all
of them and no others. -/
theorem document_printed {sheets : List Sheet} {trail : List UInt8} (c : CType)
    (hs : ∀ sheet ∈ sheets, sheet.Clean) (hlen : MAxHeadLength ≤ trail.length)
    (htrail : Headless trail) (hrun : ReflTransGen (Step False) (init z v time) σ)
    (harrived : σ.world.arrived c <+: sheetBytes sheets ++ trail)
    (hothers : ∀ c' ≠ c, σ.world.arrived c' = []) :
    σ.printer.log <+: sheetEvents 0 sheets ∧
      (σ.latched.filter (· ≠ blank)).Sublist (sheetRows sheets) ∧
      (σ.calls = none → (fedBy c σ.fed).flatten = sheetBytes sheets ++ trail →
        σ.printer.log = sheetEvents 0 sheets) := by
  obtain ⟨d, u, hw⟩ := readable_sheets (v := v) hs hlen htrail
  have hsorted := sorted_of_run hrun
  have hkept := kept_of_run hrun
  have hfed : fedBytes σ.fed = (fedBy c σ.fed).flatten := fedBytes_eq fun c' hne => by
    have hprefix := fedBy_of_arrived hsorted hkept c'
    rwa [hothers c' hne, List.prefix_nil] at hprefix
  obtain ⟨rest, hrest, hamid⟩ :=
    amid_of_run hw hrun (hfed ▸ (fedBy_of_arrived hsorted hkept c).trans harrived)
  have hlog : σ.printer.log <+: sheetEvents 0 sheets := by
    have hreached : ∃ d' u', parser.Steps (Decoder.init v) (sheetBytes sheets ++ trail)
        σ.printer.log d' u' := by
      split at hamid
      · exact ⟨_, _, hamid.1⟩
      · exact ⟨_, _, hamid.1⟩
    obtain ⟨_, _, hsteps⟩ := hreached
    obtain ⟨es, hes, -⟩ := hsteps.extend hw.steps hw.blocked
    exact ⟨es, hes.symm⟩
  refine ⟨hlog, lines_of_log hrun hlog, ?_⟩
  intro hcalls hall
  rw [hcalls] at hamid
  rw [hfed, hall, List.self_eq_append_right] at hrest
  rw [hrest, List.append_nil] at hamid
  rcases hamid.2 with hnil | hblk
  · rw [hnil] at hall
    have hlength := congrArg List.length hall
    rw [List.length_append] at hlength
    exact absurd hlen (by simp [fedBy] at hlength; unfold MAxHeadLength; omega)
  · exact (hamid.1.unique hblk hw.steps hw.blocked).2.2

/-- A page of one row is sent on the USB channel, and read. -/
theorem document_printed_page :
    let sheets : List Sheet := [⟨[], [[.run 0x81 255 (by decide), .run 0x80 255 (by decide),
      .run 0x81 63 (by decide)]]⟩]
    let trail : List UInt8 := List.replicate 8 0
    ∃ σ : Firmware Zlib.stored,
      σ.calls = none ∧ (fedBy .C_Type_USB σ.fed).flatten = sheetBytes sheets ++ trail ∧
      σ.printer.log <+: sheetEvents 0 sheets ∧
      (σ.latched.filter (· ≠ blank)).Sublist (sheetRows sheets) ∧
      (σ.calls = none → (fedBy .C_Type_USB σ.fed).flatten = sheetBytes sheets ++ trail →
        σ.printer.log = sheetEvents 0 sheets) := by
  intro sheets trail
  let data : List UInt8 := [0x40, 0x3C, 0x23, 0x3C, 0x81, 0xFF, 0x80, 0xFF, 0x81, 0x3F,
    0x23, 0x3E, 0x40, 0x3E, 0, 0, 0, 0, 0, 0, 0, 0]
  have h₁ : ReflTransGen (Step False) (init Zlib.stored 2 0) _ :=
    .single (.goes _ _ (.receive _ .C_Type_USB data rfl))
  have h₂ := h₁.tail (.goes _ _ (.malloc _ .C_Type_USB _ [] rfl))
  have h₃ := (h₂.tail (.goes _ _ (.dispatch _ rfl))).tail (.goes _ _ (.poll _ _ rfl))
  have h₄ := h₃.tail (.goes _ _ (.copyHead _ .C_Type_USB 0 _ rfl))
  have h₅ := h₄.tail (.accept _ .C_Type_USB 0 _ _ rfl rfl (by decide))
  have h₆ := passes h₅ rfl 10 (by decide +kernel)
  have h₇ := h₆.tail (.call _ .PrintDataProcesser [] _ _ rfl
    (Printer.call_returned (by decide +kernel)))
  have hend := h₇.tail (.returned _ .C_Type_USB 0 data _ rfl rfl)
  have hclean : ∀ sheet ∈ sheets, sheet.Clean := by
    intro sheet hm
    obtain rfl := List.mem_singleton.1 hm
    exact ⟨by decide, by decide +kernel, by decide +kernel⟩
  refine ⟨_, ?_, ?_, document_printed .C_Type_USB hclean (by decide) (by decide) hend ?_ ?_⟩
  · rfl
  · decide +kernel
  · decide +kernel
  · intro c' hne
    cases c' <;> first | rfl | exact absurd rfl hne

end Firmware

end ThermalPrinter
