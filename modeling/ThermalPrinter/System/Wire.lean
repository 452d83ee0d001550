import ThermalPrinter.Paper.Serial
import ThermalPrinter.Parser.Framing
import ThermalPrinter.System.Rows

/-!
# What the head shows

Every queued row has the 72 bytes that the head takes, whether the parser or the self test queued
it, so no line that is latched is read outside its buffer, and on the pins of the head the lines
come out one after another (`head_shows`).
-/

namespace ThermalPrinter

open Relation ShiftRegister

/-- The rows among the events have 72 bytes. -/
def Event.Whole (es : List Event) : Prop := ∀ row ∈ Event.rows es, row.data.length = PrintlineBytes

theorem Event.whole_nil : Event.Whole [] := fun _ hm => absurd hm List.not_mem_nil

/-! ## The rows of the parser -/

namespace Decoder

variable {d d' : Decoder} {u u' : List UInt8} {es : List Event}

/-- The dot matrix holds a row. -/
def Sized (d : Decoder) : Prop := PrintlineBytes ≤ d.DotsMatric.length

theorem Sized.finish (h : d.Sized) : d.finish.1.Sized ∧ Event.Whole d.finish.2 := by
  unfold Decoder.finish
  split
  · refine ⟨h, fun row hm => ?_⟩
    obtain rfl := List.mem_singleton.1 hm
    exact (List.length_take ..).trans (Nat.min_eq_left h)
  · exact ⟨h, Event.whole_nil⟩

theorem Sized.token (h : d.Sized) (b : UInt8) :
    (d.token b).1.Sized ∧ Event.Whole (d.token b).2 := by
  unfold Decoder.token
  cases d.LineDeCodeWrite with
  | UserDefineCommandHead =>
    simp only [headByte]
    split
    · exact ⟨h, Event.whole_nil⟩
    · refine Sized.finish (d := { d with
        DotsMatric :=
          if b &&& 0x7f ≠ 0 ∧ d.Dots < 576 then Printer.setDot d.DotsMatric d.Dots
          else d.DotsMatric
        Dots := d.Dots + 1 }) ?_
      unfold Sized
      dsimp only
      split
      · rwa [Printer.setDot, List.length_modify]
      · exact h
  | UserDefineCommandData =>
    refine Sized.finish (d := { d with
      DotsMatric :=
        if d.DotValue then Printer.fillDots d.DotsMatric d.Dots (b.toNat + 1) else d.DotsMatric
      Dots := d.Dots + (b.toNat + 1) }) ?_
    unfold Sized
    dsimp only
    split
    · rwa [Printer.length_fillDots]
    · exact h

/-- **A reaction queues whole rows.** -/
theorem Sized.react (hd : d.Sized) (h : d.react u = some (d', u', es)) :
    d'.Sized ∧ Event.Whole es := by
  unfold Decoder.react at h
  split at h
  case h_5 =>
    obtain ⟨-, rfl, -, rfl⟩ := arg_eq_some.1 h
    exact hd.token _
  case h_9 =>
    unfold fetch at h
    split at h
    · obtain ⟨-, rfl, -, rfl⟩ := arg_eq_some.1 h
      exact ⟨hd, Event.whole_nil⟩
    · split at h
      · obtain ⟨-, rfl, -, rfl⟩ := arg_eq_some.1 h
        exact ⟨hd, Event.whole_nil⟩
      · cases h
  case h_13 =>
    unfold scan at h
    split at h
    · cases h
      refine ⟨?_, Event.whole_nil⟩
      unfold enter
      split
      · simp [Sized]
      · exact hd
    · split at h
      · cases h
        exact ⟨hd, Event.whole_nil⟩
      · cases h
  all_goals
    obtain ⟨-, rfl, -, rfl⟩ := arg_eq_some.1 h
    exact ⟨hd, Event.whole_nil⟩

/-- A run of the parser queues whole rows. -/
theorem Sized.steps (h : parser.Steps d u es d' u') (hd : d.Sized) : d'.Sized ∧ Event.Whole es := by
  induction h with
  | refl => exact ⟨hd, Event.whole_nil⟩
  | head hreact _ ih =>
    obtain ⟨hd', hfirst⟩ := hd.react hreact
    obtain ⟨hd'', hrest⟩ := ih hd'
    refine ⟨hd'', fun row hm => ?_⟩
    rw [Printer.rows_append] at hm
    rcases List.mem_append.1 hm with hm | hm
    · exact hfirst row hm
    · exact hrest row hm

end Decoder

/-! ## The rows of the system -/

/-- The dot matrix holds a row, and all rows queued so far are whole. -/
structure Printer.Whole (s : Printer) : Prop where
  inBuffer : s.InBuffer
  matrix : s.decoder.Sized
  rows : Event.Whole s.log

/-- Commands that queue whole rows. -/
theorem Printer.Whole.adds {s s' : Printer} (h : s.Whole) (hb : s'.InBuffer)
    (hmatrix : s'.decoder.Sized) {es : List Event} (hlog : s'.log = s.log ++ es)
    (hes : Event.Whole es) : s'.Whole := by
  refine ⟨hb, hmatrix, fun row hm => ?_⟩
  rw [hlog, Printer.rows_append] at hm
  rcases List.mem_append.1 hm with hm | hm
  · exact h.rows row hm
  · exact hes row hm

namespace Firmware

variable {z : Zlib} {σ τ : Firmware z} {v : UInt8} {time : Nat} {selfTests : Prop}

theorem init_whole : (init z v time).printer.Whole :=
  ⟨Nat.le_refl 0, show 72 ≤ (List.replicate 144 0).length by simp, Event.whole_nil⟩

/-- Every action queues whole rows. -/
theorem whole_step (h : σ.printer.Whole) (hstep : Step selfTests σ τ) : τ.printer.Whole := by
  cases hstep with
  | goes w hw =>
    change w.printer.Whole
    rw [hw.printer.1]
    exact h
  | refuse | returned | onJob | others => exact ⟨h.inBuffer, h.matrix, h.rows⟩
  | accept => exact ⟨Nat.zero_le _, h.matrix, h.rows⟩
  | call call calls new printer _ hcall =>
    rcases Printer.call_cases h.inBuffer hcall with ⟨es, hran⟩ | ⟨hb, hstill⟩
    · obtain ⟨hmatrix, hes⟩ := h.matrix.steps hran.steps
      exact h.adds hran.inBuffer hmatrix hran.log hes
    · have hmatrix : PrintlineBytes ≤ printer.command.DotsMatric.length :=
        hstill.DotsMatric ▸ h.matrix
      exact ⟨hb, hmatrix, hstill.log ▸ h.rows⟩
  | selfPrint printer _ hdraws =>
    cases hdraws with
    | pageStart | pageEnd => exact h.adds h.inBuffer h.matrix rfl Event.whole_nil
    | row Buffer hlen =>
      refine h.adds h.inBuffer h.matrix rfl fun row hm => ?_
      obtain rfl := List.mem_singleton.1 hm
      exact hlen

/-- Every line that has been latched is a whole row or the blank line. -/
theorem latchable_of_run (hrun : ReflTransGen (Step selfTests) (init z v time) σ) :
    ∀ line ∈ σ.latched, Latchable line := by
  have hwhole : σ.printer.Whole := Runs.invariant (I := fun σ => σ.printer.Whole)
    (fun _ _ hI hstep => whole_step hI hstep) hrun init_whole
  have hprinted : σ.Printed := Runs.invariant (fun _ _ hI hstep => hI.step hstep) hrun init_printed
  obtain ⟨gone, hgone, hsub⟩ := hprinted.lines
  intro line hline
  rcases eq_or_ne line blank with hblank | hink
  · exact .inr hblank
  · have hm : line ∈ gone.map (·.data) :=
      hsub.subset (List.mem_filter.2 ⟨hline, decide_eq_true hink⟩)
    obtain ⟨row, hrow, rfl⟩ := List.mem_map.1 hm
    exact .inl (hwhole.rows row (hgone ▸ List.mem_append_left _ hrow))

/-- **The head shows the latched lines.** In every run of the system, however long: the lines that
have been latched are sent without a read outside their buffers; and on every head of 576 dots, from
whatever it holds and shows and whatever the other bits of the ports do meanwhile, what it shows
from the first raised latch on is what it showed then, and then the lines in order, each of them
whole, and at no moment anything else. -/
theorem head_shows (hrun : ReflTransGen (Step selfTests) (init z v time) σ) {line : List UInt8}
    {lines : List (List UInt8)} (hlines : σ.latched = line :: lines) :
    ∃ ws, linesWrites σ.latched = some ([.HeadLatchHigh] ++ ws) ∧
      ∀ (ports ports' : Ports) (trace : List Ports) (r : Register),
        r.bits.length = LineDecodeDots → ports.Sends ([.HeadLatchHigh] ++ ws) trace ports' →
        ∃ trace₀ trace₁ mid, trace = trace₀ ++ trace₁ ∧
          ports.Sends [.HeadLatchHigh] trace₀ mid ∧
          let r₀ := r.run ports.pins (trace₀.map Ports.pins)
          Stretches (r₀.outputs :: σ.latched.map lineDots)
            (r₀.outputs :: r₀.shown mid.pins (trace₁.map Ports.pins)) := by
  have hlatchable := latchable_of_run hrun
  rw [hlines] at hlatchable ⊢
  obtain ⟨hfirst, hrest⟩ := List.forall_mem_cons.1 hlatchable
  exact lines_shown hfirst hrest

/-- A row of the self test is shown. -/
theorem head_shows_row :
    ∃ (σ : Firmware Zlib.stored) (ws : List PinWrite),
      σ.latched = [List.replicate PrintlineBytes 1] ∧
      linesWrites σ.latched = some ([.HeadLatchHigh] ++ ws) ∧
      ∀ (ports ports' : Ports) (trace : List Ports) (r : Register),
        r.bits.length = LineDecodeDots → ports.Sends ([.HeadLatchHigh] ++ ws) trace ports' →
        ∃ trace₀ trace₁ mid, trace = trace₀ ++ trace₁ ∧
          ports.Sends [.HeadLatchHigh] trace₀ mid ∧
          let r₀ := r.run ports.pins (trace₀.map Ports.pins)
          Stretches (r₀.outputs :: σ.latched.map lineDots)
            (r₀.outputs :: r₀.shown mid.pins (trace₁.map Ports.pins)) := by
  obtain ⟨σ, hrun, hlatched⟩ := row_run
  obtain ⟨ws, hshows⟩ := head_shows hrun hlatched
  exact ⟨σ, ws, hlatched, hshows⟩

end Firmware

end ThermalPrinter
