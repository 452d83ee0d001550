import ThermalPrinter.System.Firmware

/-!
# Every row is printed at most once, in order

A row that the parser or the self test queues leaves the queue at its head. If it leaves into the
head's latch it is printed, and otherwise it is discarded; every other line that is latched is
blank. So whatever the interleaving, the printed lines are rows that left the queue, in the order in
which they were queued, each at most once (`rows_printed_once`).
-/

namespace ThermalPrinter

open Relation

/-! ## What leaves the queue, and what is latched -/

namespace Head

variable {h h' h'' : Head}

/-- Rows left from the head of the queue, and the lines latched meanwhile are some of them, in their
order, and blank lines. -/
def Outputs (h h' : Head) : Prop :=
  ∃ gone lines, h.PrintBLink = gone ++ h'.PrintBLink ∧ h'.latched = h.latched ++ lines ∧
    (lines.filter (· ≠ blank)).Sublist (gone.map (·.data))

theorem Outputs.trans (h₁ : Outputs h h') (h₂ : Outputs h' h'') : Outputs h h'' := by
  obtain ⟨gone₁, lines₁, hq₁, hl₁, hsub₁⟩ := h₁
  obtain ⟨gone₂, lines₂, hq₂, hl₂, hsub₂⟩ := h₂
  refine ⟨gone₁ ++ gone₂, lines₁ ++ lines₂, ?_, ?_, ?_⟩
  · rw [hq₁, hq₂, List.append_assoc]
  · rw [hl₂, hl₁, List.append_assoc]
  · rw [List.filter_append, List.map_append]
    exact hsub₁.append hsub₂

/-- Rows are discarded. -/
theorem Outputs.discarded (hq : h'.PrintBLink <:+ h.PrintBLink) (hl : h'.latched = h.latched) :
    Outputs h h' := by
  obtain ⟨gone, hgone⟩ := hq
  exact ⟨gone, [], hgone.symm, by rw [hl, List.append_nil], List.nil_sublist _⟩

/-- Neither the queue nor the latch changes. -/
theorem Outputs.of_eq (hq : h'.PrintBLink = h.PrintBLink) (hl : h'.latched = h.latched) :
    Outputs h h' := .discarded (hq ▸ List.suffix_rfl) hl

/-- A relabelled head puts nothing out. -/
theorem Relabelled.outputs (hr : Relabelled h h') : Outputs h h' := by
  obtain ⟨_, _, _, rfl⟩ := hr
  exact .of_eq rfl rfl

/-- A blank line is put out. -/
theorem outputs_blank : Outputs h (h.PrinterDataIn blank) := by
  unfold PrinterDataIn
  split
  · exact ⟨[], [blank], rfl, rfl, by simp⟩
  · exact .of_eq rfl rfl

/-- **A motor step** puts out the row at the head of the queue, after the rows it discards, or a
blank line. -/
theorem outputs_PageDataCalculation (hp : h.SMP.HeadPrint = true) :
    Outputs h h.PageDataCalculation := by
  obtain ⟨gone, hgone⟩ := reconcile_suffix h
  by_cases hblank : h.reconcile.2 = true ∨ h.reconcile.1.PrintBLink = []
  · obtain ⟨hlatched, hqueue⟩ := PageDataCalculation_blank hp hblank
    refine ⟨gone, [blank], ?_, hlatched, by simp⟩
    rw [hqueue, hgone]
  · rw [not_or, Bool.not_eq_true] at hblank
    obtain ⟨row, rest, hq⟩ := List.exists_cons_of_ne_nil hblank.2
    obtain ⟨hlatched, hqueue⟩ := PageDataCalculation_row hp hblank.1 hq
    refine ⟨gone ++ [row], [row.data], ?_, hlatched, ?_⟩
    · rw [hqueue, List.append_assoc, List.singleton_append, ← hq, hgone]
    · rw [List.map_append]
      exact List.filter_sublist.trans (List.sublist_append_right ..)

end Head

namespace Motor

variable {m : Motor}

/-- A tick of timer 4. -/
theorem outputs_timer4 (ContinueMode FixedStepsMode : ModeFunction) (CoverState : Bool)
    (adc : Nat) :
    Head.Outputs m.head (m.next (.timer4 ContinueMode FixedStepsMode CoverState adc)).head := by
  have hrest (n : Motor) (hn : Head.Outputs m.head n.head) :
      Head.Outputs m.head ((n.PhaseSwitching ContinueMode FixedStepsMode adc).SensorStatusISR
        CoverState adc).head := by
    obtain ⟨SMP, -, -, hr⟩ := relabelled_rest (m := n) ContinueMode FixedStepsMode CoverState adc
    have hmode : Head.Outputs n.head { n.head with SMP := SMP } := .of_eq rfl rfl
    exact hn.trans (hmode.trans hr.outputs)
  unfold next Timer4CallBackMotor
  dsimp only
  split
  · exact .of_eq rfl rfl
  · split
    · exact Head.outputs_blank.trans (.of_eq rfl rfl)
    · split
      · exact hrest _ (relabelled_FindFaperEdgeISR adc).outputs
      · split
        · next hp => exact hrest _ (Head.outputs_PageDataCalculation hp)
        · exact hrest m (.of_eq rfl rfl)

/-- A start of the motor puts nothing out. -/
theorem StepMotorStart_latched (CurrentSMP : StepMP) :
    (m.StepMotorStart CurrentSMP).head.latched = m.head.latched := by
  unfold StepMotorStart Head.StepMotorStart
  split
  · rfl
  · split <;> rfl

end Motor

namespace Job

variable {j : Job}

/-- `Print` discards rows, and latches none. -/
theorem outputs_Print : Head.Outputs j.head j.Print.head := by
  have hlatched : j.Print.head.latched = j.head.latched := by
    unfold Print
    dsimp only
    split
    all_goals (repeat' split)
    all_goals first
      | rfl
      | exact Motor.StepMotorStart_latched _
      | exact Head.RedundantDataProcessing_latched true []
  cases hplace : j.place with
  | redundant =>
    refine .discarded ?_ hlatched
    unfold Print
    rw [hplace]
    exact Head.redundant_suffix true j.head
  | _ => exact .of_eq (Print_queue (by rw [hplace]; simp)) hlatched

/-- The print task and the timers put out rows from the head of the queue, and blank lines. -/
theorem outputs_next {a : Action} (ha : Firmware.PrintSide a) :
    Head.Outputs j.head (j.next a).head := by
  cases a with
  | receive => exact ha.elim
  | Print => exact outputs_Print
  | startPWM =>
    unfold next Motor.next
    dsimp only
    split <;> exact .of_eq rfl rfl
  | timer1 => exact .of_eq rfl rfl
  | timer4 ContinueMode FixedStepsMode adc =>
    exact Motor.outputs_timer4 ContinueMode FixedStepsMode false adc

end Job

/-! ## The invariant -/

namespace Firmware

variable {z : Zlib} {σ τ : Firmware z} {v : UInt8} {time : Nat} {selfTests : Prop}

/-- The read position is inside the working buffer, and the lines latched so far are rows that left
the queue, in order, and blank lines. -/
structure Printed (σ : Firmware z) : Prop where
  inBuffer : σ.printer.InBuffer
  lines : ∃ gone, Event.rows σ.printer.log = gone ++ σ.queue ∧
    (σ.latched.filter (· ≠ blank)).Sublist (gone.map (·.data))

/-- At boot nothing is queued, and nothing is latched. -/
theorem init_printed : (init z v time).Printed := ⟨Nat.le_refl 0, [], rfl, .slnil⟩

/-- Commands executed by the parser queue their rows at the tail. -/
theorem Printed.adds (h : σ.Printed) {es : List Event} (hb : τ.printer.InBuffer)
    (hadds : Printer.Adds σ.printer τ.printer es) (hl : τ.latched = σ.latched) : τ.Printed := by
  obtain ⟨gone, hgone, hsub⟩ := h.lines
  obtain ⟨taken, htaken⟩ := hadds.queue
  refine ⟨hb, gone ++ taken, ?_, ?_⟩
  · rw [hadds.log, Printer.rows_append, hgone, List.append_assoc, ← htaken, List.append_assoc]
  · rw [hl, List.map_append]
    exact hsub.trans (List.sublist_append_left ..)

/-- What leaves the parser's globals and the latch alone. -/
theorem Printed.of_eq (h : σ.Printed) (hprinter : τ.printer = σ.printer)
    (hl : τ.latched = σ.latched) : τ.Printed := by
  have hadds : Printer.Adds σ.printer τ.printer [] := hprinter ▸ .refl
  exact h.adds (hprinter ▸ h.inBuffer) hadds hl

/-- The print side puts out rows from the head of the queue. -/
theorem Printed.onJob (h : σ.Printed) {a : Job.Action} (ha : PrintSide a) :
    (σ.onJob a).Printed := by
  obtain ⟨gone, hgone, hsub⟩ := h.lines
  obtain ⟨taken, lines, hq, hl, hlines⟩ := Job.outputs_next (j := σ.current) ha
  refine ⟨h.inBuffer, gone ++ taken, ?_, ?_⟩
  · change Event.rows σ.printer.log = gone ++ taken ++ (σ.current.next a).queue
    rw [hgone, List.append_assoc, ← hq]
    rfl
  · change (((σ.current.next a).head.latched).filter _).Sublist _
    rw [hl, List.filter_append, List.map_append]
    exact hsub.append hlines

/-- A call of the self test queues a row, or none. -/
theorem draws_adds {s s' : Printer} (h : s.Draws s') (hb : s.InBuffer) :
    s'.InBuffer ∧ ∃ es, Printer.Adds s s' es := by
  cases h with
  | pageStart =>
    exact ⟨hb, [.pageStart], rfl, trivial, rfl,
      by simp [Printer.CommandSetPageStart, Printer.record, Event.rows]⟩
  | row Buffer =>
    exact ⟨hb, [.row ⟨Buffer, s.command.PageNum⟩], rfl, ⟨rfl, trivial⟩, rfl, List.suffix_rfl⟩
  | pageEnd =>
    exact ⟨hb, [.pageEnd (s.command.PageNum + 1)], rfl, ⟨rfl, trivial⟩, rfl,
      by simp [Printer.CommandSetPageEnd, Printer.record, Event.rows]⟩

/-- Every action keeps the order. -/
theorem Printed.step (h : σ.Printed) (hstep : Step selfTests σ τ) : τ.Printed := by
  cases hstep with
  | goes w hw => exact h.of_eq hw.printer.1 rfl
  | refuse => exact h.of_eq rfl rfl
  | accept c count data rest =>
    exact h.adds (Nat.zero_le _) (.of_eq rfl rfl List.suffix_rfl) rfl
  | call call calls new printer _ hcall =>
    obtain ⟨hb, es, hadds⟩ := Printer.call_adds h.inBuffer hcall
    exact h.adds hb hadds rfl
  | returned => exact h.of_eq rfl rfl
  | onJob a ha => exact h.onJob ha
  | selfPrint printer _ hdraws =>
    obtain ⟨hb, es, hadds⟩ := draws_adds hdraws h.inBuffer
    exact h.adds hb hadds rfl
  | others job hjob => exact h.of_eq rfl hjob

/-- **Every row is printed at most once, and in order.** In every run of the receivers, the data
task, the print task, the self test and the timers, the rows queued so far are those that have left
the queue, followed by those in it; and the lines that are not blank are some of the rows that have
left it, each at most once, in the order in which they were queued. -/
theorem rows_printed_once (hrun : ReflTransGen (Step selfTests) (init z v time) σ) :
    ∃ gone, Event.rows σ.printer.log = gone ++ σ.queue ∧
      (σ.latched.filter (· ≠ blank)).Sublist (gone.map (·.data)) :=
  (Runs.invariant (fun _ _ hI hstep => hI.step hstep) hrun init_printed).lines

/-- A row of the self test is queued and latched. -/
theorem row_run : ∃ σ : Firmware Zlib.stored, ReflTransGen (Step True) (init _ 2 0) σ ∧
    σ.latched = [List.replicate PrintlineBytes 1] := by
  let step : ModeFunction := ⟨id, fun _ => rfl, fun _ => rfl⟩
  let row : List UInt8 := List.replicate PrintlineBytes 1
  let σ₁ := (init Zlib.stored 2 0).setPrinter
    ((init Zlib.stored 2 0).printer.WritePrintLinkedListB row)
  let σ₂ := { σ₁ with job :=
    { σ₁.job with motor := σ₁.job.motor.setHead { σ₁.job.head with SMP := Head.SMPCurrent } } }
  have h₁ : ReflTransGen (Step True) (init Zlib.stored 2 0) σ₁ :=
    .single (.selfPrint _ _ trivial (.row _ row rfl))
  have h₂ : ReflTransGen (Step True) (init Zlib.stored 2 0) σ₂ := h₁.tail (.others σ₁ _ rfl)
  exact ⟨_, h₂.tail (.onJob σ₂ (.timer4 step step 300) trivial), by decide +kernel⟩

/-- A row of the self test is printed. -/
theorem rows_printed_once_row :
    ∃ σ : Firmware Zlib.stored, σ.latched = [List.replicate PrintlineBytes 1] ∧
      ∃ gone, Event.rows σ.printer.log = gone ++ σ.queue ∧
        (σ.latched.filter (· ≠ blank)).Sublist (gone.map (·.data)) := by
  obtain ⟨σ, hrun, hlatched⟩ := row_run
  exact ⟨σ, hlatched, rows_printed_once hrun⟩

/-- The self test is a run of its calls. -/
theorem selfPrint_run (t : SelfTest) (htests : selfTests)
    (hdraw : ∀ text y, (t.draw text y).length = PrintlineBytes) :
    ReflTransGen (Step selfTests) σ (σ.setPrinter (σ.printer.SelfPrint t)) := by
  have hcall {s s' : Printer} (h : s.Draws s') :
      ReflTransGen (Step selfTests) (σ.setPrinter s) (σ.setPrinter s') :=
    .single (.selfPrint (σ.setPrinter s) s' htests h)
  have hrows (rows : List (List UInt8)) (hlen : ∀ row ∈ rows, row.length = PrintlineBytes)
      (s : Printer) : ReflTransGen (Step selfTests) (σ.setPrinter s)
        (σ.setPrinter (rows.foldl Printer.WritePrintLinkedListB s)) := by
    induction rows generalizing s with
    | nil => exact .refl
    | cons row rows ih =>
      obtain ⟨hrow, hlen⟩ := List.forall_mem_cons.1 hlen
      exact (hcall (.row s row hrow)).trans (ih hlen _)
  have hpage (rows : List (List UInt8)) (hlen : ∀ row ∈ rows, row.length = PrintlineBytes)
      (s : Printer) :
      ReflTransGen (Step selfTests) (σ.setPrinter s) (σ.setPrinter (s.drawnPage rows)) := by
    rw [Printer.drawnPage, ← Printer.foldl_WritePrintLinkedListB]
    exact (hcall (.pageStart s)).trans ((hrows rows hlen _).trans (hcall (.pageEnd _)))
  have hlines (lines : List String) : ∀ row ∈ t.lineRows lines, row.length = PrintlineBytes := by
    intro row hm
    obtain ⟨text, -, hm⟩ := List.mem_flatMap.1 hm
    obtain ⟨y, -, rfl⟩ := List.mem_map.1 hm
    exact hdraw text y
  have hthird : ∀ row ∈ t.rows₃, row.length = PrintlineBytes := by
    intro row hm
    rcases List.mem_append.1 hm with hm | hm
    · rcases List.mem_append.1 hm with hm | hm
      · exact hlines _ row hm
      · exact (show ∀ row ∈ SelfTest.dotsRows, row.length = PrintlineBytes by decide +kernel) row hm
    · exact hlines _ row hm
  rw [Printer.SelfPrint_eq]
  exact (hpage t.rows₁ (hlines _) σ.printer).trans
    ((hpage t.rows₂ (hlines _) _).trans (hpage t.rows₃ hthird _))

end Firmware

end ThermalPrinter
