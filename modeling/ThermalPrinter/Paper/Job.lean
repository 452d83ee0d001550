import ThermalPrinter.Paper.Discard
import ThermalPrinter.Paper.Stall
import ThermalPrinter.Paper.Wait

/-!
# The end of a job

`Print` compares the queue's length with `PrintLinkedListSP` before it starts the motor, and after a
run once more to decide between another run and the cut position. Neither comparison looks at
`PageEndFlag`, as the motor's own test in `PageDataCalculation` does. So the rows of a job that are
left over, 1 to 30 of them, are not printed when the job is over: the next job's rows come behind
them (`row_left_unprinted`). No row is stranded exactly as long as neither the last page end nor the
end of a printing run finds so few rows queued (`no_rows_stranded`).

The lengths of the runs are those of the larger machine, `MACHIN_TP870`.
-/

namespace ThermalPrinter

open Relation

/-- `Gap.paperPosition`. -/
inductive PaperPosition
  | PrintPos | CutPos
  deriving DecidableEq, Repr

/-- Where `Print` stands: at its call, in one of its motor runs (`SMPPrintPos`, `SMPPrintPos1`,
`SMPCurrent`), at the rows it discards after the printing run, behind them, in its wait, in the
delay that takes the place of the wait once the page's end was received, at the last comparison of
the queue's length, which it has counted, or in the run to the cut position. -/
inductive PrintPlace
  | call
  | backward
  | forward
  | printing
  | redundant
  | stopped
  | waiting (w : Wait)
  | delay
  | test (NodeCount : Nat)
  | cutting
  deriving DecidableEq, Repr

/-- The print task, the motor, and what is still to come of a job: the commands that the parser will
execute. `OldNodeCount` is the variable of `Print`. -/
structure Job where
  motor : Motor
  place : PrintPlace
  OldNodeCount : Nat
  paperPosition : PaperPosition
  levelPapType : Nat
  coming : List Event

/-- What an executed command does to the globals of the motor interrupt. -/
def Head.receive (event : Event) (h : Head) : Head :=
  match event with
  | .row LLData => h.queue [LLData]
  | .pageStart => { h with PageEndFlag := false }
  | .pageEnd _ => { h with PageEndFlag := true }
  | _ => h

namespace Job

/-- The label counter and the print head. -/
abbrev head (s : Job) : Head := s.motor.head

/-- The queued rows. -/
abbrev queue (s : Job) : List LinkedListData := s.head.PrintBLink

/-- The parameters of a run that moves the paper without printing. -/
def fixedSteps (Dir : Direction) (StepsFixedValue : Nat) : StepMP where
  ACCSteps := 8
  CurrentSteps := 0
  CurrentDecSteps := 0
  Suspend := false
  Dir := Dir
  Status := .Stopped
  Mode := .ModeFixSteps
  StepsFixedValue := StepsFixedValue
  StepMotorFinished := false
  HeadPrint := false
  FindPaperEdge := false
  RecordGap := false
  CalculateCompensate := false

/-- `SMPPrintPos`. -/
def SMPPrintPos : StepMP := fixedSteps .Backward 90

/-- `SMPPrintPos1`. -/
def SMPPrintPos1 : StepMP := fixedSteps .Forward 1

/-- `SMPCut`. -/
def SMPCut : StepMP := fixedSteps .Forward 62

/-- `SMPCurrent`. -/
def SMPCurrent (s : Job) : StepMP :=
  { Head.SMPCurrent with ACCSteps := if s.levelPapType = 1 then 8 else 5 }

/-- `Print` has called `StepMotorStart` and stands at the end of the run. -/
def StepMotorStart (CurrentSMP : StepMP) (place : PrintPlace) (s : Job) : Job :=
  { s with motor := s.motor.StepMotorStart CurrentSMP, place := place }

/-- `Page.ContinuePrint = ContinuePrint`. -/
def setContinuePrint (ContinuePrint : Bool) (s : Job) : Job :=
  { s with motor := s.motor.setHead { s.head with
      Page := { s.head.Page with ContinuePrint := ContinuePrint } } }

/-- `Print`, from one place to the next, with the cover closed and the printer ready. -/
def Print (s : Job) : Job :=
  match s.place with
  | .call =>
    if s.head.SMP.Status = .Running then s
    else if PrintLinkedListSP < s.queue.length then
      let s := { s with OldNodeCount := s.queue.length }
      if s.paperPosition = .CutPos then s.StepMotorStart SMPPrintPos .backward
      else s.StepMotorStart s.SMPCurrent .printing
    else s
  | .backward =>
    if s.head.SMP.Status = .Running then s else s.StepMotorStart SMPPrintPos1 .forward
  | .forward =>
    if s.head.SMP.Status = .Running then s
    else { s with paperPosition := .PrintPos }.StepMotorStart s.SMPCurrent .printing
  | .printing =>
    if s.head.SMP.Status = .Running then s
    else if s.head.Page.SensorError then { s with place := .call }
    else if s.head.Page.EliminateRedundanctData then { s with place := .redundant }
    else { s with place := .stopped }
  | .redundant =>
    -- one pass of `RedundantDataProcessing(true)`, which delays and goes on when it ran out of rows
    { s with
      motor := s.motor.setHead (s.head.RedundantDataProcessing true [])
      place :=
        if (Head.redundantRows s.head.Page.PageNum true s.queue 0).2 ∧ s.queue ≠ [] then .redundant
        else .stopped }
  | .stopped =>
    let s := s.setContinuePrint false
    if s.head.PageEndFlag = false then { s with place := .waiting (Wait.enter s.OldNodeCount) }
    else { s with place := .delay }
  | .waiting w =>
    let w := w.step ⟨s.head.PageEndFlag, s.queue.length⟩
    { s with place := if w.place = .left then .test w.NodeCount else .waiting w }
  | .delay => { s with place := .test s.queue.length }
  | .test NodeCount =>
    if PrintLinkedListSP < NodeCount then { s.setContinuePrint true with place := .call }
    else s.StepMotorStart SMPCut .cutting
  | .cutting =>
    if s.head.SMP.Status = .Running then s
    else { s with paperPosition := .CutPos, place := .call }

/-- The next command is executed. -/
def receive (s : Job) : Job :=
  match s.coming with
  | [] => s
  | event :: rest => { s with motor := s.motor.setHead (s.head.receive event), coming := rest }

/-- What happens: a command is executed, `Print` goes on, the call of `StartPWM` in a start of the
motor, and the ticks of the timers. The cover is closed. -/
inductive Action
  | receive
  | Print
  | startPWM
  | timer1
  | timer4 (ContinueMode FixedStepsMode : ModeFunction) (adc : Nat)

/-- The state after an action. -/
def next (s : Job) : Action → Job
  | .receive => s.receive
  | .Print => s.Print
  | .startPWM => { s with motor := s.motor.next .startPWM }
  | .timer1 => { s with motor := s.motor.next .timer1 }
  | .timer4 ContinueMode FixedStepsMode adc =>
    { s with motor := s.motor.next (.timer4 ContinueMode FixedStepsMode false adc) }

/-- Timer 4 ticks while the motor runs, and the sensors record no error. -/
def Can (s : Job) : Action → Prop
  | .timer4 ContinueMode FixedStepsMode adc =>
    s.head.SMP.Status = .Running ∧
      (s.next (.timer4 ContinueMode FixedStepsMode adc)).head.Page.SensorError = false
  | _ => True

/-- One of the actions that `may` allows. -/
def Step (may : Job → Action → Prop) (s t : Job) : Prop := ∃ a, s.Can a ∧ may s a ∧ t = s.next a

/-- The state at boot, with the paper's edge found, and the commands to come. -/
def init (coming : List Event) : Job where
  motor := Motor.init 2
  place := .call
  OldNodeCount := 0
  paperPosition := .CutPos
  levelPapType := 0
  coming := coming

/-- A job begins: its commands, the last of which is a page end, are still to come, `Print` is not
called yet, and the motor stands. -/
structure Begins (s : Job) : Prop where
  coming : ∃ es PageNum, s.coming = es ++ [.pageEnd PageNum]
  place : s.place = .call
  stopped : s.head.SMP.Status = .Stopped

/-- The print task is at rest: the motor stands, and `Print` returns without starting it. -/
def AtRest (s : Job) : Prop :=
  s.place = .call ∧ s.head.SMP.Status = .Stopped ∧ s.Print.place = .call

/-- Rows of a finished job are left: they are queued while the print task is at rest, or moves the
paper to the cut position. -/
def Stranded (s : Job) : Prop :=
  s.coming = [] ∧ s.queue ≠ [] ∧ (s.AtRest ∨ s.place = .cutting)

end Job

/-- A printing run is started, under way, or just over. -/
def PrintPlace.UnderWay : PrintPlace → Prop
  | .backward | .forward | .printing | .redundant | .stopped => True
  | _ => False

/-- If `Print` has counted the rows to compare them, there were enough. -/
def PrintPlace.Counted : PrintPlace → Prop
  | .waiting w => w.place ≠ .again → PrintLinkedListSP < w.NodeCount
  | .test NodeCount => PrintLinkedListSP < NodeCount
  | .cutting => False
  | _ => True

namespace Job

/-- No row is queued, or enough for another run, and a count that `Print` has already made says so
too. -/
def Served (s : Job) : Prop :=
  s.queue = [] ∨ PrintLinkedListSP < s.queue.length ∧ s.place.Counted

/-- The condition on an action: the last page end comes in a printing run, or where the rows are
served, and so they are where a printing run of a finished job is over. -/
def Meets (s : Job) : Action → Prop
  | .receive => s.coming.length = 1 → ¬ s.place.UnderWay → s.Served
  | .Print => s.coming = [] → s.place = .stopped → s.Served
  | _ => True

end Job

/-! ## What leaves the queue alone -/

namespace Motor

variable {m : Motor}

@[simp] theorem StepMotorStart_PrintBLink (CurrentSMP : StepMP) :
    (m.StepMotorStart CurrentSMP).head.PrintBLink = m.head.PrintBLink := by
  unfold StepMotorStart Head.StepMotorStart
  split
  · rfl
  · split <;> rfl

@[simp] theorem StepMotorStart_PageEndFlag (CurrentSMP : StepMP) :
    (m.StepMotorStart CurrentSMP).head.PageEndFlag = m.head.PageEndFlag := by
  unfold StepMotorStart Head.StepMotorStart
  split
  · rfl
  · split <;> rfl

/-- A start records that there is no error yet. -/
theorem StepMotorStart_SensorError (CurrentSMP : StepMP) (hstop : m.head.SMP.Status ≠ .Running) :
    (m.StepMotorStart CurrentSMP).head.Page.SensorError = false := by
  unfold StepMotorStart Head.StepMotorStart
  rw [if_neg hstop, if_neg hstop]
  rfl

/-- A tick of timer 4 brings no row and ends no page. -/
theorem timer4_queue (ContinueMode FixedStepsMode : ModeFunction) (CoverState : Bool) (adc : Nat) :
    ((m.next (.timer4 ContinueMode FixedStepsMode CoverState adc)).head.PageEndFlag =
        m.head.PageEndFlag) ∧
      (m.head.PrintBLink = [] →
        (m.next (.timer4 ContinueMode FixedStepsMode CoverState adc)).head.PrintBLink = []) := by
  have hrest (n : Motor) (hend : n.head.PageEndFlag = m.head.PageEndFlag)
      (hq : m.head.PrintBLink = [] → n.head.PrintBLink = []) :
      ((n.PhaseSwitching ContinueMode FixedStepsMode adc).SensorStatusISR CoverState
          adc).head.PageEndFlag = m.head.PageEndFlag ∧
        (m.head.PrintBLink = [] →
          ((n.PhaseSwitching ContinueMode FixedStepsMode adc).SensorStatusISR CoverState
            adc).head.PrintBLink = []) := by
    obtain ⟨SMP, -, -, hr⟩ := relabelled_rest (m := n) ContinueMode FixedStepsMode CoverState adc
    obtain ⟨_, _, _, heq⟩ := hr
    rw [heq]
    exact ⟨hend, hq⟩
  unfold next Timer4CallBackMotor
  dsimp only
  split
  · exact ⟨rfl, id⟩
  · split
    · refine ⟨(Head.stepped_PrinterDataIn _).PageEndFlag, fun hq => ?_⟩
      exact (Head.PrinterDataIn_PrintBLink _).trans hq
    · split
      · obtain ⟨_, _, _, heq⟩ := relabelled_FindFaperEdgeISR (m := m) adc
        refine hrest _ ?_ ?_
        · rw [heq]
        · rw [heq]
          exact id
      · split
        · refine hrest _ Head.stepped_PageDataCalculation.PageEndFlag fun hq => ?_
          change m.head.PageDataCalculation.PrintBLink = []
          rw [Head.PageDataCalculation_PrintBLink, Head.reconcile_nil hq]
          simp [hq]
        · exact hrest m rfl id

end Motor

/-- The motor stands, and `Print` decides what to do next. -/
def PrintPlace.Decides : PrintPlace → Prop
  | .stopped | .waiting _ | .delay | .test _ => True
  | _ => False

/-- A motor run is under way, or may be. -/
def PrintPlace.Moves : PrintPlace → Prop
  | .backward | .forward | .printing | .cutting => True
  | _ => False

namespace Job

variable {s t u : Job} {a : Action} {CurrentSMP : StepMP} {place : PrintPlace}

@[simp] theorem StepMotorStart_queue : (s.StepMotorStart CurrentSMP place).queue = s.queue :=
  Motor.StepMotorStart_PrintBLink CurrentSMP

@[simp] theorem StepMotorStart_PageEndFlag :
    (s.StepMotorStart CurrentSMP place).head.PageEndFlag = s.head.PageEndFlag :=
  Motor.StepMotorStart_PageEndFlag CurrentSMP

/-- `Print` receives no command. -/
@[simp] theorem Print_coming : s.Print.coming = s.coming := by
  unfold Print
  dsimp only
  split
  all_goals (repeat' split)
  all_goals rfl

@[simp] theorem Print_PageEndFlag : s.Print.head.PageEndFlag = s.head.PageEndFlag := by
  unfold Print
  dsimp only
  split
  all_goals (repeat' split)
  all_goals first
    | rfl
    | exact StepMotorStart_PageEndFlag
    | exact (Head.stepped_RedundantDataProcessing true []).PageEndFlag

/-- `Print` takes rows from the queue only where it discards them. -/
theorem Print_queue (hne : s.place ≠ .redundant) : s.Print.queue = s.queue := by
  unfold Print
  dsimp only
  split
  all_goals (repeat' split)
  all_goals first | rfl | exact StepMotorStart_queue | contradiction

/-! ## The run -/

/-- The motor stands between the runs, and a printing run has recorded no error. -/
structure Poised (s : Job) : Prop where
  stopped : ¬ s.place.Moves → s.head.SMP.Status = .Stopped
  sensor : s.place = .printing → s.head.Page.SensorError = false

/-- What every step keeps: the commands still to come end a page, unless the page has ended. -/
structure Kept (s : Job) : Prop extends Poised s where
  coming : s.coming = [] ∧ s.head.PageEndFlag = true ∨
    ∃ es PageNum, s.coming = es ++ [.pageEnd PageNum]

theorem Begins.kept (hb : s.Begins) : s.Kept where
  stopped _ := hb.stopped
  sensor hprinting := by
    rw [hb.place] at hprinting
    cases hprinting
  coming := .inr hb.coming

theorem Kept.PageEndFlag (hk : s.Kept) (hover : s.coming = []) : s.head.PageEndFlag = true := by
  obtain ⟨-, hend⟩ | ⟨es, PageNum, hcoming⟩ := hk.coming
  · exact hend
  · rw [hover] at hcoming
    simp at hcoming

theorem stopped_of_ne (h : s.head.SMP.Status ≠ .Running) : s.head.SMP.Status = .Stopped := by
  cases hst : s.head.SMP.Status with
  | Running => exact absurd hst h
  | Stopped => rfl

theorem poised_start (hstop : s.head.SMP.Status ≠ .Running) (hmoves : place.Moves) :
    (s.StepMotorStart CurrentSMP place).Poised :=
  ⟨fun h => absurd hmoves h, fun _ => Motor.StepMotorStart_SensorError CurrentSMP hstop⟩

theorem poised_stand (hstop : s.head.SMP.Status = .Stopped) (hplace : s.place ≠ .printing) :
    s.Poised :=
  ⟨fun _ => hstop, fun h => absurd h hplace⟩

/-- The next command leaves the motor alone, and only the last one ends the job. -/
theorem Kept.receive (hk : s.Kept) : s.receive.Kept := by
  unfold Job.receive
  split
  · exact hk
  · next event rest hcoming =>
    have hsame : (s.head.receive event).SMP = s.head.SMP ∧
        (s.head.receive event).Page = s.head.Page := by
      unfold Head.receive
      split <;> exact ⟨rfl, rfl⟩
    refine ⟨⟨fun hstand => ?_, fun hprinting => ?_⟩, ?_⟩
    · exact (congrArg StepMP.Status hsame.1).trans (hk.stopped hstand)
    · exact (congrArg PrintPage.SensorError hsame.2).trans (hk.sensor hprinting)
    · obtain ⟨hnil, -⟩ | ⟨es, PageNum, hes⟩ := hk.coming
      · rw [hnil] at hcoming
        cases hcoming
      · rw [hcoming] at hes
        cases es with
        | nil =>
          obtain ⟨rfl, rfl⟩ := List.cons.inj hes
          exact .inl ⟨rfl, rfl⟩
        | cons e es => exact .inr ⟨es, PageNum, (List.cons.inj hes).2⟩

/-- Where the print task discards rows, the motor is left alone. -/
theorem RedundantDataProcessing_SMP {h : Head} (delays : List (List LinkedListData)) :
    (h.RedundantDataProcessing true delays).SMP = h.SMP := by
  unfold Head.RedundantDataProcessing
  dsimp only
  rw [if_neg (by simp)]

/-- `Print` goes on to a run that it has just started, or to a place where the motor stands. -/
theorem Poised.Print (hp : s.Poised) : s.Print.Poised := by
  have hne (hstand : ¬ s.place.Moves) : s.head.SMP.Status ≠ .Running := by
    rw [hp.stopped hstand]
    nofun
  unfold Job.Print
  dsimp only
  split
  · split
    · exact hp
    · next hrun =>
      split
      · split <;> exact poised_start hrun trivial
      · exact hp
  · split
    · exact hp
    · next hrun => exact poised_start hrun trivial
  · split
    · exact hp
    · next hrun => exact poised_start hrun trivial
  · split
    · exact hp
    · next hrun =>
      have hstop := stopped_of_ne hrun
      split
      · exact poised_stand hstop nofun
      · split <;> exact poised_stand hstop nofun
  · next hplace =>
    have hstop : (s.head.RedundantDataProcessing true []).SMP.Status = .Stopped := by
      rw [RedundantDataProcessing_SMP]
      exact hp.stopped (by rw [hplace]; exact id)
    split <;> exact poised_stand hstop nofun
  · next hplace =>
    have hstop : s.head.SMP.Status = .Stopped := hp.stopped (by rw [hplace]; exact id)
    split <;> exact poised_stand hstop nofun
  · next hplace =>
    have hstop : s.head.SMP.Status = .Stopped := hp.stopped (by rw [hplace]; exact id)
    split <;> exact poised_stand hstop nofun
  · next hplace =>
    exact poised_stand (hp.stopped (by rw [hplace]; exact id)) nofun
  · next hplace =>
    have hstand : ¬ s.place.Moves := by
      rw [hplace]
      exact id
    split
    · exact poised_stand (hp.stopped hstand) nofun
    · exact poised_start (hne hstand) trivial
  · split
    · exact hp
    · next hrun => exact poised_stand (stopped_of_ne hrun) nofun

theorem Kept.Print (hk : s.Kept) : s.Print.Kept := by
  refine ⟨hk.toPoised.Print, ?_⟩
  rw [Print_coming, Print_PageEndFlag]
  exact hk.coming

/-- The motor runs only where `Print` waits for the end of its run. -/
theorem Poised.moves (hp : s.Poised) (hrun : s.head.SMP.Status = .Running) : s.place.Moves := by
  by_contra hstand
  have hstop := hp.stopped hstand
  rw [hrun] at hstop
  cases hstop

/-- The call of `StartPWM` leaves the head alone. -/
theorem startPWM_head : (s.next .startPWM).head = s.head := by
  unfold Job.next Motor.next
  dsimp only
  split <;> rfl

/-- Every action keeps it. -/
theorem Kept.next (hk : s.Kept) (hcan : s.Can a) : (s.next a).Kept := by
  cases a with
  | receive => exact hk.receive
  | Print => exact hk.Print
  | startPWM =>
    refine ⟨⟨fun hstand => ?_, fun hprinting => ?_⟩, ?_⟩
    · rw [startPWM_head]
      exact hk.stopped hstand
    · rw [startPWM_head]
      exact hk.sensor hprinting
    · rw [startPWM_head]
      exact hk.coming
  | timer1 => exact ⟨⟨hk.stopped, hk.sensor⟩, hk.coming⟩
  | timer4 ContinueMode FixedStepsMode adc =>
    obtain ⟨hrun, hok⟩ := hcan
    refine ⟨⟨fun hstand => absurd (hk.moves hrun) hstand, fun _ => hok⟩, ?_⟩
    · have hend := (Motor.timer4_queue (m := s.motor) ContinueMode FixedStepsMode false adc).1
      exact hk.coming.imp_left fun h => ⟨h.1, hend.trans h.2⟩

end Job

/-- The wait makes no count that is too small: with enough rows queued and the page's end seen, a
count that is to be compared after a step was so before it, or counts them all. -/
theorem Wait.counted_step {w : Wait} {n : Nat} (hn : PrintLinkedListSP < n) :
    ((w.step ⟨true, n⟩).place ≠ .again → PrintLinkedListSP < (w.step ⟨true, n⟩).NodeCount) ↔
      (w.place ≠ .again → PrintLinkedListSP < w.NodeCount) := by
  cases hplace : w.place with
  | top => simp [step, hplace]
  | again =>
    refine iff_of_true (fun _ => ?_) fun h => absurd rfl h
    simp only [step, hplace]
    repeat' split
    all_goals exact hn
  | bottom =>
    simp only [step, hplace]
    split <;> simp
  | left => simp [step, hplace]

namespace Job

variable {s t u : Job} {a : Action}

/-- Between a printing run and what follows it, the rows stay served or unserved. -/
theorem Kept.served_Print_iff (hk : s.Kept) (hover : s.coming = []) (hdecides : s.place.Decides) :
    (s.Print.Served ↔ s.Served) ∧ ¬ s.Print.place.UnderWay := by
  have hend := hk.PageEndFlag hover
  have hqueue : s.Print.queue = s.queue := by
    refine Print_queue fun h => ?_
    rw [h] at hdecides
    exact hdecides
  suffices h : (PrintLinkedListSP < s.queue.length →
      (s.Print.place.Counted ↔ s.place.Counted)) ∧ ¬ s.Print.place.UnderWay by
    refine ⟨?_, h.2⟩
    rw [Served, Served, hqueue]
    exact or_congr_right (and_congr_right h.1)
  cases hplace : s.place with
  | stopped =>
    have hnext : s.Print.place = .delay := by
      have hflag : (s.setContinuePrint false).head.PageEndFlag = true := hend
      simp only [Job.Print, hplace, hflag]
      rfl
    rw [hnext]
    exact ⟨fun _ => .rfl, id⟩
  | waiting w =>
    have hnext : s.Print.place =
        if (w.step ⟨true, s.queue.length⟩).place = .left then
          .test (w.step ⟨true, s.queue.length⟩).NodeCount
        else .waiting (w.step ⟨true, s.queue.length⟩) := by
      simp only [Job.Print, hplace, hend]
    rw [hnext]
    refine ⟨fun hlt => ?_, ?_⟩
    · have hcount := Wait.counted_step (w := w) hlt
      split
      · next hleft =>
        refine Iff.trans ?_ hcount
        exact ⟨fun h _ => h, fun h => h (by rw [hleft]; nofun)⟩
      · exact hcount
    · split <;> exact id
  | delay =>
    have hnext : s.Print.place = .test s.queue.length := by
      simp only [Job.Print, hplace]
    rw [hnext]
    exact ⟨fun hlt => iff_of_true hlt trivial, id⟩
  | test NodeCount =>
    by_cases hcount : PrintLinkedListSP < NodeCount
    · have hnext : s.Print.place = .call := by
        simp only [Job.Print, hplace, if_pos hcount]
      rw [hnext]
      exact ⟨fun _ => iff_of_true trivial hcount, id⟩
    · have hnext : s.Print.place = .cutting := by
        simp only [Job.Print, hplace, if_neg hcount]
        rfl
      rw [hnext]
      exact ⟨fun _ => iff_of_false id hcount, id⟩
  | call | backward | forward | printing | redundant | cutting =>
    rw [hplace] at hdecides
    exact hdecides.elim

/-- `Print` at its call: with enough rows it starts a run, and otherwise it returns. -/
theorem Print_call (hplace : s.place = .call) (hstop : s.head.SMP.Status = .Stopped) :
    (PrintLinkedListSP < s.queue.length → s.Print.place.UnderWay) ∧
      (¬ PrintLinkedListSP < s.queue.length → s.Print = s) := by
  have hrun : ¬ s.head.SMP.Status = .Running := by
    rw [hstop]
    nofun
  refine ⟨fun hlt => ?_, fun hfew => ?_⟩
  · simp only [Job.Print, hplace, if_neg hrun, if_pos hlt]
    split <;> trivial
  · simp only [Job.Print, hplace, if_neg hrun, if_neg hfew]

/-- A printing run goes on until `Print` has come behind it. -/
theorem Poised.Print_underWay (hp : s.Poised) (hway : s.place.UnderWay) (hne : s.place ≠ .stopped) :
    s.Print.place.UnderWay := by
  cases hplace : s.place with
  | backward | forward =>
    simp only [Job.Print, hplace]
    split
    · exact hway
    · trivial
  | printing =>
    have hok : ¬ s.head.Page.SensorError = true := by
      rw [hp.sensor hplace]
      nofun
    simp only [Job.Print, hplace, if_neg hok]
    split
    · exact hway
    · split <;> trivial
  | redundant =>
    simp only [Job.Print, hplace]
    split <;> trivial
  | stopped => exact absurd hplace hne
  | call | waiting | delay | test | cutting =>
    rw [hplace] at hway
    exact hway.elim

theorem receive_nil (hcoming : s.coming = []) : s.receive = s := by
  simp only [Job.receive, hcoming]

/-- The last command is a page end, which leaves the rows alone. -/
theorem Kept.receive_last (hk : s.Kept) (hlast : s.coming.length = 1) :
    s.receive.coming = [] ∧ s.receive.queue = s.queue ∧ s.receive.place = s.place := by
  obtain ⟨hnil, -⟩ | ⟨es, PageNum, hes⟩ := hk.coming
  · rw [hnil] at hlast
    cases hlast
  · cases es with
    | nil =>
      unfold Job.receive
      rw [hes]
      exact ⟨rfl, rfl, rfl⟩
    | cons e es =>
      rw [hes] at hlast
      simp at hlast

/-! ## Rows that are served -/

/-- No row of the finished job is stranded yet, nor will one be by `Print` alone. -/
structure Good (s : Job) : Prop extends Kept s where
  served : s.coming = [] → s.place.UnderWay ∨ s.Served

/-- The finished job leaves rows over. -/
structure Doomed (s : Job) : Prop extends Kept s where
  finished : s.coming = []
  place : ¬ s.place.UnderWay
  unserved : ¬ s.Served

/-- Rows that are served are not stranded. -/
theorem Good.not_stranded (hg : s.Good) : ¬ s.Stranded := by
  rintro ⟨hover, hne, hrest | hcutting⟩
  · obtain ⟨hplace, hstop, hreturns⟩ := hrest
    obtain hway | hnil | ⟨hlt, -⟩ := hg.served hover
    · rw [hplace] at hway
      exact hway.elim
    · exact hne hnil
    · have hway := (Print_call hplace hstop).1 hlt
      rw [hreturns] at hway
      exact hway.elim
  · obtain hway | hnil | ⟨-, hcount⟩ := hg.served hover
    · rw [hcutting] at hway
      exact hway.elim
    · exact hne hnil
    · rw [hcutting] at hcount
      exact hcount.elim

/-- A tick of timer 4 keeps the rows served: it takes none where `Print` has counted them. -/
theorem served_timer4 {ContinueMode FixedStepsMode : ModeFunction} {adc : Nat}
    (hmoves : s.place.Moves) (hserved : s.place.UnderWay ∨ s.Served) :
    s.place.UnderWay ∨ (s.next (.timer4 ContinueMode FixedStepsMode adc)).Served := by
  obtain hway | hnil | ⟨-, hcount⟩ := hserved
  · exact .inl hway
  · exact .inr (.inl ((Motor.timer4_queue _ _ _ _).2 hnil))
  · cases hplace : s.place with
    | backward | forward | printing => exact .inl trivial
    | cutting =>
      rw [hplace] at hcount
      exact hcount.elim
    | call | redundant | stopped | waiting | delay | test =>
      rw [hplace] at hmoves
      exact hmoves.elim

/-- `Print` leaves no row behind, as long as a printing run leaves none. -/
theorem Good.Print (hg : s.Good) (hmeets : s.Meets .Print) : s.Print.Good := by
  refine ⟨hg.toKept.Print, fun hover => ?_⟩
  rw [Print_coming] at hover
  have hserved := hg.served hover
  cases hplace : s.place with
  | call =>
    have hcall := Print_call hplace (hg.stopped (by rw [hplace]; exact id))
    by_cases hlt : PrintLinkedListSP < s.queue.length
    · exact .inl (hcall.1 hlt)
    · rw [hcall.2 hlt]
      exact hserved
  | backward | forward | printing | redundant =>
    refine .inl (hg.toPoised.Print_underWay ?_ ?_)
    · rw [hplace]
      trivial
    · rw [hplace]
      nofun
  | stopped =>
    refine .inr ((hg.served_Print_iff hover ?_).1.2 (hmeets hover hplace))
    rw [hplace]
    trivial
  | waiting | delay | test =>
    refine .inr ((hg.served_Print_iff hover ?_).1.2 (hserved.resolve_left ?_))
    · rw [hplace]
      trivial
    · rw [hplace]
      exact id
  | cutting =>
    obtain hway | hnil | ⟨-, hcount⟩ := hserved
    · rw [hplace] at hway
      exact hway.elim
    · refine .inr (.inl ((Print_queue ?_).trans hnil))
      rw [hplace]
      nofun
    · rw [hplace] at hcount
      exact hcount.elim

/-- The last page end strands no row where the rows are served. -/
theorem Good.receive (hg : s.Good) (hmeets : s.Meets .receive) : s.receive.Good := by
  refine ⟨hg.toKept.receive, fun hover => ?_⟩
  cases hcoming : s.coming with
  | nil =>
    rw [receive_nil hcoming]
    exact hg.served hcoming
  | cons event rest =>
    have hrest : rest = [] := by simpa only [Job.receive, hcoming] using hover
    have hlast : s.coming.length = 1 := by rw [hcoming, hrest, List.length_singleton]
    obtain ⟨-, hqueue, hplace⟩ := hg.receive_last hlast
    rw [Served, hqueue, hplace]
    by_cases hway : s.place.UnderWay
    · exact .inl hway
    · exact .inr (hmeets hlast hway)

/-- Every action that meets the condition strands no row. -/
theorem Good.next (hg : s.Good) (hcan : s.Can a) (hmeets : s.Meets a) : (s.next a).Good := by
  cases a with
  | receive => exact hg.receive hmeets
  | Print => exact hg.Print hmeets
  | startPWM =>
    refine ⟨hg.toKept.next hcan, fun hover => ?_⟩
    have hserved := hg.served hover
    rwa [Served, queue, startPWM_head]
  | timer1 => exact ⟨hg.toKept.next hcan, hg.served⟩
  | timer4 =>
    exact ⟨hg.toKept.next hcan, fun hover => served_timer4 (hg.moves hcan.1) (hg.served hover)⟩

/-! ## Rows that are not served -/

/-- An action that breaks the condition leaves rows over. -/
theorem Kept.doomed (hk : s.Kept) (hcan : s.Can a) (hbreaks : ¬ s.Meets a) : (s.next a).Doomed := by
  have hkept := hk.next hcan
  cases a with
  | receive =>
    simp only [Meets, Classical.not_imp] at hbreaks
    obtain ⟨hlast, hway, hunserved⟩ := hbreaks
    obtain ⟨hover, hqueue, hplace⟩ := hk.receive_last hlast
    refine ⟨hkept, hover, ?_, ?_⟩
    · rwa [Job.next, hplace]
    · rwa [Served, Job.next, hqueue, hplace]
  | Print =>
    simp only [Meets, Classical.not_imp] at hbreaks
    obtain ⟨hover, hplace, hunserved⟩ := hbreaks
    have hdecides : s.place.Decides := by
      rw [hplace]
      trivial
    obtain ⟨hiff, hway⟩ := hk.served_Print_iff hover hdecides
    exact ⟨hkept, Print_coming.trans hover, hway, fun h => hunserved (hiff.1 h)⟩
  | startPWM | timer1 | timer4 => exact absurd trivial hbreaks

/-- At rest, the rows that are left over are stranded. -/
theorem Doomed.stranded (hd : s.Doomed) (hplace : s.place = .call) : s.Stranded := by
  have hstop : s.head.SMP.Status = .Stopped := hd.stopped (by rw [hplace]; exact id)
  have hfew : ¬ PrintLinkedListSP < s.queue.length := by
    intro hlt
    refine hd.unserved (.inr ⟨hlt, ?_⟩)
    rw [hplace]
    trivial
  refine ⟨hd.finished, fun hnil => hd.unserved (.inl hnil), .inl ⟨hplace, hstop, ?_⟩⟩
  rw [(Print_call hplace hstop).2 hfew]
  exact hplace

/-- Nor are they printed on the way to the cut position. -/
theorem Doomed.stranded_cutting (hd : s.Doomed) (hplace : s.place = .cutting) : s.Stranded :=
  ⟨hd.finished, fun hnil => hd.unserved (.inl hnil), .inr hplace⟩

/-- The rows that are left over stay over until they are stranded. -/
theorem Doomed.next (hd : s.Doomed) (hcan : s.Can a) (hst : ¬ s.Stranded) : (s.next a).Doomed := by
  have hkept := hd.toKept.next hcan
  cases a with
  | receive =>
    rw [Job.next, receive_nil hd.finished]
    exact hd
  | Print =>
    cases hplace : s.place with
    | call => exact absurd (hd.stranded hplace) hst
    | cutting => exact absurd (hd.stranded_cutting hplace) hst
    | stopped | waiting | delay | test =>
      have hdecides : s.place.Decides := by
        rw [hplace]
        trivial
      obtain ⟨hiff, hway⟩ := hd.served_Print_iff hd.finished hdecides
      exact ⟨hkept, Print_coming.trans hd.finished, hway, fun h => hd.unserved (hiff.1 h)⟩
    | backward | forward | printing | redundant =>
      refine absurd ?_ hd.place
      rw [hplace]
      trivial
  | startPWM =>
    refine ⟨hkept, hd.finished, hd.place, ?_⟩
    rw [Served, queue, startPWM_head]
    exact hd.unserved
  | timer1 => exact ⟨hkept, hd.finished, hd.place, hd.unserved⟩
  | timer4 =>
    have hmoves := hd.moves hcan.1
    cases hplace : s.place with
    | cutting => exact absurd (hd.stranded_cutting hplace) hst
    | backward | forward | printing =>
      refine absurd ?_ hd.place
      rw [hplace]
      trivial
    | call | redundant | stopped | waiting | delay | test =>
      rw [hplace] at hmoves
      exact hmoves.elim

/-- **No stranded rows.** In every run of a job whose steps all meet the condition, no row of the
finished job is queued while the print task is at rest or moves the paper to the cut position. And
after a step that breaks the condition, no run comes to rest without stranding rows. -/
theorem no_rows_stranded (hb : s.Begins) :
    (∀ t, ReflTransGen (Step Meets) s t → ¬ t.Stranded) ∧
      ∀ t a u, ReflTransGen (Step fun _ _ => True) s t → t.Can a → ¬ t.Meets a →
        ReflTransGen (Step fun t _ => ¬ t.Stranded) (t.next a) u → u.place = .call →
          u.Stranded := by
  refine ⟨fun t hrun => ?_, fun t a u hrun hcan hbreaks hon hcall => ?_⟩
  · have hgood : t.Good := by
      refine Runs.invariant (fun s t hg => ?_) hrun ⟨hb.kept, fun hover => ?_⟩
      · rintro ⟨a, hcan, hmeets, rfl⟩
        exact hg.next hcan hmeets
      · obtain ⟨es, PageNum, hcoming⟩ := hb.coming
        rw [hover] at hcoming
        simp at hcoming
    exact hgood.not_stranded
  · have hkept : t.Kept := by
      refine Runs.invariant (fun s t hk => ?_) hrun hb.kept
      rintro ⟨a, hcan, -, rfl⟩
      exact hk.next hcan
    have hdoomed : u.Doomed := by
      refine Runs.invariant (fun s t hd => ?_) hon (hkept.doomed hcan hbreaks)
      rintro ⟨a, hcan, hst, rfl⟩
      exact hd.next hcan hst
    exact hdoomed.stranded hcall

/-- At boot, a page of so many rows is queued, and its end is to come. -/
def pageQueued (rows : Nat) : Job :=
  { init [.pageEnd 1] with
    motor := (Motor.init 2).setHead
      (Head.init.queue (List.replicate rows ⟨List.replicate PrintlineBytes 255, 0⟩)) }

/-- The end of a page of 40 rows leaves none over; that of a page of 3 rows strands them. -/
theorem no_rows_stranded_pageQueued :
    ¬ (pageQueued 40).receive.Print.Stranded ∧ (pageQueued 3).receive.Stranded := by
  have hb (rows : Nat) : (pageQueued rows).Begins := ⟨⟨[], 1, rfl⟩, rfl, rfl⟩
  refine ⟨(no_rows_stranded (hb 40)).1 _ ?_, ?_⟩
  · have hserved : (pageQueued 40).Served := .inr ⟨by decide, trivial⟩
    have hover : (pageQueued 40).receive.place ≠ .stopped := nofun
    exact (ReflTransGen.single ⟨.receive, trivial, fun _ _ => hserved, rfl⟩).tail
      ⟨.Print, trivial, fun _ h => absurd h hover, rfl⟩
  · refine (no_rows_stranded (hb 3)).2 _ .receive _ .refl trivial ?_ .refl rfl
    intro hmeets
    obtain hnil | ⟨hlt, -⟩ := hmeets rfl id
    · cases hnil
    · exact absurd hlt (by decide)

/-- A job of one row: it is over, and the row is left in the queue, whenever `Print` is called. -/
theorem row_left_unprinted :
    ∃ t, ReflTransGen (Step fun _ _ => True)
        (init [.pageStart, .row ⟨List.replicate PrintlineBytes 255, 0⟩, .lineEnd, .pageEnd 1]) t ∧
      t.Stranded ∧ t.Print = t := by
  have hreceive (s : Job) : Step (fun _ _ => True) s s.receive :=
    ⟨.receive, trivial, trivial, rfl⟩
  refine ⟨_, (((ReflTransGen.single (hreceive _)).tail (hreceive _)).tail (hreceive _)).tail
    (hreceive _), ⟨rfl, nofun, .inl ⟨rfl, rfl, rfl⟩⟩, rfl⟩

end Job

end ThermalPrinter
