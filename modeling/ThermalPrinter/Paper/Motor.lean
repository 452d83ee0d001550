import ThermalPrinter.Lib.Runs
import ThermalPrinter.Paper.Gap
import ThermalPrinter.Paper.Labels

/-!
# The motor, the strobe and the latch

Two timers drive the print head. Timer 4 makes the motor's steps and latches a line at each of them
(`Timer4CallBackMotor`); timer 1 connects and disconnects the strobe, which heats the dots of the
latched line (`Timer1CallBackMotor`). The print task starts motor runs (`StepMotorStart`), and the
last tick of a run stops the motor (`StopStepMotor`). `StopStepMotor` turns timer 4 off and the end
of `StepMotorStart` turns it on again, so a start is interrupted by timer 1 alone. It is two
actions, since timer 1 may tick before `StepMotorStart` calls `StartPWM`.

Timer 1 goes on after the motor stopped, so the strobe may be connected while the paper stands
still. No dot is heated then because the latched line is blank (`still_paper_unheated`).
-/

namespace ThermalPrinter

open Relation

/-- `heatTime`: the ticks of timer 1 for which the strobe stays disconnected. -/
def heatTime : Nat := 16

/-- The phase of the strobe: the ticks counted in it, whether it is the connected one, whether the
output channel is connected, and the head type found at boot. -/
structure Strobe where
  PWMCount : Nat
  STBState : Bool
  connected : Bool
  HeadStbLowValid : UInt8
  deriving DecidableEq, Repr

namespace Strobe

/-- `StartPWM`. -/
def StartPWM (s : Strobe) : Strobe :=
  if s.HeadStbLowValid = 0 then s else { s with PWMCount := 0, connected := true }

/-- The share of the strobe in `StopStepMotor`. -/
def StopStepMotor (s : Strobe) : Strobe := { s with connected := false }

/-- `Timer1CallBackMotor`, without the polls of the channels. -/
def Timer1CallBackMotor (HeadPrint : Bool) (s : Strobe) : Strobe :=
  if HeadPrint then
    if s.STBState then
      if s.PWMCount + 1 ≥ 10 then { s with STBState := false, PWMCount := 0, connected := false }
      else { s with PWMCount := s.PWMCount + 1 }
    else if s.PWMCount + 1 ≥ heatTime then
      { s with STBState := true, PWMCount := 0, connected := true }
    else { s with PWMCount := s.PWMCount + 1 }
  else { s with STBState := false, PWMCount := 0 }

end Strobe

/-- `ContinueMode` or `FixedStepsMode`, the closed functions that time the steps of a run: they
change the parameters of the run, but neither `HeadPrint` nor `Status`. -/
structure ModeFunction where
  run : StepMP → StepMP
  HeadPrint : ∀ SMP, (run SMP).HeadPrint = SMP.HeadPrint
  Status : ∀ SMP, (run SMP).Status = SMP.Status

/-- The line in the head's latch: the one latched last, blank at boot. -/
def Head.latch (h : Head) : List UInt8 := h.latched.getLastD blank

/-- A line without dots. -/
def Dark (line : List UInt8) : Prop := ∀ b ∈ line, b = 0

instance (line : List UInt8) : Decidable (Dark line) :=
  inferInstanceAs (Decidable (∀ b ∈ line, b = 0))

/-- The share of the head in `StopStepMotor`: a blank line is latched, and the motor stands. -/
def Head.StopStepMotor (h : Head) : Head :=
  let h := h.PrinterDataIn blank
  { h with SMP := { h.SMP with Status := .Stopped } }

/-- The globals of the two timers: the head with its gap sensor, the strobe, whether
`StepMotorStart` has still to call `StartPWM`, `Gap.CountPaper`, and the static `ADCPaperEdgeCount`
of `SensorStatusISR`. -/
structure Motor where
  printing : Printing
  strobe : Strobe
  starting : Bool
  CountPaper : UInt8
  ADCPaperEdgeCount : Nat

namespace Motor

/-- The label counter and the head. -/
abbrev head (m : Motor) : Head := m.printing.head

/-- The motor with another head. -/
def setHead (m : Motor) (h : Head) : Motor := { m with printing := { m.printing with head := h } }

/-- `StepMotorStart`, up to its call of `StartPWM`. What follows the call is the head's, which
timer 1 does not look at. -/
def StepMotorStart (CurrentSMP : StepMP) (m : Motor) : Motor :=
  if m.head.SMP.Status = .Running then m
  else { m.setHead (m.head.StepMotorStart CurrentSMP) with starting := CurrentSMP.HeadPrint }

/-- The call of `StartPWM` in `StepMotorStart`. -/
def StartPWM (m : Motor) : Motor := { m with strobe := m.strobe.StartPWM, starting := false }

/-- `StopStepMotor`. -/
def StopStepMotor (m : Motor) : Motor :=
  { m.setHead m.head.StopStepMotor with strobe := m.strobe.StopStepMotor }

/-- `FindFaperEdgeISR`. -/
def FindFaperEdgeISR (adc : Nat) (m : Motor) : Motor :=
  let m := { m with
    CountPaper := if adc > 500 then m.CountPaper <<< 1 ||| 1 else m.CountPaper >>> 1 }
  if m.CountPaper = 0x0f ∨ m.head.SMP.CurrentSteps > m.head.SMP.StepsFixedValue then
    m.setHead { m.head with SMP := { m.head.SMP with Suspend := true } }
  else m

/-- `PhaseSwitching`, with the functions of the two modes. -/
def PhaseSwitching (ContinueMode FixedStepsMode : ModeFunction) (adc : Nat) (m : Motor) : Motor :=
  let mode := if m.head.SMP.Mode = .ModeContinue then ContinueMode else FixedStepsMode
  let m := m.setHead { m.head with SMP := mode.run m.head.SMP }
  if m.head.SMP.Dir = .Forward ∧ m.head.SMP.RecordGap then
    { m with printing := m.printing.GapCalculate adc }
  else m

/-- `SensorStatusISR`: the cover is open, or no paper was seen for 200 steps. -/
def SensorStatusISR (CoverState : Bool) (adc : Nat) (m : Motor) : Motor :=
  let m := if CoverState then m.setHead m.head.sensorError else m
  if adc < 100 ∧ m.head.SMP.Dir = .Forward then
    let m := { m with ADCPaperEdgeCount := m.ADCPaperEdgeCount + 1 }
    if m.ADCPaperEdgeCount > 200 then m.setHead m.head.sensorError else m
  else { m with ADCPaperEdgeCount := 0 }

/-- `Timer4CallBackMotor`: a step of the motor, or its end. -/
def Timer4CallBackMotor (ContinueMode FixedStepsMode : ModeFunction) (CoverState : Bool)
    (adc : Nat) (m : Motor) : Motor :=
  if m.head.SMP.StepMotorFinished then m.StopStepMotor
  else
    let m :=
      if m.head.SMP.FindPaperEdge then m.FindFaperEdgeISR adc
      else if m.head.SMP.HeadPrint then m.setHead m.head.PageDataCalculation
      else m
    (m.PhaseSwitching ContinueMode FixedStepsMode adc).SensorStatusISR CoverState adc

/-- `Timer1CallBackMotor`. -/
def Timer1CallBackMotor (m : Motor) : Motor :=
  { m with strobe := m.strobe.Timer1CallBackMotor m.head.SMP.HeadPrint }

/-- What happens: a call of `StepMotorStart` and its call of `StartPWM`, a tick of timer 4 with what
the sensors say, a tick of timer 1, and what the tasks do to the label's records, the queue and the
sensor's counters. -/
inductive Action
  | start (CurrentSMP : StepMP)
  | startPWM
  | timer4 (ContinueMode FixedStepsMode : ModeFunction) (CoverState : Bool) (adc : Nat)
  | timer1
  | tasks (Page : PrintPage) (Gap : GAP) (PrintBLink : List LinkedListData) (PageEndFlag : Bool)
      (CountPaper : UInt8) (gapCalculated : Bool)

/-- The state after an action. `StartPWM` is called by a start only, and timer 4 does not tick
before the start is over. -/
def next (m : Motor) : Action → Motor
  | .start CurrentSMP => m.StepMotorStart CurrentSMP
  | .startPWM => if m.starting then m.StartPWM else m
  | .timer4 ContinueMode FixedStepsMode CoverState adc =>
    if m.starting then m
    else m.Timer4CallBackMotor ContinueMode FixedStepsMode CoverState adc
  | .timer1 => m.Timer1CallBackMotor
  | .tasks Page Gap PrintBLink PageEndFlag CountPaper gapCalculated =>
    { m with
      printing :=
        { head := { m.head with
            Page := Page, Gap := Gap, PrintBLink := PrintBLink, PageEndFlag := PageEndFlag }
          sensor := { m.printing.sensor with gapCalculated := gapCalculated } }
      CountPaper := CountPaper }

/-- One action. -/
def Step (m m' : Motor) : Prop := ∃ a, m' = m.next a

/-- The state at boot, for a head of the given type: the motor stands and the strobe is
disconnected. -/
def init (HeadStbLowValid : UInt8) : Motor where
  printing := { head := Head.init, sensor := Sensor.init }
  strobe :=
    { PWMCount := 0, STBState := false, connected := false, HeadStbLowValid := HeadStbLowValid }
  starting := false
  CountPaper := 0
  ADCPaperEdgeCount := 0

end Motor

/-! ## What leaves the latch and the run alone -/

namespace Head

variable {h h' h'' : Head}

/-- Nothing is latched, and the motor goes on or stands as before. -/
structure Unlatched (h h' : Head) : Prop where
  HeadPrint : h'.SMP.HeadPrint = h.SMP.HeadPrint
  Status : h'.SMP.Status = h.SMP.Status
  latched : h'.latched = h.latched

theorem Unlatched.trans (h₁ : Unlatched h h') (h₂ : Unlatched h' h'') : Unlatched h h'' :=
  ⟨h₂.HeadPrint.trans h₁.HeadPrint, h₂.Status.trans h₁.Status, h₂.latched.trans h₁.latched⟩

/-- Only the label's records and the suspension of the run change. -/
def Relabelled (h h' : Head) : Prop :=
  ∃ Suspend Page Gap,
    h' = { h with SMP := { h.SMP with Suspend := Suspend }, Page := Page, Gap := Gap }

theorem Relabelled.refl : Relabelled h h := ⟨_, _, _, rfl⟩

theorem Relabelled.trans (h₁ : Relabelled h h') (h₂ : Relabelled h' h'') : Relabelled h h'' := by
  obtain ⟨_, _, _, rfl⟩ := h₁
  obtain ⟨_, _, _, rfl⟩ := h₂
  exact ⟨_, _, _, rfl⟩

/-- Nothing is latched then, and neither is the motor started nor stopped. -/
theorem Relabelled.unlatched (hr : Relabelled h h') : Unlatched h h' := by
  obtain ⟨_, _, _, rfl⟩ := hr
  exact ⟨rfl, rfl, rfl⟩

/-- The compensation for a gap relabels. -/
theorem Corrected.relabelled (hc : Corrected h h') : Relabelled h h' := by
  obtain ⟨_, _, _, _, rfl⟩ := hc
  exact ⟨_, _, _, rfl⟩

theorem relabelled_sensorError : Relabelled h h.sensorError := ⟨_, _, _, rfl⟩

theorem relabelled_HandleLastAuthenticPageGap : Relabelled h h.HandleLastAuthenticPageGap := by
  unfold HandleLastAuthenticPageGap
  dsimp only
  split
  · split <;> exact ⟨_, _, _, rfl⟩
  · exact ⟨_, _, _, rfl⟩

/-- The gap sensor changes the label's records, and may suspend the run. -/
theorem relabelled_gapStep (below : Bool) : Relabelled h (h.gapStep below) := by
  have hcount : Relabelled h (h.gapCount below) := ⟨_, _, _, rfl⟩
  have hin : Relabelled h (h.gapCount below).gapIn := by
    unfold gapIn
    split
    · exact hcount.trans ⟨_, _, _, rfl⟩
    · exact hcount
  have hout : Relabelled h (h.gapCount below).gapIn.gapOut := hin.trans ⟨_, _, _, rfl⟩
  unfold gapStep
  simp only []
  split
  · split
    · split
      · split
        · exact (hout.trans corrected_PageCompensationByGap.relabelled).trans relabelled_sensorError
        · exact hout.trans corrected_PageCompensationByGap.relabelled
      · split
        · exact hout.trans relabelled_sensorError
        · exact hout
    · exact hin.trans relabelled_HandleLastAuthenticPageGap
  · exact hin

end Head

/-! ## The latch -/

namespace Motor

variable {m m' : Motor}

/-- The latched line has dots only while a printing run is under way; and the motor stands only at
the end of a run, or where the head does not print. -/
structure Safe (m : Motor) : Prop where
  latch : Dark m.head.latch ∨ m.head.SMP.Status = .Running ∧ m.head.SMP.HeadPrint = true
  stopped : m.head.SMP.Status = .Stopped →
    m.head.SMP.StepMotorFinished = true ∨ m.head.SMP.HeadPrint = false

/-- Whatever latches nothing keeps the latch safe. -/
theorem Safe.latch_of_unlatched (hs : m.Safe) (hk : Head.Unlatched m.head m'.head) :
    Dark m'.head.latch ∨ m'.head.SMP.Status = .Running ∧ m'.head.SMP.HeadPrint = true := by
  rw [Head.latch, hk.latched, hk.Status, hk.HeadPrint]
  exact hs.latch

theorem dark_blank : Dark blank := fun _ hb => List.eq_of_mem_replicate hb

/-- A blank line in the latch: `StopStepMotor` leaves it there, or the head does not print. -/
theorem safe_StopStepMotor (hs : m.Safe) (hfin : m.head.SMP.StepMotorFinished = true) :
    m.StopStepMotor.Safe := by
  unfold StopStepMotor setHead Head.StopStepMotor Head.PrinterDataIn
  by_cases hp : m.head.SMP.HeadPrint = true
  · simp only [if_pos hp]
    exact ⟨.inl (by simp [Head.latch, dark_blank]), fun _ => .inl hfin⟩
  · simp only [if_neg hp]
    exact ⟨.inl (hs.latch.resolve_right fun h => hp h.2), fun _ => .inl hfin⟩

theorem relabelled_FindFaperEdgeISR (adc : Nat) :
    Head.Relabelled m.head (m.FindFaperEdgeISR adc).head := by
  unfold FindFaperEdgeISR
  generalize (if adc > 500 then m.CountPaper <<< 1 ||| 1 else m.CountPaper >>> 1) = CountPaper
  dsimp only
  split <;> exact ⟨_, _, _, rfl⟩

theorem relabelled_SensorStatusISR (CoverState : Bool) (adc : Nat) :
    Head.Relabelled m.head (m.SensorStatusISR CoverState adc).head := by
  have hcover : Head.Relabelled m.head
      (if CoverState then m.setHead m.head.sensorError else m).head := by
    split
    · exact Head.relabelled_sensorError
    · exact .refl
  unfold SensorStatusISR
  generalize (if CoverState then m.setHead m.head.sensorError else m) = n at hcover
  dsimp only
  split
  · split
    · exact hcover.trans Head.relabelled_sensorError
    · exact hcover
  · exact hcover

/-- The rest of a motor step, after the line is latched: the mode's function changes the parameters
of the run, and the sensors the label's records. -/
theorem relabelled_rest (ContinueMode FixedStepsMode : ModeFunction) (CoverState : Bool)
    (adc : Nat) :
    ∃ SMP : StepMP, SMP.HeadPrint = m.head.SMP.HeadPrint ∧ SMP.Status = m.head.SMP.Status ∧
      Head.Relabelled { m.head with SMP := SMP }
        ((m.PhaseSwitching ContinueMode FixedStepsMode adc).SensorStatusISR CoverState
          adc).head := by
  have hphase : ∃ SMP : StepMP, SMP.HeadPrint = m.head.SMP.HeadPrint ∧
      SMP.Status = m.head.SMP.Status ∧
      Head.Relabelled { m.head with SMP := SMP }
        (m.PhaseSwitching ContinueMode FixedStepsMode adc).head := by
    unfold PhaseSwitching
    generalize (if m.head.SMP.Mode = .ModeContinue then ContinueMode else FixedStepsMode) = mode
    refine ⟨mode.run m.head.SMP, mode.HeadPrint _, mode.Status _, ?_⟩
    dsimp only
    split
    · exact Head.relabelled_gapStep _
    · exact .refl
  obtain ⟨SMP, hp, hst, hr⟩ := hphase
  exact ⟨SMP, hp, hst, hr.trans (relabelled_SensorStatusISR CoverState adc)⟩

theorem unlatched_rest (ContinueMode FixedStepsMode : ModeFunction) (CoverState : Bool)
    (adc : Nat) :
    Head.Unlatched m.head
      ((m.PhaseSwitching ContinueMode FixedStepsMode adc).SensorStatusISR CoverState adc).head := by
  obtain ⟨SMP, hp, hst, hr⟩ := relabelled_rest (m := m) ContinueMode FixedStepsMode CoverState adc
  have hmode : Head.Unlatched m.head { m.head with SMP := SMP } := ⟨hp, hst, rfl⟩
  exact hmode.trans hr.unlatched

/-- **A tick of timer 4** keeps the latch safe: it latches a line only in a printing run. -/
theorem safe_timer4 (hs : m.Safe) (ContinueMode FixedStepsMode : ModeFunction) (CoverState : Bool)
    (adc : Nat) : (m.Timer4CallBackMotor ContinueMode FixedStepsMode CoverState adc).Safe := by
  unfold Timer4CallBackMotor
  by_cases hfin : m.head.SMP.StepMotorFinished = true
  · rw [if_pos hfin]
    exact safe_StopStepMotor hs hfin
  · rw [if_neg hfin]
    -- a motor that stands at this tick does not print
    have hstopped (hstop : m.head.SMP.Status = .Stopped) : m.head.SMP.HeadPrint = false :=
      (hs.stopped hstop).resolve_left hfin
    have hrest := fun n : Motor =>
      unlatched_rest (m := n) ContinueMode FixedStepsMode CoverState adc
    have hsafe (n : Motor) (hp : n.head.SMP.HeadPrint = m.head.SMP.HeadPrint)
        (hst : n.head.SMP.Status = m.head.SMP.Status)
        (hl : Dark n.head.latch ∨ n.head.SMP.Status = .Running ∧ n.head.SMP.HeadPrint = true) :
        ((n.PhaseSwitching ContinueMode FixedStepsMode adc).SensorStatusISR CoverState
          adc).Safe := by
      refine ⟨?_, fun hstop => .inr ?_⟩
      · rw [Head.latch, (hrest n).latched, (hrest n).Status, (hrest n).HeadPrint]
        exact hl
      · rw [(hrest n).Status, hst] at hstop
        rw [(hrest n).HeadPrint, hp]
        exact hstopped hstop
    by_cases hedge : m.head.SMP.FindPaperEdge = true
    · simp only [hedge, if_true]
      have hk := (relabelled_FindFaperEdgeISR (m := m) adc).unlatched
      exact hsafe _ hk.HeadPrint hk.Status (hs.latch_of_unlatched hk)
    · simp only [hedge]
      by_cases hp : m.head.SMP.HeadPrint = true
      · simp only [hp, if_true]
        have hrun : m.head.SMP.Status = .Running := by
          cases hst : m.head.SMP.Status with
          | Running => rfl
          | Stopped => rw [hstopped hst] at hp; cases hp
        have hstep := Head.stepped_PageDataCalculation (h := m.head)
        exact hsafe _ hstep.HeadPrint hstep.Status
          (.inr ⟨hstep.Status.trans hrun, hstep.HeadPrint.trans hp⟩)
      · simp only [hp]
        exact hsafe m rfl rfl hs.latch

/-- **A start** keeps the latch safe: the line latched by the run before is blank. -/
theorem safe_start (hs : m.Safe) (CurrentSMP : StepMP) : (m.StepMotorStart CurrentSMP).Safe := by
  unfold StepMotorStart
  by_cases hrun : m.head.SMP.Status = .Running
  · rw [if_pos hrun]
    exact hs
  · rw [if_neg hrun]
    have hstart : (m.head.StepMotorStart CurrentSMP).SMP.Status = .Running := by
      unfold Head.StepMotorStart Head.limitACCSteps
      rw [if_neg hrun]
      simp only []
      split <;> rfl
    refine ⟨.inl ?_, ?_⟩
    · have hdark := hs.latch.resolve_right fun h => hrun h.1
      unfold Head.StepMotorStart
      rw [if_neg hrun]
      exact hdark
    · intro hstop
      have : (m.head.StepMotorStart CurrentSMP).SMP.Status = .Stopped := hstop
      rw [hstart] at this
      cases this

/-- Every action keeps the latch safe. -/
theorem step_safe (hs : m.Safe) (hst : Step m m') : m'.Safe := by
  obtain ⟨a, rfl⟩ := hst
  cases a with
  | start CurrentSMP => exact safe_start hs CurrentSMP
  | startPWM =>
    rw [next]
    split
    · exact ⟨hs.latch, hs.stopped⟩
    · exact hs
  | timer4 ContinueMode FixedStepsMode CoverState adc =>
    rw [next]
    split
    · exact hs
    · exact safe_timer4 hs _ _ _ _
  | timer1 => exact ⟨hs.latch, hs.stopped⟩
  | tasks => exact ⟨hs.latch, hs.stopped⟩

theorem init_safe (HeadStbLowValid : UInt8) : (init HeadStbLowValid).Safe :=
  ⟨.inl dark_blank, fun _ => .inr rfl⟩

/-- **No dot is heated while the paper stands still.** Whenever the line in the head's latch is not
blank, a printing run is under way; so whenever the strobe is connected while the motor stands or
only positions the paper, the latched line is blank. -/
theorem still_paper_unheated {HeadStbLowValid : UInt8}
    (hrun : ReflTransGen Step (init HeadStbLowValid) m) :
    (¬ Dark m.head.latch →
        m.head.SMP.Status = .Running ∧ m.head.SMP.HeadPrint = true) ∧
      (m.strobe.connected = true →
        m.head.SMP.Status = .Stopped ∨ m.head.SMP.HeadPrint = false → Dark m.head.latch) := by
  have hs : m.Safe := Runs.invariant (fun _ _ => step_safe) hrun (init_safe _)
  refine ⟨hs.latch.resolve_left, fun _ hstill => hs.latch.resolve_right ?_⟩
  intro h
  rcases hstill with hstop | hp
  · rw [h.1] at hstop
    cases hstop
  · rw [h.2] at hp
    cases hp

/-- A printing run latches a row and is stopped: the strobe may be connected again by timer 1, but
the latched line is blank. -/
theorem still_paper_unheated_stop :
    let step : ModeFunction := ⟨fun SMP => { SMP with StepMotorFinished := true },
      fun _ => rfl, fun _ => rfl⟩
    let row : LinkedListData := ⟨List.replicate PrintlineBytes 1, 0⟩
    let m := ((((init 2).next (.start Head.SMPCurrent)).next
      (.tasks Head.init.Page Head.init.Gap [row] false 0 false)).next
        (.timer4 step step false 300)).next (.timer4 step step false 300)
    (¬ Dark m.head.latch → m.head.SMP.Status = .Running ∧ m.head.SMP.HeadPrint = true) ∧
      (m.strobe.connected = true →
        m.head.SMP.Status = .Stopped ∨ m.head.SMP.HeadPrint = false → Dark m.head.latch) := by
  intro step row m
  have hrun : ReflTransGen Step (init 2) m :=
    (((ReflTransGen.refl.tail ⟨_, rfl⟩).tail ⟨_, rfl⟩).tail ⟨_, rfl⟩).tail ⟨_, rfl⟩
  exact still_paper_unheated hrun

end Motor

end ThermalPrinter
