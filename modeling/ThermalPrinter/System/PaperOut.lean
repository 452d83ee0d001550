import ThermalPrinter.System.Machine
import Mathlib.Data.List.DropRight

/-!
# The paper runs out

`SensorStatusISR` counts the forward steps that see no paper, in a static that neither the end of a
run nor the start of the next one clears. So the count is that of the last steps without paper, over
all runs (`counts`), and a step records an error exactly if the cover is open, if that count is
above 200, or if the gap sensor does (`paper_out`). `StepMotorStart` clears the error, but not the
count: while no paper is seen, every later run is suspended by its first forward step.
-/

namespace ThermalPrinter

open Relation

namespace Motor

variable {m : Motor} {ContinueMode FixedStepsMode : ModeFunction} {CoverState : Bool} {adc : Nat}

/-- A tick of timer 4 moves the motor. -/
def Ticks (m : Motor) : Prop := m.starting = false ∧ m.head.SMP.StepMotorFinished = false

instance (m : Motor) : Decidable m.Ticks := inferInstanceAs (Decidable (_ ∧ _))

/-- A step of the motor, as `SensorStatusISR` finds it. -/
def phased (ContinueMode FixedStepsMode : ModeFunction) (adc : Nat) (m : Motor) : Motor :=
  (if m.head.SMP.FindPaperEdge then m.FindFaperEdgeISR adc
    else if m.head.SMP.HeadPrint then m.setHead m.head.PageDataCalculation
    else m).PhaseSwitching ContinueMode FixedStepsMode adc

/-- A step forward over no paper. -/
def noPaper (ContinueMode FixedStepsMode : ModeFunction) (adc : Nat) (m : Motor) : Bool :=
  adc < 100 ∧ (m.phased ContinueMode FixedStepsMode adc).head.SMP.Dir = .Forward

/-- A step ends with `SensorStatusISR`. -/
theorem timer4_ticks (h : m.Ticks) :
    m.next (.timer4 ContinueMode FixedStepsMode CoverState adc) =
      (m.phased ContinueMode FixedStepsMode adc).SensorStatusISR CoverState adc := by
  rw [next, h.1, Timer4CallBackMotor, h.2]
  rfl

/-- Any other tick of timer 4 leaves the count. -/
theorem timer4_rests (h : ¬ m.Ticks) :
    (m.next (.timer4 ContinueMode FixedStepsMode CoverState adc)).ADCPaperEdgeCount =
      m.ADCPaperEdgeCount := by
  change (if m.starting then m else m.Timer4CallBackMotor ContinueMode FixedStepsMode CoverState
    adc).ADCPaperEdgeCount = m.ADCPaperEdgeCount
  split
  next => rfl
  next hstart =>
    have hfin : m.head.SMP.StepMotorFinished = true := by
      cases hfin : m.head.SMP.StepMotorFinished with
      | false => exact absurd ⟨Bool.not_eq_true _ ▸ hstart, hfin⟩ h
      | true => rfl
    rw [Timer4CallBackMotor, if_pos hfin]
    rfl

/-- Up to `SensorStatusISR`, so does a step. -/
theorem phased_count :
    (m.phased ContinueMode FixedStepsMode adc).ADCPaperEdgeCount = m.ADCPaperEdgeCount := by
  have hphase (n : Motor) :
      (n.PhaseSwitching ContinueMode FixedStepsMode adc).ADCPaperEdgeCount =
        n.ADCPaperEdgeCount := by
    unfold PhaseSwitching
    generalize (if n.head.SMP.Mode = .ModeContinue then ContinueMode else FixedStepsMode) = mode
    dsimp only
    split <;> rfl
  have hedge : (m.FindFaperEdgeISR adc).ADCPaperEdgeCount = m.ADCPaperEdgeCount := by
    unfold FindFaperEdgeISR
    generalize (if adc > 500 then m.CountPaper <<< 1 ||| 1 else m.CountPaper >>> 1) = CountPaper
    dsimp only
    split <;> rfl
  rw [phased, hphase]
  split
  · exact hedge
  · split <;> rfl

/-- What `SensorStatusISR` counts, and what it reports. -/
theorem SensorStatusISR_spec (CoverState : Bool) (adc : Nat) (m : Motor) :
    (m.SensorStatusISR CoverState adc).ADCPaperEdgeCount =
      (if adc < 100 ∧ m.head.SMP.Dir = .Forward then m.ADCPaperEdgeCount + 1 else 0) ∧
    ((m.SensorStatusISR CoverState adc).head.Page.SensorError = true ↔
      m.head.Page.SensorError = true ∨ CoverState = true ∨
        200 < (m.SensorStatusISR CoverState adc).ADCPaperEdgeCount) ∧
    (CoverState = true ∨ 200 < (m.SensorStatusISR CoverState adc).ADCPaperEdgeCount →
      (m.SensorStatusISR CoverState adc).head.SMP.Suspend = true) := by
  have hcover : ∃ n, n = (if CoverState then m.setHead m.head.sensorError else m) ∧
      n.ADCPaperEdgeCount = m.ADCPaperEdgeCount ∧ n.head.SMP.Dir = m.head.SMP.Dir ∧
      (n.head.Page.SensorError = true ↔ m.head.Page.SensorError = true ∨ CoverState = true) ∧
      (CoverState = true → n.head.SMP.Suspend = true) := by
    cases CoverState with
    | false => exact ⟨m, rfl, rfl, rfl, by simp, by simp⟩
    | true => exact ⟨_, rfl, rfl, rfl, by simp [setHead, Head.sensorError], fun _ => rfl⟩
  obtain ⟨n, hn, hcount, hdir, herror, hsuspend⟩ := hcover
  unfold SensorStatusISR
  rw [← hn]
  dsimp only
  rw [hdir, hcount]
  by_cases hlow : adc < 100 ∧ m.head.SMP.Dir = .Forward
  · rw [if_pos hlow, if_pos hlow]
    by_cases hmany : m.ADCPaperEdgeCount + 1 > 200
    · rw [if_pos hmany]
      exact ⟨rfl, iff_of_true rfl (.inr (.inr hmany)), fun _ => rfl⟩
    · rw [if_neg hmany]
      refine ⟨rfl, ?_, fun h => hsuspend (h.resolve_right hmany)⟩
      exact ⟨fun h => (herror.1 h).imp_right .inl, fun h => herror.2 (h.imp_right fun h =>
        h.resolve_right hmany)⟩
  · rw [if_neg hlow, if_neg hlow]
    refine ⟨rfl, ?_, fun h => hsuspend (h.resolve_right (Nat.not_lt_zero _))⟩
    exact ⟨fun h => (herror.1 h).imp_right .inl, fun h => herror.2 (h.imp_right fun h =>
      h.resolve_right (Nat.not_lt_zero _))⟩

end Motor

namespace Machine

variable {z : Zlib} {m m' : Machine z} {v : UInt8} {time : Nat} {selfTests : Prop}
  {samples : List Bool}

/-- The motor. -/
abbrev motor (m : Machine z) : Motor := m.station.job.motor

/-- What an action adds to the steps over no paper: a step of the motor says whether it is one. -/
def sampled (m : Machine z) : Station.Action → List Bool
  | .timer4 ContinueMode FixedStepsMode _ adc =>
    if m.motor.Ticks then [m.motor.noPaper ContinueMode FixedStepsMode adc] else []
  | _ => []

/-- The machine after a tick of timer 4. -/
def tick (ContinueMode FixedStepsMode : ModeFunction) (CoverState : Bool) (adc : Nat)
    (m : Machine z) : Machine z :=
  m.goes (m.station.next (.timer4 ContinueMode FixedStepsMode CoverState adc))

/-- A run from power on, with what each step of the motor said. -/
inductive Sampled (z : Zlib) (selfTests : Prop) (v : UInt8) (time : Nat) :
    Machine z → List Bool → Prop
  | init : Sampled z selfTests v time (init z v time) []
  | firmware (m : Machine z) (samples : List Bool) (σ : Firmware z) :
      Sampled z selfTests v time m samples → Firmware.Step selfTests m.firmware σ →
      σ.job = m.firmware.job → Sampled z selfTests v time { m with firmware := σ } samples
  | station (m : Machine z) (samples : List Bool) (a : Station.Action) :
      Sampled z selfTests v time m samples → m.station.Can a →
      Sampled z selfTests v time (m.goes (m.station.next a)) (samples ++ m.sampled a)

/-- Every run says something. -/
theorem exists_sampled (hrun : ReflTransGen (Step selfTests) (init z v time) m) :
    ∃ samples, Sampled z selfTests v time m samples := by
  induction hrun with
  | refl => exact ⟨[], .init⟩
  | tail _ hstep ih =>
    obtain ⟨samples, h⟩ := ih
    cases hstep with
    | firmware σ hσ hjob => exact ⟨samples, .firmware _ samples σ h hσ hjob⟩
    | station a hcan => exact ⟨samples ++ _, .station _ samples a h hcan⟩

/-- The steps without paper since the last that saw some. -/
def unseen (samples : List Bool) : Nat := (samples.rtakeWhile id).length

/-- The print task leaves the count. -/
theorem Print_count (CoverState : Bool) (adc : Nat) (s : Station) :
    (s.Print CoverState adc).job.motor.ADCPaperEdgeCount = s.job.motor.ADCPaperEdgeCount := by
  have hstart (CurrentSMP : StepMP) (place : PrintPlace) (s : Job) :
      (s.StepMotorStart CurrentSMP place).motor.ADCPaperEdgeCount = s.motor.ADCPaperEdgeCount := by
    unfold Job.StepMotorStart Motor.StepMotorStart
    dsimp only
    split <;> rfl
  have hprint (s : Job) : s.Print.motor.ADCPaperEdgeCount = s.motor.ADCPaperEdgeCount := by
    unfold Job.Print
    cases s.place with
    | call =>
      dsimp only
      split
      · rfl
      · split
        · split
          · exact hstart ..
          · exact hstart ..
        · rfl
    | backward | forward =>
      dsimp only
      split
      · rfl
      · exact hstart ..
    | printing =>
      dsimp only
      split
      · rfl
      · split
        · rfl
        · split <;> rfl
    | redundant | waiting | delay => rfl
    | stopped =>
      dsimp only
      split <;> rfl
    | test =>
      dsimp only
      split
      · rfl
      · exact hstart ..
    | cutting =>
      dsimp only
      split <;> rfl
  unfold Station.Print
  cases s.place with
  | cover =>
    dsimp only
    split
    · rfl
    · split <;> rfl
  | opened | closing | noPaper | error =>
    dsimp only
    split <;> rfl
  | edge | findGap | sizing | ready => rfl
  | print => exact hprint s.job

theorem unseen_concat (low : Bool) :
    unseen (samples ++ [low]) = if low then unseen samples + 1 else 0 := by
  cases low with
  | false => rw [unseen, List.rtakeWhile_concat_neg _ _ _ (by simp)]; rfl
  | true => rw [unseen, List.rtakeWhile_concat_pos _ _ _ (by simp), List.length_append]; rfl

/-- What an action of the print task or its timers counts. -/
theorem counts_step (h : m.motor.ADCPaperEdgeCount = unseen samples) (a : Station.Action) :
    (m.station.next a).job.motor.ADCPaperEdgeCount = unseen (samples ++ m.sampled a) := by
  have hquiet (hcount : (m.station.next a).job.motor.ADCPaperEdgeCount = m.motor.ADCPaperEdgeCount)
      (hsampled : m.sampled a = []) :
      (m.station.next a).job.motor.ADCPaperEdgeCount = unseen (samples ++ m.sampled a) := by
    rw [hsampled, List.append_nil, hcount, h]
  cases a with
  | Print CoverState adc => exact hquiet (Print_count CoverState adc m.station) rfl
  | startPWM =>
    refine hquiet ?_ rfl
    change (if m.motor.starting then m.motor.StartPWM else m.motor).ADCPaperEdgeCount = _
    split <;> rfl
  | timer1 => exact hquiet rfl rfl
  | timer4 ContinueMode FixedStepsMode CoverState adc =>
    by_cases hticks : m.motor.Ticks
    · change (m.motor.next (.timer4 ContinueMode FixedStepsMode CoverState
        adc)).ADCPaperEdgeCount = _
      rw [Motor.timer4_ticks hticks, (Motor.SensorStatusISR_spec ..).1, Motor.phased_count, h,
        sampled, if_pos hticks, unseen_concat]
      simp [Motor.noPaper]
    · exact hquiet (Motor.timer4_rests hticks) (if_neg hticks)

/-- In every run the count is that of the last steps without paper. -/
theorem counts (h : Sampled z selfTests v time m samples) :
    m.motor.ADCPaperEdgeCount = unseen samples := by
  induction h with
  | init => rfl
  | firmware m samples σ _ _ hjob ih =>
    rw [← ih]
    exact show σ.job.motor.ADCPaperEdgeCount = m.firmware.job.motor.ADCPaperEdgeCount by rw [hjob]
  | station m samples a _ _ ih => exact counts_step ih a

/-- **When a step of the motor records an error.** In every run, after a step of the motor,
`Page.SensorError` is set exactly if it was set before or by the gap sensor, or the cover is open,
or the last steps, this one included, over all runs and more than 200, went forward over no paper.
In the last two cases the run is suspended. -/
theorem paper_out (h : Sampled z selfTests v time m samples) (hticks : m.motor.Ticks)
    (ContinueMode FixedStepsMode : ModeFunction) (CoverState : Bool) (adc : Nat) :
    ((m.tick ContinueMode FixedStepsMode CoverState adc).motor.head.Page.SensorError = true ↔
      (m.motor.phased ContinueMode FixedStepsMode adc).head.Page.SensorError = true ∨
        CoverState = true ∨
        200 < unseen (samples ++ [m.motor.noPaper ContinueMode FixedStepsMode adc])) ∧
    (CoverState = true ∨
        200 < unseen (samples ++ [m.motor.noPaper ContinueMode FixedStepsMode adc]) →
      (m.tick ContinueMode FixedStepsMode CoverState adc).motor.head.SMP.Suspend = true) := by
  have hcount := counts_step (counts h) (.timer4 ContinueMode FixedStepsMode CoverState adc)
  have hnext : (m.station.next (.timer4 ContinueMode FixedStepsMode CoverState adc)).job.motor =
      (m.motor.phased ContinueMode FixedStepsMode adc).SensorStatusISR CoverState adc :=
    Motor.timer4_ticks hticks
  obtain ⟨-, herror, hsuspend⟩ := Motor.SensorStatusISR_spec CoverState adc
    (m.motor.phased ContinueMode FixedStepsMode adc)
  rw [sampled, if_pos hticks] at hcount
  rw [← hnext, hcount] at herror hsuspend
  exact ⟨herror, hsuspend⟩

/-- The machine after some actions of the print task and its timers. -/
def acts (as : List Station.Action) (m : Machine z) : Machine z :=
  as.foldl (fun m a => m.goes (m.station.next a)) m

/-- Rows of the self test are queued, and the print task and its timers act. -/
theorem exists_sampled_acts (z : Zlib) (v : UInt8) (time rows : Nat) (as : List Station.Action)
    (has : Runs.Along (fun (m : Machine z) a => m.station.Can a)
      (fun m a => m.goes (m.station.next a)) (drawRow^[rows] (init z v time)) as) :
    ∃ samples, Sampled z True v time (acts as (drawRow^[rows] (init z v time))) samples :=
  exists_sampled ((rows_run rows _).trans (has.run .station))

/-- A run of the motor goes on. -/
def goesOn : ModeFunction := ⟨id, fun _ => rfl, fun _ => rfl⟩

/-- A run of the motor ends. -/
def finishes : ModeFunction :=
  ⟨fun SMP => { SMP with StepMotorFinished := true }, fun _ => rfl, fun _ => rfl⟩

/-- The paper is moved back, and 200 steps forward go over no paper. -/
def overNoPaper : List Station.Action :=
  List.replicate 7 (.Print false 600) ++
    List.replicate 2 (.timer4 finishes finishes false 600) ++ [.Print false 600] ++
    List.replicate 200 (.timer4 goesOn goesOn false 0)

/-- The 201st step over no paper suspends the run, and so does a step that finds the cover open. -/
theorem paper_out_suspends :
    ∃ (m : Machine Zlib.stored) (samples : List Bool), Sampled Zlib.stored True 2 0 m samples ∧
      unseen samples = 200 ∧ m.motor.Ticks ∧
      (m.tick goesOn goesOn false 0).motor.head.SMP.Suspend = true ∧
      (m.tick goesOn goesOn true 600).motor.head.SMP.Suspend = true := by
  obtain ⟨samples, h⟩ := exists_sampled_acts Zlib.stored 2 0 31 overNoPaper (by decide +kernel)
  have hcount : unseen samples = 200 := (counts h).symm.trans (by decide +kernel)
  have hticks : (acts overNoPaper (drawRow^[31] (init Zlib.stored 2 0))).motor.Ticks := by
    decide +kernel
  have hlow : (acts overNoPaper (drawRow^[31] (init Zlib.stored 2 0))).motor.noPaper goesOn goesOn
      0 = true := by
    decide +kernel
  generalize acts overNoPaper (drawRow^[31] (init Zlib.stored 2 0)) = m at h hticks hlow
  have hmany : 200 < unseen (samples ++ [m.motor.noPaper goesOn goesOn 0]) := by
    rw [hlow, unseen_concat, hcount]
    decide
  exact ⟨m, samples, h, hcount, hticks, (paper_out h hticks goesOn goesOn false 0).2 (.inr hmany),
    (paper_out h hticks goesOn goesOn true 600).2 (.inl rfl)⟩

end Machine

end ThermalPrinter
