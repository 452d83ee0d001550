import ThermalPrinter.Paper.Edges
import ThermalPrinter.Paper.Job

/-!
# The cover

Each round of the print task begins with `CoverOperation`. While the cover is open it waits; once
the cover was closed again, and at power on, it looks for paper and forgets what the gap sensor
measured (`FindFaperEdgeStart`, `FindGapOperation`). `Print` goes on only while the ready bit is
set, and `CoverOperation` clears it where it sees the cover open.

So the motor stands from where the cover was seen open until the measurements are forgotten
(`Pending.step`). They are forgotten with the motor standing, and so `FindGapOperation` never finds
a label length: `Gap.LableLengthCP` and `levelPapType` stay zero (`Orderly.step`).

The cover and the paper sensor are read where the source reads them, and say anything there.
-/

namespace ThermalPrinter

open Relation

/-- Where the print task stands: at the call of `CoverOperation`, in its loop while the cover is
open, at its wait for the motor, at `FindFaperEdgeStart`, in the loop there, at `FindGapOperation`,
in the delay there, at the wait for the ready bit, in `Print` behind it, or in the loop of
`SensorErrDuringPrintProcess`. -/
inductive StationPlace
  | cover
  | opened
  | closing
  | edge
  | noPaper
  | findGap
  | sizing
  | ready
  | print
  | error
  deriving DecidableEq, Repr

/-- The print task with `CoverOperation`: its static `CoverCloseOperation`, and the ready bit. -/
structure Station where
  job : Job
  place : StationPlace
  CoverCloseOperation : Bool
  PrinterReady : Bool

namespace Station

/-- The label counter and the print head. -/
abbrev head (s : Station) : Head := s.job.head

/-- `Gap`. -/
abbrev Gap (s : Station) : GAP := s.head.Gap

/-- The motor runs. -/
def Moving (s : Station) : Prop := s.head.SMP.Status = .Running

instance (s : Station) : Decidable s.Moving := inferInstanceAs (Decidable (_ = _))

/-- The paper type of a label length. -/
def papType (LabelLength : Nat) : Nat :=
  if LabelLength ≤ 200 then 1 else if LabelLength ≤ 450 ∧ LabelLength ≥ 200 then 2 else 0

/-- `FindGapOperation` up to its delay. -/
def FindGapOperation (job : Job) : Job :=
  let head := job.head.FindGapOperation
  { job with
    motor := { job.motor.setHead head with CountPaper := 0 }
    paperPosition := .PrintPos
    levelPapType := if head.Gap.LabelLength ≠ 0 then papType head.Gap.LabelLength else 0 }

/-- `FindGapOperation` behind its delay. -/
def sized (job : Job) : Job :=
  { job with
    motor := job.motor.setHead { job.head with
      Gap := { job.head.Gap with
        StepsCount := 0
        LableLengthCP := if job.head.Gap.LabelLength ≠ 0 then job.head.Gap.LabelLength else 0 } }
    paperPosition := .CutPos }

/-- `gapCalculated=false`. -/
def recalibrate (job : Job) : Job :=
  { job with motor := { job.motor with
      printing := { job.motor.printing with
        sensor := { job.motor.printing.sensor with gapCalculated := false } } } }

/-- `Print` with `CoverOperation`, from one place to the next. `CoverState` and `adc` are what the
cover and the paper sensor say where they are read. -/
def Print (CoverState : Bool) (adc : Nat) (s : Station) : Station :=
  match s.place with
  | .cover =>
    if CoverState then { s with PrinterReady := false, place := .opened }
    else if s.CoverCloseOperation then { s with CoverCloseOperation := false, place := .closing }
    else { s with PrinterReady := true, place := .ready }
  | .opened =>
    if CoverState then s
    else { s with job := recalibrate s.job, CoverCloseOperation := true, place := .ready }
  | .closing => if s.Moving then s else { s with place := .edge }
  | .edge => { s with place := if adc > 500 then .findGap else .noPaper }
  | .noPaper => if CoverState then s else { s with place := .findGap }
  | .findGap => { s with job := FindGapOperation s.job, place := .sizing }
  | .sizing => { s with job := sized s.job, PrinterReady := true, place := .ready }
  | .ready => { s with place := if s.PrinterReady then .print else .cover }
  | .print =>
    let job := s.job.Print
    { s with
      job := job
      place :=
        if job.place = .call then
          if s.job.place = .printing ∧ s.head.Page.SensorError then .error else .cover
        else .print }
  | .error => if CoverState then s else { s with place := .cover }

/-- What happens: the print task goes on, the call of `StartPWM` in a start of the motor, and the
ticks of the timers, with what the cover and the sensors say. -/
inductive Action
  | Print (CoverState : Bool) (adc : Nat)
  | startPWM
  | timer1
  | timer4 (ContinueMode FixedStepsMode : ModeFunction) (CoverState : Bool) (adc : Nat)

/-- The state after an action. -/
def next (s : Station) : Action → Station
  | .Print CoverState adc => s.Print CoverState adc
  | .startPWM => { s with job := s.job.next .startPWM }
  | .timer1 => { s with job := s.job.next .timer1 }
  | .timer4 ContinueMode FixedStepsMode CoverState adc =>
    { s with job := { s.job with
        motor := s.job.motor.next (.timer4 ContinueMode FixedStepsMode CoverState adc) } }

/-- Timer 4 ticks while the motor runs. -/
def Can (s : Station) : Action → Prop
  | .timer4 .. => s.Moving
  | _ => True

instance (s : Station) : (a : Action) → Decidable (s.Can a)
  | .timer4 .. => inferInstanceAs (Decidable s.Moving)
  | .Print .. | .startPWM | .timer1 => .isTrue trivial

/-- One action. -/
def Step (s t : Station) : Prop := ∃ a, s.Can a ∧ t = s.next a

/-- The state at power on. -/
def init : Station where
  job := { Job.init [] with paperPosition := .PrintPos }
  place := .cover
  CoverCloseOperation := true
  PrinterReady := false

end Station

/-! ## What the motor's interrupt leaves alone -/

namespace Head

variable {h : Head}

/-- A sample of the gap sensor does not set the label length that was found. -/
theorem gapStep_LableLengthCP (below : Bool) :
    (h.gapStep below).Gap.LableLengthCP = h.Gap.LableLengthCP := by
  have hlast {x : UInt8 × Bool × Nat × Nat × Nat} (hx : (h.gapStep below).edgeFields = x) :
      (h.gapStep below).Gap.LableLengthCP = x.2.2.2.2 :=
    congrArg (fun fields => fields.2.2.2.2) hx
  by_cases hcomes : h.Comes below
  · exact hlast (gapStep_comes hcomes).1
  · by_cases hleaves : h.Leaves below
    · exact hlast (gapStep_leaves hleaves)
    · exact hlast (gapStep_otherwise hcomes hleaves)

end Head

/-- A tick of timer 4 does not set the label length that was found. -/
theorem Motor.timer4_LableLengthCP {m : Motor} (ContinueMode FixedStepsMode : ModeFunction)
    (CoverState : Bool) (adc : Nat) :
    (m.next (.timer4 ContinueMode FixedStepsMode CoverState adc)).head.Gap.LableLengthCP =
      m.head.Gap.LableLengthCP := by
  have hdata (h : Head) : (h.PrinterDataIn blank).Gap = h.Gap := Head.PrinterDataIn_Gap blank
  have hline : m.head.PageDataCalculation.Gap.LableLengthCP = m.head.Gap.LableLengthCP := by
    obtain ⟨_, _, _, _, _, heq⟩ := Head.stepped_PageDataCalculation (h := m.head)
    rw [heq]
  have hphase (n : Motor) :
      (n.PhaseSwitching ContinueMode FixedStepsMode adc).head.Gap.LableLengthCP =
        n.head.Gap.LableLengthCP := by
    unfold PhaseSwitching
    generalize (if n.head.SMP.Mode = .ModeContinue then ContinueMode else FixedStepsMode) = mode
    dsimp only
    split
    · exact Head.gapStep_LableLengthCP _
    · rfl
  have hsensor (n : Motor) : (n.SensorStatusISR CoverState adc).head.Gap = n.head.Gap := by
    have hcover :
        (if CoverState then n.setHead n.head.sensorError else n).head.Gap = n.head.Gap := by
      split <;> rfl
    unfold SensorStatusISR
    generalize (if CoverState then n.setHead n.head.sensorError else n) = n' at hcover
    dsimp only
    split
    · split
      · exact hcover
      · exact hcover
    · exact hcover
  have hedge : (m.FindFaperEdgeISR adc).head.Gap = m.head.Gap := by
    unfold FindFaperEdgeISR
    generalize (if adc > 500 then m.CountPaper <<< 1 ||| 1 else m.CountPaper >>> 1) = CountPaper
    dsimp only
    split <;> rfl
  unfold next
  dsimp only
  split
  · rfl
  · unfold Timer4CallBackMotor
    dsimp only
    split
    · exact congrArg GAP.LableLengthCP (hdata m.head)
    · rw [hsensor, hphase]
      split
      · rw [hedge]
      · split
        · exact hline
        · rfl

namespace Job

variable {s : Job}

theorem StepMotorStart_LableLengthCP (CurrentSMP : StepMP) (place : PrintPlace) :
    (s.StepMotorStart CurrentSMP place).head.Gap.LableLengthCP = s.head.Gap.LableLengthCP := by
  unfold StepMotorStart Motor.StepMotorStart
  dsimp only
  split
  · rfl
  · unfold Head.StepMotorStart
    dsimp only [Motor.setHead]
    split <;> rfl

/-- `Print` does not look for a label length, nor for a paper type. -/
theorem Print_sizes : s.Print.head.Gap.LableLengthCP = s.head.Gap.LableLengthCP ∧
    s.Print.levelPapType = s.levelPapType := by
  have hdiscard : (s.head.RedundantDataProcessing true []).Gap.LableLengthCP =
      s.head.Gap.LableLengthCP := by
    obtain ⟨_, _, _, _, _, heq⟩ := Head.stepped_RedundantDataProcessing (h := s.head) true []
    rw [heq]
  unfold Print
  dsimp only
  split
  all_goals (repeat' split)
  all_goals first
    | exact ⟨rfl, rfl⟩
    | exact ⟨StepMotorStart_LableLengthCP _ _, rfl⟩
    | exact ⟨hdiscard, rfl⟩

/-- `Print` leaves the motor standing, or stands at the end of a run that it has started. -/
theorem Print_stopped (h : ¬ s.place.Moves → s.head.SMP.Status = .Stopped) :
    ¬ s.Print.place.Moves → s.Print.head.SMP.Status = .Stopped := by
  rcases eq_or_ne s.place .printing with hprinting | hne
  · unfold Print
    rw [hprinting]
    dsimp only
    split
    · exact fun hstand => h hstand
    · next hrun =>
      have hstop := stopped_of_ne hrun
      split
      · exact fun _ => hstop
      · split <;> exact fun _ => hstop
  · exact (Poised.Print ⟨h, fun hprinting => absurd hprinting hne⟩).stopped

end Job

/-! ## The rounds of the print task -/

namespace Station

variable {s t : Station} {a : Action}

/-- The motor runs only where `Print` waits for the end of its run, behind the ready bit; no label
length was found, and none is known where `FindGapOperation` looks for it. -/
structure Orderly (s : Station) : Prop where
  stands : s.Moving → s.place = .print ∧ s.job.place.Moves
  call : s.place ≠ .print → s.job.place = .call
  ready : s.place = .print → s.PrinterReady = true
  opened : s.place = .opened → s.PrinterReady = false
  LableLengthCP : s.Gap.LableLengthCP = 0
  levelPapType : s.job.levelPapType = 0
  LabelLength : s.place = .sizing → s.Gap.LabelLength = 0

theorem Orderly.init : Station.init.Orderly where
  stands := nofun
  call _ := rfl
  ready := nofun
  opened := nofun
  LableLengthCP := rfl
  levelPapType := rfl
  LabelLength := nofun

/-- What changes neither the place nor the fields that it speaks of. -/
theorem Orderly.congr (h : s.Orderly) (hplace : t.place = s.place)
    (hready : t.PrinterReady = s.PrinterReady) (hjob : t.job.place = s.job.place)
    (hlevel : t.job.levelPapType = s.job.levelPapType) (hruns : t.Moving → s.Moving)
    (hCP : t.Gap.LableLengthCP = s.Gap.LableLengthCP)
    (hlength : t.place = .sizing → t.Gap.LabelLength = s.Gap.LabelLength) : t.Orderly where
  stands hrun := by
    rw [hplace, hjob]
    exact h.stands (hruns hrun)
  call hne := hjob.trans (h.call (hplace ▸ hne))
  ready hprint := hready.trans (h.ready (hplace ▸ hprint))
  opened hopen := hready.trans (h.opened (hplace ▸ hopen))
  LableLengthCP := hCP.trans h.LableLengthCP
  levelPapType := hlevel.trans h.levelPapType
  LabelLength hsizing := (hlength hsizing).trans (h.LabelLength (hplace ▸ hsizing))

/-- The print task goes on to a place outside `Print`, and leaves the job alone. -/
theorem Orderly.goes (h : s.Orderly) (hne : s.place ≠ .print) {place : StationPlace}
    (hsizing : place ≠ .sizing) {CoverCloseOperation PrinterReady : Bool}
    (hready : place = .print → PrinterReady = true)
    (hopened : place = .opened → PrinterReady = false) :
    Orderly { s with
      CoverCloseOperation := CoverCloseOperation
      PrinterReady := PrinterReady
      place := place } where
  stands hrun := absurd (h.stands hrun).1 hne
  call _ := h.call hne
  ready := hready
  opened := hopened
  LableLengthCP := h.LableLengthCP
  levelPapType := h.levelPapType
  LabelLength hs := absurd hs hsizing

/-- A round of the print task keeps the order. -/
theorem Orderly.Print (h : s.Orderly) (CoverState : Bool) (adc : Nat) :
    (s.Print CoverState adc).Orderly := by
  have hstands (hne : s.place ≠ .print) : ¬ s.Moving := fun hrun => hne (h.stands hrun).1
  unfold Station.Print
  split
  · next hplace =>
    have hne : s.place ≠ .print := by rw [hplace]; nofun
    split
    · exact h.goes hne (by nofun) (by nofun) fun _ => rfl
    · split
      · exact h.goes hne (by nofun) (by nofun) (by nofun)
      · exact h.goes hne (by nofun) (by nofun) (by nofun)
  · next hplace =>
    split
    · exact h
    · have hjob : Orderly { s with job := recalibrate s.job } :=
        h.congr rfl rfl rfl rfl id rfl fun _ => rfl
      exact hjob.goes (by rw [hplace]; nofun) (by nofun) (by nofun) (by nofun)
  · next hplace =>
    split
    · exact h
    · exact h.goes (by rw [hplace]; nofun) (by nofun) (by nofun) (by nofun)
  · next hplace =>
    have hne : s.place ≠ .print := by rw [hplace]; nofun
    split
    · exact h.goes hne (by nofun) (by nofun) (by nofun)
    · exact h.goes hne (by nofun) (by nofun) (by nofun)
  · next hplace =>
    split
    · exact h
    · exact h.goes (by rw [hplace]; nofun) (by nofun) (by nofun) (by nofun)
  · next hplace =>
    have hne : s.place ≠ .print := by rw [hplace]; nofun
    exact ⟨fun hrun => absurd hrun (hstands hne), fun _ => h.call hne, nofun, nofun, rfl,
      rfl, fun _ => rfl⟩
  · next hplace =>
    have hne : s.place ≠ .print := by rw [hplace]; nofun
    refine ⟨fun hrun => absurd hrun (hstands hne), fun _ => h.call hne, nofun, nofun, ?_,
      h.levelPapType, nofun⟩
    exact if_neg (not_not.2 (h.LabelLength hplace))
  · next hplace =>
    have hne : s.place ≠ .print := by rw [hplace]; nofun
    split
    · next hready => exact h.goes hne (by nofun) (fun _ => hready) nofun
    · exact h.goes hne (by nofun) (by nofun) (by nofun)
  · next hplace =>
    have hstop := Job.Print_stopped (s := s.job) fun hstand =>
      Job.stopped_of_ne fun hrun => hstand (h.stands hrun).2
    obtain ⟨hCP, hlevel⟩ := Job.Print_sizes (s := s.job)
    refine ⟨fun hrun => ?_, fun hne => ?_, fun _ => h.ready hplace, fun hopen => ?_,
      hCP.trans h.LableLengthCP, hlevel.trans h.levelPapType, fun hsizing => ?_⟩
    · have hmoves : s.job.Print.place.Moves := by
        by_contra hstand
        exact absurd ((hstop hstand).symm.trans hrun) nofun
      have hcall : s.job.Print.place ≠ .call := fun hcall => by rw [hcall] at hmoves; exact hmoves
      exact ⟨if_neg hcall, hmoves⟩
    · by_contra hcall
      exact hne (if_neg hcall)
    · dsimp only at hopen
      split at hopen
      · split at hopen <;> cases hopen
      · cases hopen
    · dsimp only at hsizing
      split at hsizing
      · split at hsizing <;> cases hsizing
      · cases hsizing
  · next hplace =>
    split
    · exact h
    · exact h.goes (by rw [hplace]; nofun) (by nofun) (by nofun) (by nofun)

/-- Every action keeps the order. -/
theorem Orderly.step (h : s.Orderly) (hstep : Step s t) : t.Orderly := by
  obtain ⟨a, hcan, rfl⟩ := hstep
  cases a with
  | Print CoverState adc => exact h.Print CoverState adc
  | startPWM =>
    have hhead : (s.job.next .startPWM).head = s.head := Job.startPWM_head
    exact h.congr rfl rfl rfl rfl
      (fun hrun => (congrArg (fun h : Head => h.SMP.Status) hhead).symm.trans hrun)
      (congrArg (fun h : Head => h.Gap.LableLengthCP) hhead)
      fun _ => congrArg (fun h : Head => h.Gap.LabelLength) hhead
  | timer1 => exact h.congr rfl rfl rfl rfl id rfl fun _ => rfl
  | timer4 ContinueMode FixedStepsMode CoverState adc =>
    refine h.congr rfl rfl rfl rfl (fun _ => hcan) (Motor.timer4_LableLengthCP _ _ _ _) ?_
    intro hsizing
    exact absurd ((h.stands hcan).1.symm.trans hsizing) nofun

/-! ## After the cover was opened -/

/-- `FindGapOperation` has forgotten the measurements of the gap sensor, the sensor is calibrated
anew, and the motor stands. -/
structure Forgotten (s : Station) : Prop where
  place : s.place = .sizing
  stands : ¬ s.Moving
  Gap : s.Gap = Head.init.Gap
  gapCalculated : s.job.motor.printing.sensor.gapCalculated = false

/-- The cover is open, or was closed again, and the measurements are still to be forgotten. -/
structure Pending (s : Station) : Prop where
  ready : s.PrinterReady = false
  stands : ¬ s.Moving
  gapCalculated : s.place ≠ .opened → s.job.motor.printing.sensor.gapCalculated = false
  place : s.place = .opened ∨ (s.place = .cover ∨ s.place = .ready) ∧ s.CoverCloseOperation = true ∨
    s.place = .closing ∨ s.place = .edge ∨ s.place = .noPaper ∨ s.place = .findGap

/-- At power on the measurements are still to be forgotten. -/
theorem Pending.init : Station.init.Pending :=
  ⟨rfl, nofun, fun _ => rfl, .inr (.inl ⟨.inl rfl, rfl⟩)⟩

/-- A round of the print task leaves the measurements pending, or forgets them. -/
theorem Pending.Print (h : s.Pending) (CoverState : Bool) (adc : Nat) :
    (s.Print CoverState adc).Pending ∨ (s.Print CoverState adc).Forgotten := by
  have hcalibrate (hne : s.place ≠ .opened) := h.gapCalculated hne
  unfold Station.Print
  rcases h.place with hplace | ⟨hplace | hplace, hclose⟩ | hplace | hplace | hplace | hplace
  · simp only [hplace]
    split
    · exact .inl h
    · exact .inl ⟨h.ready, h.stands, fun _ => rfl, .inr (.inl ⟨.inr rfl, rfl⟩)⟩
  · have hsensor := hcalibrate (by rw [hplace]; nofun)
    simp only [hplace, hclose, if_true]
    split
    · exact .inl ⟨rfl, h.stands, fun _ => hsensor, .inl rfl⟩
    · exact .inl ⟨h.ready, h.stands, fun _ => hsensor, .inr (.inr (.inl rfl))⟩
  · have hsensor := hcalibrate (by rw [hplace]; nofun)
    simp only [hplace, h.ready]
    exact .inl ⟨rfl, h.stands, fun _ => hsensor, .inr (.inl ⟨.inl rfl, hclose⟩)⟩
  · have hsensor := hcalibrate (by rw [hplace]; nofun)
    simp only [hplace, if_neg h.stands]
    exact .inl ⟨h.ready, h.stands, fun _ => hsensor, .inr (.inr (.inr (.inl rfl)))⟩
  · have hsensor := hcalibrate (by rw [hplace]; nofun)
    simp only [hplace]
    refine .inl ⟨h.ready, h.stands, fun _ => hsensor, ?_⟩
    dsimp only
    split
    · exact .inr (.inr (.inr (.inr (.inr rfl))))
    · exact .inr (.inr (.inr (.inr (.inl rfl))))
  · have hsensor := hcalibrate (by rw [hplace]; nofun)
    simp only [hplace]
    split
    · exact .inl h
    · exact .inl ⟨h.ready, h.stands, fun _ => hsensor, .inr (.inr (.inr (.inr (.inr rfl))))⟩
  · have hsensor := hcalibrate (by rw [hplace]; nofun)
    simp only [hplace]
    exact .inr ⟨rfl, h.stands, rfl, hsensor⟩

/-- Every action leaves the measurements pending, or forgets them. -/
theorem Pending.step (h : s.Pending) (hstep : Step s t) : t.Pending ∨ t.Forgotten := by
  obtain ⟨a, hcan, rfl⟩ := hstep
  cases a with
  | Print CoverState adc => exact h.Print CoverState adc
  | startPWM =>
    have hmotor : (s.job.next .startPWM).motor.printing = s.job.motor.printing := by
      unfold Job.next Motor.next
      dsimp only
      split <;> rfl
    refine .inl ⟨h.ready, fun hmoves => h.stands ?_, fun hne => ?_, h.place⟩
    · exact (congrArg (fun p : Printing => p.head.SMP.Status) hmotor).symm.trans hmoves
    · exact (congrArg (fun p : Printing => p.sensor.gapCalculated) hmotor).trans
        (h.gapCalculated hne)
  | timer1 => exact .inl ⟨h.ready, h.stands, h.gapCalculated, h.place⟩
  | timer4 => exact absurd hcan h.stands

/-- What changes neither the place nor the flags, nor starts the motor. -/
theorem Pending.congr (h : s.Pending) (hplace : t.place = s.place)
    (hready : t.PrinterReady = s.PrinterReady)
    (hclose : t.CoverCloseOperation = s.CoverCloseOperation) (hmoves : t.Moving → s.Moving)
    (hsensor : t.job.motor.printing.sensor = s.job.motor.printing.sensor) : t.Pending where
  ready := hready.trans h.ready
  stands hmove := h.stands (hmoves hmove)
  gapCalculated hne := by
    rw [hsensor]
    exact h.gapCalculated (hplace ▸ hne)
  place := by
    rw [hplace, hclose]
    exact h.place

/-- Where the measurements are pending, the task is not in `Print`. -/
theorem Pending.place_ne (h : s.Pending) : s.place ≠ .print := by
  intro hprint
  have hplace := h.place
  rw [hprint] at hplace
  simp at hplace

/-- Where the cover was seen open the measurements are pending. -/
theorem Orderly.pending (h : s.Orderly) (hopen : s.place = .opened) : s.Pending :=
  have hstands : ¬ s.Moving := fun hmoves => absurd ((h.stands hmoves).1.symm.trans hopen) nofun
  ⟨h.opened hopen, hstands, fun hne => absurd hopen hne, .inl hopen⟩

/-- Outside the job's own `Print` nothing is latched, and no row leaves the queue. -/
theorem Print_job (CoverState : Bool) (adc : Nat) :
    (s.Print CoverState adc).job = s.job.Print ∨
      (s.Print CoverState adc).head.latched = s.head.latched ∧
        (s.Print CoverState adc).job.queue = s.job.queue := by
  unfold Station.Print
  split
  all_goals (repeat' split)
  all_goals first
    | exact .inr ⟨rfl, rfl⟩
    | exact .inl rfl

/-- Whether the cover is open makes no difference to what a tick of timer 4 latches, nor to what it
takes from the queue. -/
theorem timer4_cover {m : Motor} (ContinueMode FixedStepsMode : ModeFunction) (adc : Nat) :
    (m.next (.timer4 ContinueMode FixedStepsMode true adc)).head.latched =
        (m.next (.timer4 ContinueMode FixedStepsMode false adc)).head.latched ∧
      (m.next (.timer4 ContinueMode FixedStepsMode true adc)).head.PrintBLink =
        (m.next (.timer4 ContinueMode FixedStepsMode false adc)).head.PrintBLink := by
  have hsensor (n : Motor) (CoverState : Bool) :
      (n.SensorStatusISR CoverState adc).head.latched = n.head.latched ∧
        (n.SensorStatusISR CoverState adc).head.PrintBLink = n.head.PrintBLink := by
    obtain ⟨_, _, _, heq⟩ := Motor.relabelled_SensorStatusISR (m := n) CoverState adc
    rw [heq]
    exact ⟨rfl, rfl⟩
  unfold Motor.next Motor.Timer4CallBackMotor
  dsimp only
  split
  · exact ⟨rfl, rfl⟩
  · split
    · exact ⟨rfl, rfl⟩
    · exact ⟨(hsensor _ true).1.trans (hsensor _ false).1.symm,
        (hsensor _ true).2.trans (hsensor _ false).2.symm⟩

end Station

end ThermalPrinter
