import ThermalPrinter.Paper.Cover
import ThermalPrinter.System.Rows

/-!
# The machine with its cover

The firmware leaves open what the cover and the paper's edge do to the print task. Here they do what
`CoverOperation` and `Timer4CallBackMotor` say: the print task takes its turns as a `Station`, on
the queue it shares with the parser, and everyone else goes on as before. The machine refines the
firmware (`refines`), so that what holds in every run of the firmware holds in every run of the
machine.

The cover may be opened and closed at any moment. A motor run never begins between the moment the
print task saw it open and the moment the label's measurements are forgotten (`cover_forgets`), and
the label sizes that the source means to find then are never set (`sizes_unset`).
-/

namespace ThermalPrinter

open Relation

/-- The firmware, with the print task at its place. -/
structure Machine (z : Zlib) where
  firmware : Firmware z
  place : StationPlace
  CoverCloseOperation : Bool
  PrinterReady : Bool

namespace Machine

variable {z : Zlib} {m m' : Machine z} {v : UInt8} {time : Nat} {selfTests : Prop}

/-- The print task, as its next turn finds it. -/
def station (m : Machine z) : Station where
  job := m.firmware.current
  place := m.place
  CoverCloseOperation := m.CoverCloseOperation
  PrinterReady := m.PrinterReady

/-- The machine after a turn of the print task or a tick of its timers. -/
def goes (m : Machine z) (s : Station) : Machine z where
  firmware :=
    { m.firmware.setPrinter { m.firmware.printer with PrintBLink := s.job.queue } with
      job := s.job }
  place := s.place
  CoverCloseOperation := s.CoverCloseOperation
  PrinterReady := s.PrinterReady

/-- One action: of the print task or its timers, or of the firmware on anything but the job. -/
inductive Step (selfTests : Prop) : Machine z → Machine z → Prop
  | firmware (m : Machine z) (σ : Firmware z) :
      Firmware.Step selfTests m.firmware σ → σ.job = m.firmware.job →
      Step selfTests m { m with firmware := σ }
  | station (m : Machine z) (a : Station.Action) :
      m.station.Can a → Step selfTests m (m.goes (m.station.next a))

/-- The state at power on. -/
def init (z : Zlib) (HeadStbLowValid : UInt8) (time : Nat) : Machine z where
  firmware := { Firmware.init z HeadStbLowValid time with job := Station.init.job }
  place := Station.init.place
  CoverCloseOperation := Station.init.CoverCloseOperation
  PrinterReady := Station.init.PrinterReady

/-! ## The machine refines the firmware -/

/-- A change of the job that latches nothing and takes no row. -/
theorem others_run {σ : Firmware z} {job : Job} (hl : job.head.latched = σ.latched)
    (hq : job.queue = σ.queue) : Firmware.Step selfTests σ
      { σ.setPrinter { σ.printer with PrintBLink := job.queue } with job := job } := by
  rw [hq]
  exact .others σ job hl

/-- A turn of the print task is one action of the firmware or two. -/
theorem refines_station (a : Station.Action) :
    ReflTransGen (Firmware.Step selfTests) m.firmware (m.goes (m.station.next a)).firmware := by
  cases a with
  | Print CoverState adc =>
    rcases m.station.Print_job CoverState adc with hjob | ⟨hl, hq⟩
    · have hstep : Firmware.Step selfTests m.firmware _ := .onJob m.firmware .Print trivial
      refine .single ?_
      change Firmware.Step selfTests m.firmware { m.firmware.setPrinter { m.firmware.printer with
        PrintBLink := (m.station.Print CoverState adc).job.queue } with
          job := (m.station.Print CoverState adc).job }
      rw [hjob]
      exact hstep
    · exact .single (others_run hl hq)
  | startPWM => exact .single (.onJob m.firmware .startPWM trivial)
  | timer1 => exact .single (.onJob m.firmware .timer1 trivial)
  | timer4 ContinueMode FixedStepsMode CoverState adc =>
    have hclosed : Firmware.Step selfTests m.firmware _ :=
      .onJob m.firmware (.timer4 ContinueMode FixedStepsMode adc) trivial
    cases CoverState with
    | false => exact .single hclosed
    | true =>
      obtain ⟨hl, hq⟩ := Station.timer4_cover (m := m.firmware.current.motor)
        ContinueMode FixedStepsMode adc
      exact .tail (.single hclosed) (others_run hl hq)

/-- **The machine refines the firmware.** -/
theorem refines (hrun : ReflTransGen (Step selfTests) (init z v time) m) :
    ReflTransGen (Firmware.Step selfTests) (Firmware.init z v time) m.firmware := by
  induction hrun with
  | refl => exact .single (.others _ _ rfl)
  | tail _ hstep ih =>
    cases hstep with
    | firmware σ hσ => exact ih.tail hσ
    | station a => exact ih.trans (refines_station a)

/-- The print task takes its turns, with paper in the printer. -/
theorem turns (CoverState : Bool) (n : Nat) (m : Machine z) :
    ReflTransGen (Step selfTests) m
      ((fun m => m.goes (m.station.next (.Print CoverState 600)))^[n] m) := by
  induction n with
  | zero => exact .refl
  | succ n ih =>
    rw [Function.iterate_succ_apply']
    exact ih.tail (.station _ (.Print CoverState 600) trivial)

/-- The first label's run is started. -/
theorem refines_start :
    ∃ m : Machine Zlib.stored, m.place = .print ∧
      ReflTransGen (Firmware.Step False) (Firmware.init Zlib.stored 2 0) m.firmware :=
  ⟨_, by decide +kernel, refines (turns false 6 (init Zlib.stored 2 0))⟩

/-! ## The rounds of the print task -/

/-- What the firmware does beside the job leaves the print task in order. -/
theorem orderly_step (h : m.station.Orderly) (hstep : Step selfTests m m') :
    m'.station.Orderly := by
  cases hstep with
  | firmware σ _ hjob =>
    have hmotor : σ.current.head.SMP = m.firmware.current.head.SMP ∧
        σ.current.head.Gap = m.firmware.current.head.Gap := by
      unfold Firmware.current
      rw [hjob]
      exact ⟨rfl, rfl⟩
    refine h.congr rfl rfl ?_ ?_ (fun hmoves => ?_) ?_ fun _ => ?_
    · exact show σ.job.place = m.firmware.job.place by rw [hjob]
    · exact show σ.job.levelPapType = m.firmware.job.levelPapType by rw [hjob]
    · exact (congrArg StepMP.Status hmotor.1).symm.trans hmoves
    · exact congrArg GAP.LableLengthCP hmotor.2
    · exact congrArg GAP.LabelLength hmotor.2
  | station a hcan =>
    have hnext : (m.station.next a).Orderly := h.step ⟨a, hcan, rfl⟩
    exact hnext.congr rfl rfl rfl rfl id rfl fun _ => rfl

theorem orderly_of_run (hrun : ReflTransGen (Step selfTests) (init z v time) m) :
    m.station.Orderly :=
  Runs.invariant (I := fun m => m.station.Orderly) (fun _ _ hI hstep => orderly_step hI hstep) hrun
    .init

/-- **The sizes are never set.** In every run, whatever the cover and the sensors say: no label
length and no paper type is found, so that a label measures what it has steps, and a printing run
accelerates in 5 steps; and the motor runs only inside `Print`, with the ready bit set. -/
theorem sizes_unset (hrun : ReflTransGen (Step selfTests) (init z v time) m) :
    m.station.Gap.LableLengthCP = 0 ∧ m.station.job.levelPapType = 0 ∧
      m.station.job.SMPCurrent.ACCSteps = 5 ∧
      Head.measured m.station.Gap = u32 (m.station.Gap.StepsCount - m.station.Gap.StepsGapPos) ∧
      (m.station.Moving →
        m.place = .print ∧ m.station.job.place.Moves ∧ m.PrinterReady = true) := by
  have h := orderly_of_run hrun
  refine ⟨h.LableLengthCP, h.levelPapType, ?_, ?_, fun hmoves => ?_⟩
  · rw [Job.SMPCurrent, h.levelPapType]
    rfl
  · exact if_neg fun hsize => hsize.1 h.LableLengthCP
  · obtain ⟨hprint, hjob⟩ := h.stands hmoves
    exact ⟨hprint, hjob, h.ready hprint⟩

/-- A row of the self test is queued. -/
def drawRow (m : Machine z) : Machine z :=
  let row : List UInt8 := List.replicate PrintlineBytes 1
  { m with firmware := m.firmware.setPrinter (m.firmware.printer.WritePrintLinkedListB row) }

/-- Rows of the self test are queued. -/
theorem rows_run (n : Nat) (m : Machine z) : ReflTransGen (Step True) m (drawRow^[n] m) := by
  induction n with
  | zero => exact .refl
  | succ n ih =>
    rw [Function.iterate_succ_apply']
    exact ih.tail (.firmware _ _ (.selfPrint _ _ trivial (.row _ _ rfl)) rfl)

/-- The paper is moved before the first label. -/
theorem sizes_unset_first :
    ∃ m : Machine Zlib.stored, m.station.Moving ∧ m.station.Gap.LableLengthCP = 0 ∧
      m.station.job.levelPapType = 0 ∧ m.station.job.SMPCurrent.ACCSteps = 5 ∧
      Head.measured m.station.Gap = u32 (m.station.Gap.StepsCount - m.station.Gap.StepsGapPos) ∧
      (m.station.Moving →
        m.place = .print ∧ m.station.job.place.Moves ∧ m.PrinterReady = true) :=
  ⟨_, by decide +kernel,
    sizes_unset ((rows_run 31 (init Zlib.stored 2 0)).trans (turns false 7 _))⟩

/-- What the firmware does beside the job leaves the measurements pending. -/
theorem pending_step (h : m.station.Pending) (hstep : Step selfTests m m') :
    m'.station.Pending ∨ m'.station.Forgotten := by
  cases hstep with
  | firmware σ _ hjob =>
    refine .inl (h.congr rfl rfl rfl (fun hmoves => ?_) ?_)
    · exact (congrArg (fun j : Job => j.head.SMP.Status) hjob).symm.trans hmoves
    · exact show σ.job.motor.printing.sensor = m.firmware.job.motor.printing.sensor by rw [hjob]
  | station a hcan =>
    have hnext : (m.station.next a).Pending ∨ (m.station.next a).Forgotten := h.step ⟨a, hcan, rfl⟩
    rcases hnext with hpending | hforgotten
    · exact .inl (hpending.congr rfl rfl rfl id rfl)
    · exact .inr ⟨hforgotten.place, hforgotten.stands, hforgotten.Gap, hforgotten.gapCalculated⟩

/-- **An opened cover forgets the labels.** Wherever the print task saw the cover open, and at power
on: every run from there on into `Print` passes through `FindGapOperation`, which forgets the
measured lengths, with the sensor to be calibrated anew; and up to there the motor stands. -/
theorem cover_forgets (hrun : ReflTransGen (Step selfTests) (init z v time) m)
    (hopen : m.place = .opened ∨ m = init z v time) (hlater : ReflTransGen (Step selfTests) m m')
    (hprint : m'.place = .print) :
    ∃ mid, ReflTransGen (Runs.Guarded (Step selfTests)
        fun m _ => ¬ m.station.Moving ∧ m.place ≠ .print) m mid ∧
      mid.station.Forgotten ∧ ReflTransGen (Step selfTests) mid m' := by
  have hpending : m.station.Pending := by
    rcases hopen with hplace | rfl
    · exact (orderly_of_run hrun).pending hplace
    · exact .init
  obtain ⟨mid, hbefore, hforgotten, hafter⟩ := Runs.leaves (I := fun m => m.station.Pending)
    (fun _ _ hI hstep => pending_step hI hstep) hlater hpending fun h => h.place_ne hprint
  have hguard (u w : Machine z) (h : Runs.Guarded (Step selfTests)
      (fun m _ => m.station.Pending) u w) : Runs.Guarded (Step selfTests)
        (fun m _ => ¬ m.station.Moving ∧ m.place ≠ .print) u w :=
    ⟨h.1, h.2.stands, h.2.place_ne⟩
  exact ⟨mid, ReflTransGen.mono hguard _ _ hbefore, hforgotten, hafter⟩

/-- The cover is opened and closed again, and the print task goes on into `Print`. -/
theorem cover_forgets_once :
    ∃ m m' mid : Machine Zlib.stored, m.place = .opened ∧ m'.place = .print ∧
      ReflTransGen (Runs.Guarded (Step False)
        fun m _ => ¬ m.station.Moving ∧ m.place ≠ .print) m mid ∧
      mid.station.Forgotten ∧ ReflTransGen (Step False) mid m' := by
  obtain ⟨mid, hmid⟩ := cover_forgets (turns true 1 (init Zlib.stored 2 0))
    (.inl (by decide +kernel)) (turns false 8 _) (by decide +kernel)
  exact ⟨_, _, mid, by decide +kernel, by decide +kernel, hmid⟩

end Machine

end ThermalPrinter
