import ThermalPrinter.Paper.Motor
import Mathlib.Logic.Function.Iterate

/-!
# The duty of the strobe

The strobe heats the dots of the latched line while its output channel is connected. Timer 1 keeps
the phase of the strobe in `STBState` and `PWMCount`, and connects the channel for 10 ticks and
disconnects it for `heatTime` ticks. But `StartPWM` connects the channel without setting `STBState`,
and a run that only positions the paper leaves the channel as it is. A run of the motor is watched
with the periods in which the channel was connected or not (`Watch`). The duty is kept as long as
every `StartPWM` finds the phase as timer 1 just began it and the paper is positioned only while
the channel is disconnected, and it is broken by ticks of timer 1 alone after any other action
(`duty_kept_iff`).
-/

namespace ThermalPrinter

open Relation

/-- A period in which the channel was connected, or was not, and the ticks of timer 1 in it. -/
structure Period where
  connected : Bool
  ticks : Nat
  deriving DecidableEq, Repr

/-- The motor, with the periods that are over, the latest first, and the ticks of the present
one. -/
structure Watch where
  motor : Motor
  past : List Period
  ticks : Nat

namespace Watch

/-- The record of the head's motor. -/
abbrev SMP (w : Watch) : StepMP := w.motor.head.SMP

/-- The strobe. -/
abbrev strobe (w : Watch) : Strobe := w.motor.strobe

/-- Whether an action is a tick of timer 1. -/
def tick : Motor.Action → Nat
  | .timer1 => 1
  | _ => 0

/-- The watch goes on with the motor: a period ends where the channel changes. -/
def observe (w : Watch) (m : Motor) (n : Nat) : Watch :=
  if m.strobe.connected = w.strobe.connected then { w with motor := m, ticks := w.ticks + n }
  else
    { motor := m
      past := { connected := w.strobe.connected, ticks := w.ticks + n } :: w.past
      ticks := 0 }

/-- The watch after an action. -/
def next (w : Watch) (a : Motor.Action) : Watch := w.observe (w.motor.next a) (tick a)

/-- The watch at boot. -/
def init (HeadStbLowValid : UInt8) : Watch where
  motor := Motor.init HeadStbLowValid
  past := []
  ticks := 0

/-- The disconnected periods that are over and came between two connected ones were long enough,
and no connected one was too long. -/
def Paused : List Period → Prop
  | [] => True
  | p :: past =>
    (if p.connected then p.ticks ≤ 10 else past ≠ [] → heatTime ≤ p.ticks) ∧ Paused past

instance Paused.decidable : (past : List Period) → Decidable (Paused past)
  | [] => .isTrue trivial
  | _ :: past =>
    have := Paused.decidable past
    inferInstanceAs (Decidable (_ ∧ _))

/-- The duty limit: the channel stays connected for at most 10 ticks, is disconnected for at least
`heatTime` ticks between two connected periods, and is disconnected while the head does not
print. -/
structure Duty (w : Watch) : Prop where
  heated : w.strobe.connected = true → w.ticks ≤ 10
  past : Paused w.past
  still : w.SMP.HeadPrint = false → w.strobe.connected = false

/-- `StartPWM` does nothing for an unknown head, and changes nothing where timer 1 has just
connected the channel. -/
def InPhase (s : Strobe) : Prop :=
  s.HeadStbLowValid = 0 ∨ s.connected = true ∧ s.STBState = true ∧ s.PWMCount = 0

/-- The actions that leave the duty to timer 1. -/
def Allows (w : Watch) : Motor.Action → Prop
  | .start CurrentSMP =>
    w.SMP.Status = .Stopped → CurrentSMP.HeadPrint = false → w.strobe.connected = false
  | .startPWM => w.motor.starting = true → InPhase w.strobe
  | _ => True

/-- One action. -/
def Step (w w' : Watch) : Prop := ∃ a, w' = w.next a

/-- One allowed action. -/
def AllowedStep (w w' : Watch) : Prop := ∃ a, w.Allows a ∧ w' = w.next a

end Watch

/-! ## What an action does to the strobe -/

/-- A tick of timer 1: it starts the phase anew while the head does not print, and otherwise ends
the connected phase or the disconnected one, or counts in it. -/
theorem Strobe.timer1_cases (s : Strobe) (HeadPrint : Bool) :
    (HeadPrint = false ∧
        s.Timer1CallBackMotor HeadPrint = { s with STBState := false, PWMCount := 0 }) ∨
      (HeadPrint = true ∧ s.STBState = true ∧ 10 ≤ s.PWMCount + 1 ∧
        s.Timer1CallBackMotor HeadPrint =
          { s with STBState := false, PWMCount := 0, connected := false }) ∨
      (HeadPrint = true ∧ s.STBState = true ∧ s.PWMCount + 1 < 10 ∧
        s.Timer1CallBackMotor HeadPrint = { s with PWMCount := s.PWMCount + 1 }) ∨
      (HeadPrint = true ∧ s.STBState = false ∧ heatTime ≤ s.PWMCount + 1 ∧
        s.Timer1CallBackMotor HeadPrint =
          { s with STBState := true, PWMCount := 0, connected := true }) ∨
      (HeadPrint = true ∧ s.STBState = false ∧ s.PWMCount + 1 < heatTime ∧
        s.Timer1CallBackMotor HeadPrint = { s with PWMCount := s.PWMCount + 1 }) := by
  cases HeadPrint with
  | false => exact .inl ⟨rfl, rfl⟩
  | true =>
    refine .inr ?_
    unfold Timer1CallBackMotor
    cases hstb : s.STBState with
    | true =>
      by_cases hend : s.PWMCount + 1 ≥ 10
      · exact .inl ⟨rfl, rfl, hend, by simp only [if_true, if_pos hend]⟩
      · exact .inr (.inl ⟨rfl, rfl, Nat.lt_of_not_le hend, by simp only [if_true, if_neg hend]⟩)
    | false =>
      by_cases hend : s.PWMCount + 1 ≥ heatTime
      · exact .inr (.inr (.inl ⟨rfl, rfl, hend, by
          simp only [if_true, Bool.false_eq_true, if_false, if_pos hend]⟩))
      · exact .inr (.inr (.inr ⟨rfl, rfl, Nat.lt_of_not_le hend, by
          simp only [if_true, Bool.false_eq_true, if_false, if_neg hend]⟩))

namespace Motor

variable {m : Motor}

/-- The strobe is left alone, and so is a call of `StartPWM` that is due. -/
structure SameStrobe (m m' : Motor) : Prop where
  strobe : m'.strobe = m.strobe
  starting : m'.starting = m.starting

theorem SameStrobe.trans {m₁ m₂ m₃ : Motor} (h₁ : SameStrobe m₁ m₂) (h₂ : SameStrobe m₂ m₃) :
    SameStrobe m₁ m₃ :=
  ⟨h₂.strobe.trans h₁.strobe, h₂.starting.trans h₁.starting⟩

theorem sameStrobe_PhaseSwitching (ContinueMode FixedStepsMode : ModeFunction) (adc : Nat) :
    SameStrobe m (m.PhaseSwitching ContinueMode FixedStepsMode adc) := by
  unfold PhaseSwitching
  dsimp only
  generalize (if m.head.SMP.Mode = .ModeContinue then ContinueMode else FixedStepsMode) = mode
  split <;> exact ⟨rfl, rfl⟩

theorem sameStrobe_SensorStatusISR (CoverState : Bool) (adc : Nat) :
    SameStrobe m (m.SensorStatusISR CoverState adc) := by
  have hcover : SameStrobe m (if CoverState then m.setHead m.head.sensorError else m) := by
    split <;> exact ⟨rfl, rfl⟩
  unfold SensorStatusISR
  generalize (if CoverState then m.setHead m.head.sensorError else m) = n at hcover
  dsimp only
  split
  · split
    · exact hcover.trans ⟨rfl, rfl⟩
    · exact hcover.trans ⟨rfl, rfl⟩
  · exact hcover.trans ⟨rfl, rfl⟩

theorem sameStrobe_FindFaperEdgeISR (adc : Nat) : SameStrobe m (m.FindFaperEdgeISR adc) := by
  unfold FindFaperEdgeISR
  generalize (if adc > 500 then m.CountPaper <<< 1 ||| 1 else m.CountPaper >>> 1) = CountPaper
  dsimp only
  split <;> exact ⟨rfl, rfl⟩

/-- A tick of timer 4 stops the motor, or it leaves the strobe alone. -/
theorem timer4_cases (ContinueMode FixedStepsMode : ModeFunction) (CoverState : Bool) (adc : Nat) :
    m.Timer4CallBackMotor ContinueMode FixedStepsMode CoverState adc = m.StopStepMotor ∨
      SameStrobe m (m.Timer4CallBackMotor ContinueMode FixedStepsMode CoverState adc) := by
  unfold Timer4CallBackMotor
  split
  · exact .inl rfl
  · refine .inr ?_
    have hlatch : SameStrobe m
        (if m.head.SMP.FindPaperEdge then m.FindFaperEdgeISR adc
        else if m.head.SMP.HeadPrint then m.setHead m.head.PageDataCalculation
        else m) := by
      split
      · exact sameStrobe_FindFaperEdgeISR adc
      · split <;> exact ⟨rfl, rfl⟩
    exact (hlatch.trans (sameStrobe_PhaseSwitching _ _ _)).trans (sameStrobe_SensorStatusISR _ _)

/-- Timer 4 does not decide whether the head prints. -/
theorem timer4_HeadPrint (ContinueMode FixedStepsMode : ModeFunction) (CoverState : Bool)
    (adc : Nat) :
    (m.Timer4CallBackMotor ContinueMode FixedStepsMode CoverState adc).head.SMP.HeadPrint =
      m.head.SMP.HeadPrint := by
  unfold Timer4CallBackMotor
  split
  · unfold StopStepMotor setHead Head.StopStepMotor
    exact (Head.stepped_PrinterDataIn _).HeadPrint
  · dsimp only
    rw [(unlatched_rest ContinueMode FixedStepsMode CoverState adc).HeadPrint]
    split
    · exact (relabelled_FindFaperEdgeISR adc).unlatched.HeadPrint
    · split
      · exact Head.stepped_PageDataCalculation.HeadPrint
      · rfl

/-- A start puts the parameters of its run in place, unless a run is under way. -/
theorem StepMotorStart_SMP (CurrentSMP : StepMP) (hstop : m.head.SMP.Status = .Stopped) :
    (m.StepMotorStart CurrentSMP).strobe = m.strobe ∧
      (m.StepMotorStart CurrentSMP).head.SMP.HeadPrint = CurrentSMP.HeadPrint ∧
      (m.StepMotorStart CurrentSMP).head.SMP.Status = .Running ∧
      (m.StepMotorStart CurrentSMP).starting = CurrentSMP.HeadPrint := by
  have hrun : ¬ m.head.SMP.Status = .Running := by
    rw [hstop]
    intro h
    cases h
  unfold StepMotorStart
  rw [if_neg hrun]
  unfold setHead Head.StepMotorStart Head.limitACCSteps
  rw [if_neg hrun]
  dsimp only
  split <;> exact ⟨rfl, rfl, rfl, rfl⟩

end Motor

/-! ## The phase -/

namespace Watch

variable {w w' : Watch} {m : Motor} {n : Nat}

theorem observe_same (h : m.strobe.connected = w.strobe.connected) :
    w.observe m n = { w with motor := m, ticks := w.ticks + n } := by
  unfold observe
  rw [if_pos h]

theorem observe_change (h : m.strobe.connected ≠ w.strobe.connected) :
    w.observe m n =
      { motor := m
        past := { connected := w.strobe.connected, ticks := w.ticks + n } :: w.past
        ticks := 0 } := by
  unfold observe
  rw [if_neg h]

/-- The phase of the strobe and the watch agree: while the channel is connected, timer 1 counts the
ticks of its period; while it is not, they are at least as many as timer 1 counts, or the period
began with the end of a run in the connected phase. -/
structure Kept (w : Watch) : Prop where
  past : Paused w.past
  connected : w.strobe.connected = true →
    w.strobe.STBState = true ∧ w.SMP.HeadPrint = true ∧ w.ticks = w.strobe.PWMCount
  waiting : w.strobe.connected = false → w.strobe.STBState = false → w.strobe.PWMCount ≤ w.ticks
  cut : w.strobe.connected = false → w.strobe.STBState = true →
    w.past ≠ [] ∧ w.ticks ≤ w.strobe.PWMCount
  count : w.strobe.STBState = true → w.strobe.PWMCount < 10
  starting : w.motor.starting = true → w.SMP.HeadPrint = true ∧ w.SMP.Status = .Running

/-- A phase that is kept keeps the duty. -/
theorem Kept.duty (hk : w.Kept) : w.Duty := by
  refine ⟨?_, hk.past, ?_⟩
  · intro hc
    obtain ⟨hstb, -, hticks⟩ := hk.connected hc
    have := hk.count hstb
    omega
  · intro hp
    cases hc : w.strobe.connected with
    | false => rfl
    | true =>
      rw [(hk.connected hc).2.1] at hp
      cases hp

/-- In the disconnected phase the channel is disconnected. -/
theorem Kept.not_connected (hk : w.Kept) (hstb : w.strobe.STBState = false) :
    w.strobe.connected = false := by
  cases hc : w.strobe.connected with
  | false => rfl
  | true =>
    rw [(hk.connected hc).1] at hstb
    cases hstb

theorem init_kept (HeadStbLowValid : UInt8) : (init HeadStbLowValid).Kept where
  past := trivial
  connected := fun h => by cases h
  waiting := fun _ _ => Nat.zero_le _
  cut := fun _ h => by cases h
  count := fun h => by cases h
  starting := fun h => by cases h

/-- What leaves the strobe alone, and lets the head print if the channel is connected, keeps the
phase. -/
theorem Kept.of_strobe_eq (hk : w.Kept) (hs : m.strobe = w.strobe)
    (hp : w.strobe.connected = true → m.head.SMP.HeadPrint = true)
    (hst : m.starting = true → m.head.SMP.HeadPrint = true ∧ m.head.SMP.Status = .Running) :
    (w.observe m 0).Kept := by
  rw [observe_same (by rw [hs])]
  refine ⟨hk.past, fun hc => ?_, fun hc hstb => ?_, fun hc hstb => ?_, fun hstb => ?_, hst⟩
  all_goals simp only [strobe, hs] at *
  · exact ⟨(hk.connected hc).1, hp hc, (hk.connected hc).2.2⟩
  · exact hk.waiting hc hstb
  · exact hk.cut hc hstb
  · exact hk.count hstb

/-- The end of a run keeps the phase. -/
theorem Kept.of_stop (hk : w.Kept) (hs : m.strobe = w.strobe.StopStepMotor)
    (hst : m.starting = true → m.head.SMP.HeadPrint = true ∧ m.head.SMP.Status = .Running) :
    (w.observe m 0).Kept := by
  have hoff : m.strobe.connected = false := by rw [hs]; rfl
  cases hc : w.strobe.connected with
  | false =>
    rw [observe_same (by rw [hoff, hc])]
    refine ⟨hk.past, fun hon => ?_, fun _ hstb => ?_, fun _ hstb => ?_, fun hstb => ?_, hst⟩
    all_goals simp only [strobe, hs, Strobe.StopStepMotor] at *
    · cases hon
    · exact hk.waiting hc hstb
    · exact hk.cut hc hstb
    · exact hk.count hstb
  | true =>
    obtain ⟨hstb, -, hticks⟩ := hk.connected hc
    have hcount := hk.count hstb
    rw [observe_change (by rw [hoff, hc]; simp)]
    refine ⟨⟨?_, hk.past⟩, ?_, ?_, fun _ _ => ⟨by simp, by simp⟩,
      ?_, hst⟩
    · simp only [hc, if_true]
      omega
    · intro hon
      rw [show m.strobe.connected = true from hon] at hoff
      cases hoff
    · intro _ hstb'
      simp only [strobe, hs, Strobe.StopStepMotor] at hstb'
      rw [hstb] at hstb'
      cases hstb'
    · intro _
      simp only [strobe, hs, Strobe.StopStepMotor]
      exact hcount

/-- A tick of timer 1 keeps the phase. -/
theorem Kept.of_tick (hk : w.Kept)
    (hs : m.strobe = w.strobe.Timer1CallBackMotor w.SMP.HeadPrint) (hh : m.head.SMP = w.SMP)
    (hst : m.starting = w.motor.starting) : (w.observe m 1).Kept := by
  have hstart : m.starting = true → m.head.SMP.HeadPrint = true ∧ m.head.SMP.Status = .Running := by
    rw [hst, hh]
    exact hk.starting
  rcases Strobe.timer1_cases w.strobe w.SMP.HeadPrint with
    ⟨hp, h⟩ | ⟨hp, hstb, hend, h⟩ | ⟨hp, hstb, hend, h⟩ | ⟨hp, hstb, hend, h⟩ | ⟨hp, hstb, hend, h⟩
  all_goals rw [h] at hs
  · -- the head does not print: the channel is disconnected, and the phase begins anew
    have hoff := hk.duty.still hp
    rw [observe_same (by rw [hs])]
    refine ⟨hk.past, fun hc => ?_, fun _ _ => ?_, fun _ h => ?_, fun h => ?_, hstart⟩
    all_goals simp only [strobe, hs] at *
    · rw [hoff] at hc
      cases hc
    · exact Nat.zero_le _
    · cases h
    · cases h
  · -- the connected phase ends
    have hnew (past : List Period) (ticks : Nat) (hpast : Paused past) :
        (Watch.mk m past ticks).Kept := by
      refine ⟨hpast, fun h => ?_, fun _ _ => ?_, fun _ h => ?_, fun h => ?_, hstart⟩
      all_goals simp only [strobe, hs] at *
      · cases h
      · exact Nat.zero_le _
      · cases h
      · cases h
    cases hc : w.strobe.connected with
    | true =>
      have hticks := (hk.connected hc).2.2
      have hcount := hk.count hstb
      rw [observe_change (by rw [hs, hc]; simp)]
      refine hnew _ _ ⟨?_, hk.past⟩
      simp only [hc, if_true]
      omega
    | false =>
      rw [observe_same (by rw [hs, hc])]
      exact hnew _ _ hk.past
  · -- the connected phase goes on
    rw [observe_same (by rw [hs])]
    refine ⟨hk.past, fun hc => ?_, fun _ h => ?_, fun hc _ => ?_, fun _ => ?_, hstart⟩
    all_goals simp only [strobe, hs, SMP, hh] at *
    · exact ⟨hstb, hp, by rw [(hk.connected hc).2.2]⟩
    · rw [hstb] at h
      cases h
    · exact ⟨(hk.cut hc hstb).1, Nat.succ_le_succ (hk.cut hc hstb).2⟩
    · exact hend
  · -- the disconnected phase ends
    have hoff := hk.not_connected hstb
    have hwait := hk.waiting hoff hstb
    rw [observe_change (by rw [hs, hoff]; simp)]
    refine ⟨⟨?_, hk.past⟩, fun _ => ?_, fun h => ?_, fun h => ?_, fun _ => ?_, hstart⟩
    · simp only [hoff, Bool.false_eq_true, if_false]
      intro
      omega
    all_goals simp only [strobe, hs, SMP, hh] at *
    · exact ⟨trivial, hp, trivial⟩
    · cases h
    · cases h
    · omega
  · -- the disconnected phase goes on
    have hoff := hk.not_connected hstb
    rw [observe_same (by rw [hs])]
    refine ⟨hk.past, fun h => ?_, fun _ _ => ?_, fun _ h => ?_, fun h => ?_, hstart⟩
    all_goals simp only [strobe, hs] at *
    · rw [hoff] at h
      cases h
    · exact Nat.succ_le_succ (hk.waiting hoff hstb)
    · rw [hstb] at h
      cases h
    · rw [hstb] at h
      cases h

/-- An allowed call of `StartPWM` changes nothing. -/
theorem Kept.of_startPWM (hk : w.Kept) (ha : w.Allows .startPWM) : (w.next .startPWM).Kept := by
  unfold next Motor.next
  by_cases hst : w.motor.starting = true
  · simp only [if_pos hst]
    refine hk.of_strobe_eq ?_ (fun hc => (hk.connected hc).2.1) (fun h => by cases h)
    unfold Motor.StartPWM Strobe.StartPWM
    dsimp only
    split
    · rfl
    · next hhead =>
      obtain ⟨hc, -, hcount⟩ := (ha hst).resolve_left hhead
      simp only [strobe] at hc hcount
      rw [← hc, ← hcount]
  · simp only [if_neg hst]
    exact hk.of_strobe_eq rfl (fun hc => (hk.connected hc).2.1) hk.starting

/-- An allowed start keeps the phase. -/
theorem Kept.of_start (hk : w.Kept) (CurrentSMP : StepMP) (ha : w.Allows (.start CurrentSMP)) :
    (w.next (.start CurrentSMP)).Kept := by
  change (w.observe (w.motor.StepMotorStart CurrentSMP) 0).Kept
  cases hstop : w.SMP.Status with
  | Running =>
    have hsame : w.motor.StepMotorStart CurrentSMP = w.motor := by
      unfold Motor.StepMotorStart
      rw [if_pos hstop]
    rw [hsame]
    exact hk.of_strobe_eq rfl (fun hc => (hk.connected hc).2.1) hk.starting
  | Stopped =>
    obtain ⟨hs, hp, hrun, hst⟩ := Motor.StepMotorStart_SMP CurrentSMP hstop
    refine hk.of_strobe_eq hs ?_ ?_
    · intro hc
      rw [hp]
      cases hprint : CurrentSMP.HeadPrint with
      | true => rfl
      | false =>
        rw [ha hstop hprint] at hc
        cases hc
    · intro h
      rw [hp, ← hst]
      exact ⟨h, hrun⟩

/-- A tick of timer 4 keeps the phase. -/
theorem Kept.of_timer4 (hk : w.Kept) (ContinueMode FixedStepsMode : ModeFunction)
    (CoverState : Bool) (adc : Nat) :
    (w.next (.timer4 ContinueMode FixedStepsMode CoverState adc)).Kept := by
  unfold next Motor.next
  by_cases hst : w.motor.starting = true
  · simp only [if_pos hst]
    exact hk.of_strobe_eq rfl (fun hc => (hk.connected hc).2.1) hk.starting
  · simp only [if_neg hst]
    rcases Motor.timer4_cases (m := w.motor) ContinueMode FixedStepsMode CoverState adc
      with hstop | hs
    · rw [hstop]
      exact hk.of_stop rfl fun h => (hst h).elim
    · exact hk.of_strobe_eq hs.strobe
        (fun hc => (Motor.timer4_HeadPrint _ _ _ _).trans (hk.connected hc).2.1)
        fun h => (hst (hs.starting ▸ h)).elim

/-- Every allowed action keeps the phase. -/
theorem step_kept (hk : w.Kept) (hst : AllowedStep w w') : w'.Kept := by
  obtain ⟨a, ha, rfl⟩ := hst
  cases a with
  | start CurrentSMP => exact hk.of_start CurrentSMP ha
  | startPWM => exact hk.of_startPWM ha
  | timer4 ContinueMode FixedStepsMode CoverState adc => exact hk.of_timer4 _ _ _ _
  | timer1 => exact hk.of_tick rfl rfl rfl
  | tasks Page Gap PrintBLink PageEndFlag CountPaper gapCalculated =>
    exact hk.of_strobe_eq rfl (fun hc => (hk.connected hc).2.1) hk.starting

/-! ## The other actions -/

/-- `n` more ticks are counted, by timer 1 and by the watch. -/
def counted (w : Watch) (n : Nat) : Watch :=
  { w with
    motor := { w.motor with strobe := { w.strobe with PWMCount := w.strobe.PWMCount + n } }
    ticks := w.ticks + n }

/-- Within a phase a tick of timer 1 counts. -/
theorem tick_counts (hp : w.SMP.HeadPrint = true)
    (hlt : w.strobe.PWMCount + 1 < if w.strobe.STBState then 10 else heatTime) :
    w.next .timer1 = w.counted 1 := by
  have hs : w.strobe.Timer1CallBackMotor w.SMP.HeadPrint =
      { w.strobe with PWMCount := w.strobe.PWMCount + 1 } := by
    rcases Strobe.timer1_cases w.strobe w.SMP.HeadPrint with
      ⟨h, -⟩ | ⟨-, h, hend, -⟩ | ⟨-, -, -, h⟩ | ⟨-, h, hend, -⟩ | ⟨-, -, -, h⟩
    · rw [hp] at h
      cases h
    · simp only [h, if_true] at hlt
      omega
    · exact h
    · simp only [h, Bool.false_eq_true, if_false] at hlt
      omega
    · exact h
  change w.observe { w.motor with strobe := w.strobe.Timer1CallBackMotor w.SMP.HeadPrint } 1 = _
  rw [hs]
  exact observe_same rfl

/-- Within a phase ticks of timer 1 count. -/
theorem ticks_count (hp : w.SMP.HeadPrint = true)
    (hlt : w.strobe.PWMCount + n < if w.strobe.STBState then 10 else heatTime) :
    (fun w : Watch => w.next .timer1)^[n] w = w.counted n := by
  induction n with
  | zero => rfl
  | succ n ih =>
    rw [Function.iterate_succ_apply', ih (by omega)]
    exact tick_counts hp hlt

/-- The tick of timer 1 that ends the connected phase ends the period. -/
theorem tick_ends (hp : w.SMP.HeadPrint = true) (hstb : w.strobe.STBState = true)
    (hend : 10 ≤ w.strobe.PWMCount + 1) (hc : w.strobe.connected = true) :
    (w.next .timer1).past = { connected := true, ticks := w.ticks + 1 } :: w.past := by
  have hs : w.strobe.Timer1CallBackMotor w.SMP.HeadPrint =
      { w.strobe with STBState := false, PWMCount := 0, connected := false } := by
    rw [hp]
    unfold Strobe.Timer1CallBackMotor
    rw [if_pos rfl, if_pos hstb, if_pos hend]
  change (w.observe
    { w.motor with strobe := w.strobe.Timer1CallBackMotor w.SMP.HeadPrint } 1).past = _
  rw [hs, observe_change (by rw [hc]; simp), hc]

/-- A `StartPWM` that is due: the channel is connected and the count begins anew, in whatever phase
the strobe is. -/
theorem next_startPWM (hst : w.motor.starting = true) (hhead : w.strobe.HeadStbLowValid ≠ 0) :
    ∃ m : Motor, w.next .startPWM = w.observe m 0 ∧ m.head = w.motor.head ∧
      m.strobe = { w.strobe with PWMCount := 0, connected := true } := by
  refine ⟨w.motor.StartPWM, ?_, rfl, ?_⟩
  · unfold next Motor.next
    simp only [if_pos hst]
    rfl
  · unfold Motor.StartPWM Strobe.StartPWM
    simp only [if_neg hhead]

/-- A start that is not allowed leaves the channel connected while the head does not print. -/
theorem broken_start {CurrentSMP : StepMP} (ha : ¬ w.Allows (.start CurrentSMP)) :
    ¬ (w.next (.start CurrentSMP)).Duty := by
  intro hd
  refine ha ?_
  intro hstop hp
  obtain ⟨hs, hp', -, -⟩ := Motor.StepMotorStart_SMP (m := w.motor) CurrentSMP hstop
  have hnext : w.next (.start CurrentSMP) =
      { w with motor := w.motor.StepMotorStart CurrentSMP, ticks := w.ticks + 0 } :=
    observe_same (congrArg _ hs)
  have hstill := hd.still
  rw [hnext] at hstill
  have hoff : (w.motor.StepMotorStart CurrentSMP).strobe.connected = false :=
    hstill (hp'.trans hp)
  rwa [hs] at hoff

/-- A `StartPWM` that is not allowed breaks the duty after at most 11 ticks of timer 1. -/
theorem Kept.broken_startPWM (hk : w.Kept) (ha : ¬ w.Allows .startPWM) :
    ∃ n, ¬ ((fun w : Watch => w.next .timer1)^[n] (w.next .startPWM)).Duty := by
  have hst : w.motor.starting = true := by
    by_contra h
    exact ha fun h' => (h h').elim
  have hphase : ¬ InPhase w.strobe := fun h => ha fun _ => h
  obtain ⟨m, hnext, hh, hs⟩ := next_startPWM hst fun h => hphase (.inl h)
  have hp : m.head.SMP.HeadPrint = true := by
    rw [hh]
    exact (hk.starting hst).1
  rw [hnext]
  cases hc : w.strobe.connected with
  | true =>
    -- connected already: the period is prolonged by the ticks counted before
    obtain ⟨hstb, -, hticks⟩ := hk.connected hc
    have hpos : w.strobe.PWMCount ≠ 0 := fun h => hphase (.inr ⟨hc, hstb, h⟩)
    have hnine := ticks_count (w := { w with motor := m, ticks := w.ticks + 0 }) (n := 9) hp
      (by simp [strobe, hs, hstb])
    have hten := tick_ends (w := { w with motor := m, ticks := w.ticks + 0 }.counted 9) hp
      (by simp [counted, strobe, hs, hstb]) (by simp [counted]) (by simp [counted, strobe, hs])
    refine ⟨10, ?_⟩
    intro hd
    have hpast := hd.past
    rw [observe_same (by rw [hs, hc]), Function.iterate_succ_apply', hnine, hten] at hpast
    have hlong := hpast.1
    simp only [counted, if_true] at hlong
    omega
  | false =>
    have hchange := observe_change (w := w) (m := m) (n := 0) (by rw [hs, hc]; simp)
    cases hstb : w.strobe.STBState with
    | true =>
      -- disconnected by the end of a run, in the connected phase: connected again too soon
      obtain ⟨hne, hticks⟩ := hk.cut hc hstb
      have hcount := hk.count hstb
      refine ⟨0, ?_⟩
      intro hd
      have hpast := hd.past
      rw [Function.iterate_zero_apply, hchange] at hpast
      have hpause := hpast.1
      simp only [hc, Bool.false_eq_true, if_false] at hpause
      have := hpause hne
      unfold heatTime at this
      omega
    | false =>
      -- disconnected: connected for the rest of the disconnected phase
      have heleven := ticks_count (n := 11)
        (w := { motor := m, past := ⟨w.strobe.connected, w.ticks + 0⟩ :: w.past, ticks := 0 }) hp
        (by simp [strobe, hs, hstb, heatTime])
      refine ⟨11, ?_⟩
      intro hd
      have hheated := hd.heated
      rw [hchange, heleven] at hheated
      have := hheated (by simp [counted, strobe, hs])
      simp only [counted] at this
      omega

/-- What is not allowed breaks the duty, at once or after ticks of timer 1. -/
theorem Kept.broken (hk : w.Kept) {a : Motor.Action} (ha : ¬ w.Allows a) :
    ∃ n, ¬ ((fun w : Watch => w.next .timer1)^[n] (w.next a)).Duty := by
  cases a with
  | start CurrentSMP => exact ⟨0, broken_start ha⟩
  | startPWM => exact hk.broken_startPWM ha
  | timer4 ContinueMode FixedStepsMode CoverState adc => exact (ha trivial).elim
  | timer1 => exact (ha trivial).elim
  | tasks Page Gap PrintBLink PageEndFlag CountPaper gapCalculated => exact (ha trivial).elim

/-- Ticks of timer 1 are allowed. -/
theorem allowed_ticks (w : Watch) (n : Nat) :
    ReflTransGen AllowedStep w ((fun w : Watch => w.next .timer1)^[n] w) := by
  induction n with
  | zero => exact .refl
  | succ n ih =>
    rw [Function.iterate_succ_apply']
    exact ih.tail ⟨.timer1, trivial, rfl⟩

/-- **When the strobe keeps its duty.** A run of allowed actions keeps the duty limit; and where it
leads, an action is followed by ticks of timer 1 that keep the limit, however many, exactly if it is
allowed. -/
theorem duty_kept_iff {HeadStbLowValid : UInt8}
    (hrun : ReflTransGen AllowedStep (init HeadStbLowValid) w) :
    w.Duty ∧ ∀ a, (∀ n, ((fun w : Watch => w.next .timer1)^[n] (w.next a)).Duty) ↔ w.Allows a := by
  have hk : w.Kept := Runs.invariant (fun _ _ => step_kept) hrun (init_kept _)
  refine ⟨hk.duty, fun a => ⟨?_, ?_⟩⟩
  · intro hd
    by_contra ha
    obtain ⟨n, hn⟩ := hk.broken ha
    exact hn (hd n)
  · intro ha n
    have hticks : ((fun w : Watch => w.next .timer1)^[n] (w.next a)).Kept :=
      Runs.invariant (fun _ _ => step_kept) (allowed_ticks (w.next a) n)
        (step_kept hk ⟨a, ha, rfl⟩)
    exact hticks.duty

/-- A printing run of a known head: `StartPWM` meets the connected phase in the tick in which timer
1 began it. -/
theorem duty_kept_iff_phase :
    let w := ((fun w : Watch => w.next .timer1)^[heatTime]
      ((init 2).next (.start Head.SMPCurrent))).next .startPWM
    w.strobe.connected = true ∧ w.motor.starting = false ∧ w.past ≠ [] ∧
      (w.Duty ∧
        ∀ a, (∀ n, ((fun w : Watch => w.next .timer1)^[n] (w.next a)).Duty) ↔ w.Allows a) := by
  intro w
  have hstart : AllowedStep (init 2) ((init 2).next (.start Head.SMPCurrent)) :=
    ⟨.start Head.SMPCurrent, fun _ _ => rfl, rfl⟩
  exact ⟨by decide +kernel, by decide +kernel, by decide +kernel,
    duty_kept_iff (((ReflTransGen.refl.tail hstart).trans (allowed_ticks _ heatTime)).tail
      ⟨.startPWM, fun _ => .inr (by decide +kernel), rfl⟩)⟩

/-- The first printing run of a known head: `StartPWM` connects the channel, and 11 ticks of timer 1
later it is connected still. -/
theorem first_run_overheats : ∃ w, ReflTransGen Step (init 2) w ∧ ¬ w.Duty := by
  refine ⟨_, Runs.foldl (fun w a => ⟨a, rfl⟩) (init 2)
    ([.start Head.SMPCurrent, .startPWM] ++ List.replicate 11 .timer1), ?_⟩
  intro hd
  exact absurd (hd.heated (by decide)) (by decide)

end Watch

end ThermalPrinter
