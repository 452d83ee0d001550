import ThermalPrinter.Paper.Motor
import Mathlib.Algebra.BigOperators.Group.List.Basic
import Mathlib.Data.List.Chain
import Mathlib.Data.ZMod.Basic

/-!
# The phases of the step motor

`PhaseSwitching` excites one of four phases at every step of the motor and moves the static index
`PhaseSerial` on, up when the motor runs forward and down when it runs backward. The phase is
excited before the index moves, so a step goes the way of the step before it: the first step after
a reversal still goes the old way.
-/

namespace ThermalPrinter

/-- The levels `Step1IO` to `Step4IO` of the motor's four lines. -/
inductive Phase
  | Step1IO | Step2IO | Step3IO | Step4IO
  deriving DecidableEq, Repr

/-- The place of a phase in the sequence of the four. -/
def Phase.index : Phase → ZMod 4
  | Step1IO => 0
  | Step2IO => 1
  | Step3IO => 2
  | Step4IO => 3

/-- The change of phase that moves the paper in a direction. -/
def Direction.turn : Direction → ZMod 4
  | Forward => 1
  | Backward => -1

/-- A call of `PhaseSwitching`: the direction of the run and the phase it excites. -/
structure Switching where
  Dir : Direction
  phase : Phase
  deriving DecidableEq, Repr

/-- The motor with the static `PhaseSerial`, and the calls of `PhaseSwitching` so far, in order. -/
structure Stepper where
  motor : Motor
  PhaseSerial : UInt8
  calls : List Switching

namespace Stepper

/-- The phase that an index stands for. -/
def phaseOf (PhaseSerial : UInt8) : Phase :=
  match (PhaseSerial % 4).toNat with
  | 0 => Phase.Step1IO
  | 1 => Phase.Step2IO
  | 2 => Phase.Step3IO
  | _ => Phase.Step4IO

/-- The share of the phases in `PhaseSwitching`. -/
def PhaseSwitching (Dir : Direction) (s : Stepper) : Stepper :=
  { s with
    PhaseSerial := if Dir = .Forward then s.PhaseSerial + 1 else s.PhaseSerial - 1
    calls := s.calls ++ [{ Dir := Dir, phase := phaseOf s.PhaseSerial }] }

/-- The direction of the run where an action calls `PhaseSwitching`: at a tick of timer 4 that does
not end the run, after the paper's edge was looked for or the next line latched. -/
def switching (m : Motor) : Motor.Action → Option Direction
  | .timer4 _ _ _ adc =>
    if m.starting ∨ m.head.SMP.StepMotorFinished then none
    else if m.head.SMP.FindPaperEdge then some (m.FindFaperEdgeISR adc).head.SMP.Dir
    else if m.head.SMP.HeadPrint then some m.head.PageDataCalculation.SMP.Dir
    else some m.head.SMP.Dir
  | _ => none

/-- The state after an action. -/
def next (s : Stepper) (a : Motor.Action) : Stepper :=
  match switching s.motor a with
  | some Dir => { s.PhaseSwitching Dir with motor := s.motor.next a }
  | none => { s with motor := s.motor.next a }

/-- The state at boot. -/
def init (HeadStbLowValid : UInt8) : Stepper where
  motor := .init HeadStbLowValid
  PhaseSerial := 0
  calls := []

end Stepper

/-- Every call after the first changes the phase in the direction of its run. -/
def InStep (calls : List Switching) : Prop :=
  calls.IsChain fun c c' => c'.phase.index = c.phase.index + c'.Dir.turn

/-- As many steps forward as there were backward return to the phase before them. -/
def Returns (calls : List Switching) : Prop :=
  ∀ before c back forth after, calls = before ++ c :: back ++ forth ++ after →
    (∀ b ∈ back, b.Dir = .Backward) → (∀ f ∈ forth, f.Dir = .Forward) →
    back.length = forth.length →
    ((c :: back ++ forth).getLast (by simp)).phase = c.phase

/-- The motor never reverses: every call has the direction of the call before. -/
def NoReversal (calls : List Switching) : Prop :=
  calls.IsChain fun c c' => c'.Dir = c.Dir

namespace Stepper

variable {s : Stepper} {Dir : Direction} {calls : List Switching} {c c' : Switching} {n : UInt8}

theorem index_phaseOf : (phaseOf n).index = n.toNat := by
  have hmod : (n % 4).toNat = n.toNat % 4 := UInt8.toNat_mod n 4
  have hlt : n.toNat % 4 = 0 ∨ n.toNat % 4 = 1 ∨ n.toNat % 4 = 2 ∨ n.toNat % 4 = 3 := by omega
  rw [phaseOf, hmod, ← ZMod.natCast_mod]
  obtain h | h | h | h := hlt <;> rw [h] <;> rfl

/-- Moving the index moves the phase; that the index wraps round at 256 does not matter. -/
theorem index_phaseOf_move :
    (phaseOf (if Dir = .Forward then n + 1 else n - 1)).index = (phaseOf n).index + Dir.turn := by
  have hturn (k m : Nat) (h : k % 4 = (n.toNat + m) % 4) : (k : ZMod 4) = n.toNat + m := by
    rw [← Nat.cast_add]
    exact (ZMod.natCast_eq_natCast_iff _ _ _).2 h
  rw [index_phaseOf, index_phaseOf]
  have hone : (1 : UInt8).toNat = 1 := rfl
  cases Dir with
  | Forward =>
    refine hturn _ 1 ?_
    rw [if_pos rfl, UInt8.toNat_add, hone]
    omega
  | Backward =>
    refine hturn _ 3 ?_
    rw [if_neg nofun, UInt8.toNat_sub, hone]
    omega

/-! ## What every run does -/

/-- The calls so far, and the index: each phase follows from the call before, in the direction of
that call. -/
structure Tracks (s : Stepper) : Prop where
  calls : s.calls.IsChain fun c c' => c'.phase.index = c.phase.index + c.Dir.turn
  PhaseSerial : ∀ c ∈ s.calls.getLast?, (phaseOf s.PhaseSerial).index = c.phase.index + c.Dir.turn

theorem Tracks.init (v : UInt8) : Tracks (.init v) where
  calls := .nil
  PhaseSerial := by rintro c ⟨⟩

theorem Tracks.PhaseSwitching (h : Tracks s) : Tracks (s.PhaseSwitching Dir) where
  calls := by
    refine h.calls.append (.singleton _) ?_
    intro c hc c' hc'
    cases hc'
    exact h.PhaseSerial c hc
  PhaseSerial := by
    intro c hc
    rw [Stepper.PhaseSwitching, List.getLast?_concat, Option.mem_some_iff] at hc
    subst hc
    exact index_phaseOf_move

theorem Tracks.next (a : Motor.Action) (h : Tracks s) : Tracks (s.next a) := by
  rw [Stepper.next]
  split
  · exact ⟨(h.PhaseSwitching).calls, (h.PhaseSwitching).PhaseSerial⟩
  · exact ⟨h.calls, h.PhaseSerial⟩

theorem Tracks.run (h : Tracks s) (as : List Motor.Action) : Tracks (as.foldl Stepper.next s) := by
  induction as generalizing s with
  | nil => exact h
  | cons a as ih => exact ih (h.next a)

end Stepper

/-- The phase after some calls has turned by the sum of their turns. -/
theorem InStep.getLast {c : Switching} {calls : List Switching} (h : InStep (c :: calls)) :
    ((c :: calls).getLast (by simp)).phase.index =
      c.phase.index + (calls.map (·.Dir.turn)).sum := by
  induction calls generalizing c with
  | nil => simp
  | cons c' calls ih =>
    have hc : c'.phase.index = c.phase.index + c'.Dir.turn := (List.isChain_cons_cons.1 h).1
    rw [List.getLast_cons (by simp), ih h.tail, hc, List.map_cons, List.sum_cons, add_assoc]

theorem Direction.turn_injective : Function.Injective Direction.turn := by
  intro p q h
  cases p <;> cases q <;> first | rfl | cases h

theorem Phase.index_injective : Function.Injective Phase.index := by
  intro p q h
  cases p <;> cases q <;> first | rfl | cases h

/-- Calls that follow their directions return. -/
theorem InStep.returns {calls : List Switching} (h : InStep calls) : Returns calls := by
  rintro before c back forth after rfl hback hforth hlen
  have hin : InStep (c :: (back ++ forth)) := by
    refine List.IsChain.infix h ⟨before, after, ?_⟩
    simp
  have hsum : ((back ++ forth).map (·.Dir.turn)).sum = 0 := by
    have hb : back.map (·.Dir.turn) = List.replicate back.length (-1 : ZMod 4) :=
      List.map_eq_replicate_iff.2 fun b hb => by rw [hback b hb]; rfl
    have hf : forth.map (·.Dir.turn) = List.replicate forth.length (1 : ZMod 4) :=
      List.map_eq_replicate_iff.2 fun f hf => by rw [hforth f hf]; rfl
    rw [List.map_append, List.sum_append, hb, hf, hlen, List.sum_replicate, List.sum_replicate,
      ← nsmul_add]
    exact nsmul_zero _
  apply Phase.index_injective
  rw [← add_zero c.phase.index, ← hsum, ← hin.getLast]
  rfl

open Stepper in
/-- **Phase sequencing.** In every run from boot, every call of `PhaseSwitching` moves the phase in
the direction of its motor run, and steps back and forth return, exactly if the motor never
reverses between two calls. -/
theorem inStep_iff_noReversal (HeadStbLowValid : UInt8) (as : List Motor.Action) :
    InStep (as.foldl next (.init HeadStbLowValid)).calls ∧
        Returns (as.foldl next (.init HeadStbLowValid)).calls ↔
      NoReversal (as.foldl next (.init HeadStbLowValid)).calls := by
  have htracks := ((Tracks.init HeadStbLowValid).run as).calls
  generalize (as.foldl next (.init HeadStbLowValid)).calls = calls at htracks ⊢
  rw [List.isChain_iff_forall_rel_of_append_cons_cons] at htracks
  constructor
  · rintro ⟨hin, -⟩
    refine List.isChain_iff_forall_rel_of_append_cons_cons.2 ?_
    intro c c' before after hcalls
    have h := List.isChain_iff_forall_rel_of_append_cons_cons.1 hin hcalls
    rw [htracks hcalls, add_right_inj] at h
    exact (Direction.turn_injective h).symm
  · intro hdir
    suffices hin : InStep calls from ⟨hin, hin.returns⟩
    refine List.isChain_iff_forall_rel_of_append_cons_cons.2 ?_
    intro c c' before after hcalls
    have h := List.isChain_iff_forall_rel_of_append_cons_cons.1 hdir hcalls
    rw [htracks hcalls, h]

/-- The motor runs one step in each direction, as the print task does between two pages. -/
def reversal : List Motor.Action :=
  let once : ModeFunction := ⟨fun SMP => { SMP with StepMotorFinished := true }, by simp, by simp⟩
  let run (Dir : Direction) : StepMP :=
    { Head.init.SMP with Dir := Dir, StepMotorFinished := false }
  [.start (run .Forward), .timer4 once once false 0, .timer4 once once false 0,
    .start (run .Backward), .timer4 once once false 0, .timer4 once once false 0]

/-- At a reversal the motor goes on in the old direction for a step. -/
theorem reversal_out_of_step : ¬ InStep (reversal.foldl Stepper.next (.init 1)).calls := by
  have hcalls : (reversal.foldl Stepper.next (.init 1)).calls =
      [⟨.Forward, Phase.Step1IO⟩, ⟨.Backward, Phase.Step2IO⟩] := rfl
  rw [hcalls]
  intro h
  exact absurd (List.isChain_cons_cons.1 h).1 (by decide)

end ThermalPrinter
