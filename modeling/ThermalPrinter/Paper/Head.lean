import ThermalPrinter.Parser.Command
import Mathlib.Algebra.Ring.Int.Defs
import Mathlib.Algebra.Ring.Nat

/-!
# The label counter and the print head

The records of `AppDriverGeneric.h` that the motor interrupt works on, and the functions of
`AppDriverBase.c` that decide which line is latched into the head at a motor step. A queued row is
printed when it belongs to the page that lies under the head and the label has at least 16 steps
left; otherwise a blank line is latched, and rows of earlier pages are discarded.

The unsigned fields are natural numbers below `2 ^ 32` and `RemainderSteps`, an `int`, is an
integer; `u32` and `i32` are the conversions of the source, which wrap round. The decrement of
`RemainderSteps` does not, nor do the page numbers.
-/

namespace ThermalPrinter

/-- The conversion to `unsigned int`. -/
def u32 (n : Int) : Nat := (n % 2 ^ 32).toNat

/-- The conversion to `int`. -/
def i32 (n : Int) : Int := n.bmod (2 ^ 32)

section

variable {n : Int} {k i L Temp : Nat}

/-- A conversion of a value in range does nothing. -/
theorem u32_of_range (h₀ : 0 ≤ n) (h₁ : n < 2 ^ 32) : (u32 n : Int) = n := by
  unfold u32
  omega

theorem i32_of_range (h₀ : -2 ^ 31 ≤ n) (h₁ : n < 2 ^ 31) : i32 n = n := by
  unfold i32
  rw [Int.bmod_eq_of_le] <;> omega

theorem u32_natCast (h : k < 2 ^ 32) : u32 k = k := by
  unfold u32
  omega

theorem u32_mul (h : i * L < 2 ^ 32) : u32 (i * L) = i * L := by
  have := u32_natCast h
  rwa [Int.natCast_mul] at this

theorem u32_sub_mul (h : i * L ≤ Temp) (hT : Temp < 2 ^ 32) :
    u32 (Temp - i * L) = Temp - i * L := by
  have := u32_natCast (k := Temp - i * L) (by omega)
  rwa [Int.natCast_sub h, Int.natCast_mul] at this

theorem u32_mul_sub (h : Temp ≤ i * L) (hlt : i * L < 2 ^ 32) :
    u32 (i * L - Temp) = i * L - Temp := by
  have := u32_natCast (k := i * L - Temp) (by omega)
  rwa [Int.natCast_sub h, Int.natCast_mul] at this

end

/-- `Dir` of the motor. -/
inductive Direction
  | Forward | Backward
  deriving DecidableEq, Repr

/-- `Status` of the motor. -/
inductive MotorStatus
  | Stopped | Running
  deriving DecidableEq, Repr

/-- `Mode` of the motor: successive steps, or a fixed number of them. -/
inductive MotorMode
  | ModeContinue | ModeFixSteps
  deriving DecidableEq, Repr

/-- `StepMP`: the parameters of a motor run. -/
structure StepMP where
  ACCSteps : Nat
  CurrentSteps : Nat
  CurrentDecSteps : Nat
  Suspend : Bool
  Dir : Direction
  Status : MotorStatus
  Mode : MotorMode
  StepsFixedValue : Nat
  StepMotorFinished : Bool
  HeadPrint : Bool
  FindPaperEdge : Bool
  RecordGap : Bool
  CalculateCompensate : Bool
  deriving DecidableEq, Repr

/-- `PrintPage`: the label under the head. -/
structure PrintPage where
  RemainderSteps : Int
  PageNum : Nat
  EliminateRedundanctData : Bool
  SensorError : Bool
  ContinuePrint : Bool
  deriving DecidableEq, Repr

/-- `GAP`: what the gap sensor measured. -/
structure GAP where
  LabelLength : Nat
  StepsCount : Nat
  StepsGapPos : Nat
  LabelGapLength : Nat
  CountGap : UInt8
  GapIn : Bool
  LableLengthCP : Nat
  CountLable : Nat
  CountLastAuthenticPageGap : Nat
  LockPage : Bool
  deriving DecidableEq, Repr

/-- The globals of the motor interrupt: `SMP`, `Page`, `Gap`, the distance
`Nvs.PrintPosAndGapValue`, the row queue, `command.PageEndFlag`, and the lines latched into the head
so far, in order. -/
structure Head where
  SMP : StepMP
  Page : PrintPage
  Gap : GAP
  PrintPosAndGapValue : Nat
  PrintBLink : List LinkedListData
  PageEndFlag : Bool
  latched : List (List UInt8)
  deriving DecidableEq, Repr

/-- The line without dots that is latched when no row is printed. -/
def blank : List UInt8 := List.replicate 108 0

namespace Head

/-- `PrinterDataIn`: a line is latched while the head prints. -/
def PrinterDataIn (data : List UInt8) (h : Head) : Head :=
  if h.SMP.HeadPrint then { h with latched := h.latched ++ [data] } else h

/-- The loop of `RedundantDataProcessing` on the queued rows: the rows it leaves, and whether it ran
out of rows. -/
def redundantRows (PageNum : Nat) (waiting : Bool) :
    List LinkedListData → Nat → List LinkedListData × Bool
  | [], _ => ([], true)
  | LLDataTempA :: rest, Count =>
    if PageNum = LLDataTempA.PageNum then (rest, false)
    else if Count + 1 > 25 ∧ waiting = false then (rest, false)
    else redundantRows PageNum waiting rest (Count + 1)

/-- The loop of `RedundantDataProcessing` with its delays: while it waits it goes on with the rows
that arrived in a delay, until none did. `Count` is looked at only when it does not wait. -/
def redundantLoop (PageNum : Nat) (waiting : Bool) :
    List (List LinkedListData) → List LinkedListData → List LinkedListData × Bool
  | [], rows => redundantRows PageNum waiting rows 0
  | arrived :: delays, rows =>
    if (redundantRows PageNum waiting rows 0).2 ∧ waiting ∧ rows ≠ [] then
      redundantLoop PageNum waiting delays arrived
    else redundantRows PageNum waiting rows 0

/-- `RedundantDataProcessing`. `delays` are the rows that arrive in each of its delays. -/
def RedundantDataProcessing (waiting : Bool) (delays : List (List LinkedListData)) (h : Head) :
    Head :=
  let (rest, ranOut) := redundantLoop h.Page.PageNum waiting delays h.PrintBLink
  let h := { h with PrintBLink := rest }
  if ranOut ∧ waiting = false then
    { h with
      SMP := { h.SMP with Suspend := true }
      Page := { h.Page with EliminateRedundanctData := true } }
  else h

/-- The loop of `RedundantDataProcessingLastPage`: the rows it leaves. -/
def lastPageLoop (PageNum : Nat) : List LinkedListData → Nat → List LinkedListData
  | [], _ => []
  | LLDataTempA :: rest, Count =>
    if PageNum = LLDataTempA.PageNum then
      if Count + 1 > 25 then rest else lastPageLoop PageNum rest (Count + 1)
    else rest

/-- `RedundantDataProcessingLastPage`. -/
def RedundantDataProcessingLastPage (h : Head) : Head :=
  { h with PrintBLink := lastPageLoop h.Page.PageNum h.PrintBLink 0 }

/-- `AuthenticPageMangement`: one step of the label is used up; after the last one the next page
begins. -/
def AuthenticPageMangement (h : Head) : Head :=
  if h.Page.RemainderSteps - 1 = 0 then
    { h with
      Gap := { h.Gap with CountLable := u32 (h.Gap.CountLable + 1) }
      Page := { h.Page with
        PageNum := h.Page.PageNum + 1
        RemainderSteps := if h.Gap.LabelLength ≠ 0 then i32 h.Gap.LabelLength else 2400 } }
  else { h with Page := { h.Page with RemainderSteps := h.Page.RemainderSteps - 1 } }

/-- The part of `PageDataCalculation` that looks at the page of the queue's head: the state it
leaves, and `CompensateEmptyLine`. -/
def reconcile (h : Head) : Head × Bool :=
  match h.PrintBLink with
  | LLDataTempA :: _ =>
    if h.Gap.LockPage = false then
      if h.Page.PageNum = LLDataTempA.PageNum then
        if h.AuthenticPageMangement.Page.RemainderSteps < 16 then
          (h.AuthenticPageMangement.RedundantDataProcessingLastPage, true)
        else (h.AuthenticPageMangement, false)
      else if h.Page.PageNum > LLDataTempA.PageNum then (h.RedundantDataProcessing false [], true)
      else (h.AuthenticPageMangement, true)
    else (h, false)
  | [] => (h.AuthenticPageMangement, false)

/-- The motor suspend condition of `PageDataCalculation`. -/
def suspendCondition (h : Head) : Head :=
  let NodeCount := h.PrintBLink.length
  if NodeCount ≤ h.SMP.ACCSteps ∧ u32 h.Page.RemainderSteps < h.SMP.ACCSteps ∨
      NodeCount ≤ h.SMP.ACCSteps ∧ h.PageEndFlag = false then
    { h with SMP := { h.SMP with Suspend := true } }
  else h

/-- The end of `PageDataCalculation`: the head of the queue is printed, or a blank line. -/
def output (CompensateEmptyLine : Bool) (h : Head) : Head :=
  match h.PrintBLink with
  | LLDataTemp :: rest =>
    if CompensateEmptyLine = false then { h with PrintBLink := rest }.PrinterDataIn LLDataTemp.data
    else h.PrinterDataIn blank
  | [] => h.PrinterDataIn blank

/-- `PageDataCalculation`: one motor step of a printing run. -/
def PageDataCalculation (h : Head) : Head :=
  h.reconcile.1.suspendCondition.output h.reconcile.2

/-- The acceleration length of a run of fixed length is at most half of it. -/
def limitACCSteps (SMP : StepMP) : StepMP :=
  if SMP.Mode = .ModeFixSteps ∧ SMP.StepsFixedValue < u32 (SMP.ACCSteps * 2) then
    { SMP with ACCSteps := SMP.StepsFixedValue / 2 }
  else SMP

/-- `StepMotorStart`: a motor run begins, unless one is going on. -/
def StepMotorStart (CurrentSMP : StepMP) (h : Head) : Head :=
  if h.SMP.Status = .Running then h
  else
    { h with
      SMP := limitACCSteps { CurrentSMP with Status := .Running }
      Page := { h.Page with
        EliminateRedundanctData := false
        SensorError := false
        RemainderSteps :=
          if CurrentSMP.HeadPrint = true ∧ h.Page.ContinuePrint = false then
            if h.Gap.LabelLength ≠ 0 then i32 h.Gap.LabelLength else 2400
          else h.Page.RemainderSteps }
      Gap := { h.Gap with
        GapIn := false, LockPage := false, CountLable := 0, StepsCount := 0, StepsGapPos := 0 } }

/-- The globals at boot. -/
def init : Head where
  SMP :=
    { ACCSteps := 8, CurrentSteps := 0, CurrentDecSteps := 0, Suspend := false, Dir := .Forward
      Status := .Stopped, Mode := .ModeFixSteps, StepsFixedValue := 500, StepMotorFinished := false
      HeadPrint := false, FindPaperEdge := false, RecordGap := false, CalculateCompensate := false }
  Page :=
    { RemainderSteps := 2400, PageNum := 0, EliminateRedundanctData := false, SensorError := false
      ContinuePrint := false }
  Gap :=
    { LabelLength := 0, StepsCount := 0, StepsGapPos := 0, LabelGapLength := 0, CountGap := 0
      GapIn := false, LableLengthCP := 0, CountLable := 0, CountLastAuthenticPageGap := 0
      LockPage := false }
  PrintPosAndGapValue := 105
  PrintBLink := []
  PageEndFlag := false
  latched := []

/-- The parameters `SMPCurrent` of a printing run. -/
def SMPCurrent : StepMP where
  ACCSteps := 8
  CurrentSteps := 0
  CurrentDecSteps := 0
  Suspend := false
  Dir := .Forward
  Status := .Stopped
  Mode := .ModeContinue
  StepsFixedValue := 0
  StepMotorFinished := false
  HeadPrint := true
  FindPaperEdge := false
  RecordGap := true
  CalculateCompensate := true

end Head

end ThermalPrinter
