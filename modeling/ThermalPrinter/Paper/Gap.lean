import ThermalPrinter.Paper.Head
import Mathlib.Data.List.Sort

/-!
# The gap sensor

`GapCalculate` of `AppDriverBase.c` runs after every motor step that records the gap. It samples the
sensor, measures the length of a label from one gap to the next, and corrects the countdown of the
label when a gap leaves the sensor (`PageCompensationByGap`). The sensor's calibration, which
chooses the threshold, is kept apart from the globals of the motor interrupt (`Sensor`).
-/

namespace ThermalPrinter

/-- `GAP_BUF_SIZE`. -/
def GAP_BUF_SIZE : Nat := 16

/-- The statics of the sensor's calibration: the samples below and above the threshold, sorted, with
their sums and counts, the ring buffer of samples that both sides share, and the threshold. -/
structure Sensor where
  d16min : List Nat
  d16max : List Nat
  sumLow : Nat
  sumHigh : Nat
  minCount : Nat
  maxCount : Nat
  threshold : Nat
  gap_min : Nat
  gap_max : Nat
  gapCalculated : Bool
  inited : Bool
  rawBuf : List Nat
  rawIndex : Nat
  deriving DecidableEq, Repr

namespace Sensor

/-- The statics at boot. -/
def init : Sensor where
  d16min := List.replicate GAP_BUF_SIZE 0
  d16max := List.replicate GAP_BUF_SIZE 0
  sumLow := 0
  sumHigh := 0
  minCount := 0
  maxCount := 0
  threshold := 500
  gap_min := 0
  gap_max := 0
  gapCalculated := false
  inited := false
  rawBuf := List.replicate GAP_BUF_SIZE 0
  rawIndex := 0

/-- `InitSharedGapArrays`. -/
def InitSharedGapArrays (s : Sensor) : Sensor :=
  if s.inited = false then
    { s with
      d16min := List.replicate GAP_BUF_SIZE 0x3FF
      d16max := List.replicate GAP_BUF_SIZE 0
      sumLow := 0, sumHigh := 0, minCount := 0, maxCount := 0, inited := true }
  else s

/-- `insertSorted`: the new values of `arr`, `sum` and `count`, and the ring buffer. The array is
rebuilt from the first samples of the buffer, ascending on the low side, descending on the other. -/
def insertSorted (arr : List Nat) (sum count val : Nat) (lowSide : Bool) (s : Sensor) :
    List Nat × Nat × Nat × Sensor :=
  let sum :=
    if count = GAP_BUF_SIZE then (sum + 2 ^ 16 - s.rawBuf.getD s.rawIndex 0) % 2 ^ 16 else sum
  let count := if count = GAP_BUF_SIZE then count else count + 1
  let s := { s with
    rawBuf := s.rawBuf.set s.rawIndex val
    rawIndex := (s.rawIndex + 1) % GAP_BUF_SIZE }
  let sorted :=
    if lowSide then (s.rawBuf.take count).insertionSort (· ≤ ·)
    else (s.rawBuf.take count).insertionSort (· ≥ ·)
  (sorted ++ arr.drop count, (sum + val) % 2 ^ 16, count, s)

/-- A valid sample goes to its side of the threshold. -/
def record (adc : Nat) (s : Sensor) : Sensor :=
  if adc < 0x3FF then
    if adc < s.threshold then
      let (d16min, sumLow, minCount, s) := s.insertSorted s.d16min s.sumLow s.minCount adc true
      { s with d16min := d16min, sumLow := sumLow, minCount := minCount }
    else
      let (d16max, sumHigh, maxCount, s) := s.insertSorted s.d16max s.sumHigh s.maxCount adc false
      { s with d16max := d16max, sumHigh := sumHigh, maxCount := maxCount }
  else s

/-- The threshold is chosen once both sides are full. -/
def calibrate (s : Sensor) : Sensor :=
  if 16 ≤ s.minCount ∧ 16 ≤ s.maxCount then
    InitSharedGapArrays { s with
      threshold := (((s.d16min.drop 3).take 12).sum + ((s.d16max.drop 3).take 12).sum) / 24
      gap_min := s.d16min.getD 0 0
      gap_max := s.d16max.getD 0 0
      gapCalculated := true
      inited := false }
  else s

/-- What a step of `GapCalculate` does to the calibration. -/
def sample (adc : Nat) (s : Sensor) : Sensor :=
  let s := s.InitSharedGapArrays
  if s.gapCalculated = false then (s.record adc).calibrate else s

end Sensor

namespace Head

/-- `Page.RemainderSteps = n`. -/
def setRemainderSteps (n : Int) (h : Head) : Head :=
  { h with Page := { h.Page with RemainderSteps := n } }

/-- `if(!Page.RemainderSteps)Page.RemainderSteps=1`. -/
def atLeastOne (h : Head) : Head :=
  if h.Page.RemainderSteps = 0 then h.setRemainderSteps 1 else h

/-- The countdown is within 40 steps of an estimate; both comparisons are unsigned. -/
def Near (EStimateValueA : Nat) (RemainderSteps : Int) : Prop :=
  u32 RemainderSteps < u32 (EStimateValueA + 40) ∧ EStimateValueA < u32 (RemainderSteps + 40)

instance (EStimateValueA : Nat) (RemainderSteps : Int) :
    Decidable (Near EStimateValueA RemainderSteps) :=
  inferInstanceAs (Decidable (_ ∧ _))

/-- The estimate loop of `PageCompensationByGap` over the label boundaries between the print head
and the sensor, and `DragFlag`. -/
def estimate (Temp LableHeight : Nat) : List Nat → Head → Head × Bool
  | [], h => (h, false)
  | i :: is, h =>
    if u32 (i * LableHeight) < Temp then
      let EStimateValueA := u32 (Temp - i * LableHeight)
      if Near EStimateValueA h.Page.RemainderSteps then
        if h.Page.RemainderSteps < 20 then
          if u32 h.Page.RemainderSteps > EStimateValueA then
            ((h.setRemainderSteps (i32 EStimateValueA)).atLeastOne, false)
          else (h.atLeastOne, false)
        else ((h.setRemainderSteps (i32 EStimateValueA)).atLeastOne, false)
      else estimate Temp LableHeight is h
    else
      let EStimateValueA := u32 (i * LableHeight - Temp)
      if Near EStimateValueA h.Page.RemainderSteps then
        if h.Gap.LabelLength > u32 h.Page.RemainderSteps ∧ h.Page.RemainderSteps < 20 then
          let h := { h with
            Gap := { h.Gap with LabelLength := u32 (h.Gap.LabelLength - h.Page.RemainderSteps) } }
          ((h.setRemainderSteps 1).AuthenticPageMangement.atLeastOne, false)
        else ((h.setRemainderSteps (i32 Temp)).atLeastOne, false)
      else (h, true)

/-- The loop of `PageCompensationByGap` for a dragged label. -/
def drag (Temp : Nat) : List Nat → Head → Head
  | [], h => h
  | j :: js, h =>
    if Temp < u32 (j * h.Gap.LabelLength) then
      h.setRemainderSteps (if j = 1 then 1 else i32 (Temp - (j - 1) * h.Gap.LabelLength))
    else drag Temp js h

/-- `PageCompensationByGap`. -/
def PageCompensationByGap (h : Head) : Head :=
  if h.Gap.LabelLength < h.PrintPosAndGapValue ∧ h.Gap.LabelLength ≠ 0 then
    let Temp := u32 (h.PrintPosAndGapValue - 7)
    let (h, DragFlag) := estimate Temp h.Gap.LabelLength [1, 2, 3, 4] h
    if DragFlag then (drag Temp [1, 2, 3, 4] h).atLeastOne else h
  else if h.Gap.LabelLength ≠ 0 then
    if u32 h.Page.RemainderSteps > h.PrintPosAndGapValue / 2 then
      h.setRemainderSteps (i32 h.PrintPosAndGapValue)
    else h
  else h.setRemainderSteps (i32 h.PrintPosAndGapValue)

section

variable {h h' h'' : Head} {is : List Nat}

/-- Only the countdown, the page, the label's length and the count of labels change. -/
def Corrected (h h' : Head) : Prop :=
  ∃ RemainderSteps PageNum LabelLength CountLable,
    h' = { h with
      Page := { h.Page with RemainderSteps := RemainderSteps, PageNum := PageNum }
      Gap := { h.Gap with LabelLength := LabelLength, CountLable := CountLable } }

theorem Corrected.refl : Corrected h h := ⟨_, _, _, _, rfl⟩

theorem Corrected.trans (h₁ : Corrected h h') (h₂ : Corrected h' h'') : Corrected h h'' := by
  obtain ⟨_, _, _, _, rfl⟩ := h₁
  obtain ⟨_, _, _, _, rfl⟩ := h₂
  exact ⟨_, _, _, _, rfl⟩

theorem corrected_setRemainderSteps (r : Int) : Corrected h (h.setRemainderSteps r) :=
  ⟨_, _, _, _, rfl⟩

theorem corrected_AuthenticPageMangement : Corrected h h.AuthenticPageMangement := by
  unfold AuthenticPageMangement
  split <;> exact ⟨_, _, _, _, rfl⟩

theorem corrected_atLeastOne : Corrected h h.atLeastOne := by
  unfold atLeastOne
  split
  · exact corrected_setRemainderSteps 1
  · exact .refl

theorem corrected_estimate (Temp LableHeight : Nat) :
    Corrected h (estimate Temp LableHeight is h).1 := by
  have hset (r : Int) : Corrected h (h.setRemainderSteps r).atLeastOne :=
    (corrected_setRemainderSteps r).trans corrected_atLeastOne
  have hturn (LabelLength : Nat) :
      Corrected h
        ({ h with Gap := { h.Gap with LabelLength := LabelLength } }.setRemainderSteps
          1).AuthenticPageMangement.atLeastOne := by
    have hcut : Corrected h { h with Gap := { h.Gap with LabelLength := LabelLength } } :=
      ⟨_, _, _, _, rfl⟩
    exact (hcut.trans (corrected_setRemainderSteps 1)).trans
      (corrected_AuthenticPageMangement.trans corrected_atLeastOne)
  induction is with
  | nil => exact .refl
  | cons i is ih =>
    unfold estimate
    dsimp only
    split
    · split
      · split
        · split
          · dsimp only
            exact hset _
          · exact corrected_atLeastOne
        · dsimp only
          exact hset _
      · exact ih
    · split
      · split
        · exact hturn _
        · dsimp only
          exact hset _
      · exact .refl

theorem corrected_drag (Temp : Nat) : Corrected h (drag Temp is h) := by
  induction is with
  | nil => exact .refl
  | cons j js ih =>
    unfold drag
    split
    · exact corrected_setRemainderSteps _
    · exact ih

/-- The compensation moves the label's boundary and leaves everything else alone. -/
theorem corrected_PageCompensationByGap : Corrected h h.PageCompensationByGap := by
  unfold PageCompensationByGap
  dsimp only
  split
  · split
    · exact (corrected_estimate _ _).trans ((corrected_drag _).trans corrected_atLeastOne)
    · exact corrected_estimate _ _
  · split
    · split
      · exact corrected_setRemainderSteps _
      · exact .refl
    · exact corrected_setRemainderSteps _

end

/-- The motor stops and the sensor's error is recorded. -/
def sensorError (h : Head) : Head :=
  { h with
    SMP := { h.SMP with Suspend := true }
    Page := { h.Page with SensorError := true } }

/-- `HandleLastAuthenticPageGap`: a gap that does not end. -/
def HandleLastAuthenticPageGap (h : Head) : Head :=
  let h := { h with
    Gap := { h.Gap with
      CountLastAuthenticPageGap := u32 (h.Gap.CountLastAuthenticPageGap + 1)
      LabelGapLength := u32 (h.Gap.StepsCount - h.Gap.StepsGapPos) } }
  if h.Gap.LabelGapLength > 80 ∧ h.Gap.CountLastAuthenticPageGap > 270 ∧ h.Gap.LockPage = false then
    let h := { h with Gap := { h.Gap with LockPage := true } }.sensorError
    match h.PrintBLink with
    | LLDataTempA :: _ => { h with Page := { h.Page with PageNum := LLDataTempA.PageNum } }
    | [] => h
  else h

/-- The step is counted, and whether the sample is below the threshold is shifted in. -/
def gapCount (below : Bool) (h : Head) : Head :=
  { h with
    Gap := { h.Gap with
      StepsCount := u32 (h.Gap.StepsCount + 1)
      CountGap := if below then h.Gap.CountGap <<< 1 ||| 1 else h.Gap.CountGap >>> 1 } }

/-- The label length that is measured where a gap comes to the sensor. -/
def measured (Gap : GAP) : Nat :=
  let LabelLength := u32 (Gap.StepsCount - Gap.StepsGapPos)
  if Gap.LableLengthCP ≠ 0 ∧ (u32 (LabelLength + 5) < Gap.LableLengthCP ∨
      LabelLength > u32 (Gap.LableLengthCP + 5)) then Gap.LableLengthCP
  else LabelLength

/-- A gap comes to the sensor. -/
def gapIn (h : Head) : Head :=
  if h.Gap.CountGap = 7 ∧ h.Gap.GapIn = false then
    { h with
      Gap := { h.Gap with
        LabelLength := if h.Gap.StepsGapPos ≠ 0 then measured h.Gap else h.Gap.LabelLength
        StepsGapPos := h.Gap.StepsCount
        GapIn := true
        CountLastAuthenticPageGap := 0
        LockPage := false } }
  else h

/-- The gap leaves the sensor. -/
def gapOut (h : Head) : Head :=
  { h with
    Gap := { h.Gap with
      LabelGapLength := u32 (h.Gap.StepsCount - h.Gap.StepsGapPos)
      GapIn := false
      LockPage := false } }

/-- What a step of `GapCalculate` does to the globals of the motor interrupt. -/
def gapStep (below : Bool) (h : Head) : Head :=
  let h := (h.gapCount below).gapIn
  if h.Gap.GapIn then
    if h.Gap.CountGap = 1 then
      let h := h.gapOut
      let h := if h.SMP.CalculateCompensate then h.PageCompensationByGap else h
      if h.Gap.LabelGapLength > 80 then h.sensorError else h
    else h.HandleLastAuthenticPageGap
  else h

/-- `FindGapOperation`: the measurements are forgotten. -/
def FindGapOperation (h : Head) : Head :=
  { h with
    Gap :=
      { LabelLength := 0, StepsCount := 0, StepsGapPos := 0, LabelGapLength := 0, CountGap := 0
        GapIn := false, LableLengthCP := 0, CountLable := 0, CountLastAuthenticPageGap := 0
        LockPage := false } }

end Head

/-- The motor interrupt and its sensor. -/
structure Printing where
  head : Head
  sensor : Sensor

/-- `GapCalculate`, with the sample `adc`. -/
def Printing.GapCalculate (adc : Nat) (s : Printing) : Printing where
  head := s.head.gapStep (adc < (s.sensor.sample adc).threshold)
  sensor := s.sensor.sample adc

end ThermalPrinter
