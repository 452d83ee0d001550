import ThermalPrinter.Lib.Runs
import ThermalPrinter.Paper.Compensation

/-!
# The countdown of a label

`Page.RemainderSteps` turns the page by an equality test, so it must never pass zero. It is at
least 1 in every run of motor starts, printing steps, gap steps and changes by the tasks in which no
label of `2 ^ 31` steps is measured (`countdown_positive`). A label of that length does not fit the
counter, which is an `int`: then the next start sets it below zero (`long_label_negative`).
-/

namespace ThermalPrinter

namespace Head

variable {h : Head} {L i j n : Nat} {is : List Nat}

/-! ## The compensation -/

/-- What the compensation keeps: the countdown is positive, the label is not lengthened, and its
length is not made zero. -/
structure Compensated (h h' : Head) : Prop where
  counting : h'.Counting
  le : h'.Gap.LabelLength ≤ h.Gap.LabelLength
  pos : 0 < h.Gap.LabelLength → 0 < h'.Gap.LabelLength
  LableLengthCP : h'.Gap.LableLengthCP = h.Gap.LableLengthCP

/-- Setting the countdown. -/
theorem compensated_setRemainderSteps {r : Int} (hc : h.Counting) (h₀ : 1 ≤ r) (h₁ : r < 2 ^ 31) :
    h.Compensated (h.setRemainderSteps r) :=
  ⟨⟨hc.PrintPosAndGapValue, h₀, h₁⟩, Nat.le_refl _, id, rfl⟩

theorem compensated_self (hc : h.Counting) : h.Compensated h := ⟨hc, Nat.le_refl _, id, rfl⟩

/-- The estimate loop. A dragged label is left as it is. -/
theorem estimate_compensated (hc : h.Counting) (hL : h.Gap.LabelLength = L) (h₁ : L < 105)
    (his : ∀ i ∈ is, i < 5) :
    h.Compensated (estimate 98 L is h).1 ∧
      ((estimate 98 L is h).2 = true → (estimate 98 L is h).1 = h) := by
  induction is with
  | nil => exact ⟨compensated_self hc, fun h => absurd h Bool.false_ne_true⟩
  | cons i is ih =>
    have hpos := hc.pos
    have hint := hc.int
    have hi : i * L < 2 ^ 32 := by
      have := Nat.mul_le_mul (Nat.le_of_lt (his i (by simp))) (Nat.le_of_lt h₁)
      omega
    by_cases hE : i * L < 98
    · by_cases hnear : Near (98 - i * L) h.Page.RemainderSteps
      · rw [estimate_at hc hE hnear]
        have hE' : (i * L : Int) < 98 := by exact_mod_cast hE
        have hE₀ : (0 : Int) ≤ i * L := by exact_mod_cast Nat.zero_le (i * L)
        refine ⟨compensated_setRemainderSteps hc ?_ ?_, fun h => absurd h Bool.false_ne_true⟩
        · split <;> omega
        · split <;> omega
      · rw [estimate_next hE hnear]
        exact ih fun i hi => his i (List.mem_cons_of_mem _ hi)
    · by_cases hnear : Near (i * L - 98) h.Page.RemainderSteps
      · by_cases hturn : h.Page.RemainderSteps < h.Gap.LabelLength ∧ h.Page.RemainderSteps < 20
        · rw [estimate_turn hc (by omega) hi hnear hturn.1 hturn.2 (by omega)]
          have hcut : (u32 (h.Gap.LabelLength - h.Page.RemainderSteps) : Int) =
              h.Gap.LabelLength - h.Page.RemainderSteps := u32_of_range (by omega) (by omega)
          refine ⟨⟨⟨hc.PrintPosAndGapValue, ?_, ?_⟩, ?_, fun _ => ?_, rfl⟩,
            fun h => absurd h Bool.false_ne_true⟩ <;> simp only <;> omega
        · rw [estimate_past hc (by omega) hi hnear hturn]
          exact ⟨compensated_setRemainderSteps hc (by decide) (by decide),
            fun h => absurd h Bool.false_ne_true⟩
      · rw [estimate_far (by omega) hi hnear]
        exact ⟨compensated_self hc, fun _ => rfl⟩

/-- The loop for a dragged label, from label `j` on: it moves the countdown to a boundary before
the sensor, or leaves it. -/
theorem drag_compensated (hL : h.Gap.LabelLength < 105) (hj : 1 ≤ j) (hlen : j + n ≤ 5)
    (hbefore : (j - 1) * h.Gap.LabelLength ≤ 98) :
    drag 98 (List.range' j n) h = h ∨
      ∃ r : Int, 0 ≤ r ∧ r < 2 ^ 31 ∧ drag 98 (List.range' j n) h = h.setRemainderSteps r := by
  induction n generalizing j with
  | zero => exact .inl rfl
  | succ n ih =>
    have hint : j * h.Gap.LabelLength < 2 ^ 32 := by
      have := Nat.mul_le_mul (by omega : j ≤ 4) (Nat.le_of_lt hL)
      omega
    rw [List.range'_succ, drag, u32_mul hint]
    by_cases hpast : 98 < j * h.Gap.LabelLength
    · rw [if_pos hpast]
      refine .inr ⟨_, ?_, ?_, rfl⟩
      all_goals
        have hprev : ((j : Int) - 1) * h.Gap.LabelLength = ((j - 1) * h.Gap.LabelLength : Nat) := by
          push_cast [hj]
          rfl
        split
        · decide
        · rw [hprev, i32_of_range (by omega) (by omega)]
          omega
    · rw [if_neg hpast]
      exact ih (by omega) (by omega) (by rw [Nat.add_sub_cancel]; omega)

theorem atLeastOne_setRemainderSteps (r : Int) :
    (h.setRemainderSteps r).atLeastOne = h.setRemainderSteps (if r = 0 then 1 else r) := by
  unfold atLeastOne setRemainderSteps
  simp only
  split <;> rfl

/-- **The compensation keeps the countdown positive and does not make the label's length zero.** -/
theorem compensation_compensated (hc : h.Counting) : h.Compensated h.PageCompensationByGap := by
  have hpos := hc.pos
  rcases Nat.eq_zero_or_pos h.Gap.LabelLength with h₀ | h₀
  · have hcomp : h.PageCompensationByGap = h.setRemainderSteps 105 := by
      rw [PageCompensationByGap, if_neg (fun h => h.2 h₀), if_neg (fun h => h h₀),
        hc.PrintPosAndGapValue, i32_of_range (by decide) (by decide)]
      rfl
    rw [hcomp]
    exact compensated_setRemainderSteps hc (by decide) (by decide)
  by_cases h₁ : h.Gap.LabelLength < 105
  · have hest : h.Compensated (estimate 98 h.Gap.LabelLength [1, 2, 3, 4] h).1 ∧ _ :=
      estimate_compensated hc rfl h₁ (by decide)
    cases hdrag : (estimate 98 h.Gap.LabelLength [1, 2, 3, 4] h).2 with
    | false =>
      rw [compensation_of_estimate hc h₀ h₁ (Prod.ext rfl hdrag)]
      exact hest.1
    | true =>
      rw [compensation_of_drag hc h₀ h₁ (Prod.ext (hest.2 hdrag) hdrag)]
      rcases drag_compensated (j := 1) (n := 4) h₁ (by decide) (by decide) (by simp) with
        hsame | ⟨r, hr₀, hr₁, hset⟩
      · rw [show [1, 2, 3, 4] = List.range' 1 4 from rfl, hsame, atLeastOne_of_ne (by omega)]
        exact compensated_self hc
      · rw [show [1, 2, 3, 4] = List.range' 1 4 from rfl, hset, atLeastOne_setRemainderSteps]
        refine compensated_setRemainderSteps hc ?_ ?_ <;> split <;> omega
  · rw [compensation_long hc (by omega)]
    split
    · exact compensated_setRemainderSteps hc (by decide) (by decide)
    · exact compensated_self hc

/-! ## The other steps -/

/-- What one step of the countdown keeps: the countdown is positive, and the length it is reloaded
with fits an `int`. -/
structure CountsDown (h : Head) : Prop where
  counting : h.Counting
  LabelLength : h.Gap.LabelLength < 2 ^ 31

/-- A state with the same counters. -/
theorem CountsDown.congr {h' : Head} (hk : h.CountsDown)
    (hP : h'.PrintPosAndGapValue = h.PrintPosAndGapValue)
    (hR : h'.Page.RemainderSteps = h.Page.RemainderSteps) (hG : h'.Gap = h.Gap) :
    h'.CountsDown :=
  ⟨⟨hP ▸ hk.counting.PrintPosAndGapValue, hR ▸ hk.counting.pos, hR ▸ hk.counting.int⟩,
    hG ▸ hk.LabelLength⟩

/-- The countdown is reloaded with the label's length, or 2400. -/
theorem CountsDown.reload (hk : h.CountsDown) :
    1 ≤ (if h.Gap.LabelLength ≠ 0 then i32 h.Gap.LabelLength else 2400) ∧
      (if h.Gap.LabelLength ≠ 0 then i32 h.Gap.LabelLength else 2400) < 2 ^ 31 := by
  have hlt := hk.LabelLength
  split
  · rw [i32_of_range (by omega) (by omega)]
    omega
  · decide

theorem authenticPageMangement_countsDown (hk : h.CountsDown) :
    h.AuthenticPageMangement.CountsDown := by
  have hpos := hk.counting.pos
  by_cases hlast : h.Page.RemainderSteps = 1
  · rw [AuthenticPageMangement_turn hlast]
    exact ⟨⟨hk.counting.PrintPosAndGapValue, hk.reload.1, hk.reload.2⟩, hk.LabelLength⟩
  · rw [AuthenticPageMangement_step hlast]
    refine ⟨⟨hk.counting.PrintPosAndGapValue, ?_, ?_⟩, hk.LabelLength⟩
    · simp only
      omega
    · have := hk.counting.int
      simp only
      omega

/-- Discarding rows does not move the counters. -/
theorem redundantDataProcessing_countsDown (hk : h.CountsDown) (waiting : Bool)
    (delays : List (List LinkedListData)) :
    (h.RedundantDataProcessing waiting delays).CountsDown := by
  unfold RedundantDataProcessing
  simp only []
  split <;> exact hk.congr rfl rfl rfl

theorem reconcile_countsDown (hk : h.CountsDown) : h.reconcile.1.CountsDown := by
  have hauth := authenticPageMangement_countsDown hk
  unfold reconcile
  split
  · split
    · split
      · split
        · exact hauth.congr rfl rfl rfl
        · exact hauth
      · split
        · exact redundantDataProcessing_countsDown hk false []
        · exact hauth
    · exact hk
  · exact hauth

/-- **A printing step.** -/
theorem pageDataCalculation_countsDown (hk : h.CountsDown) : h.PageDataCalculation.CountsDown := by
  have hsuspend : h.reconcile.1.suspendCondition.PrintPosAndGapValue =
      h.reconcile.1.PrintPosAndGapValue := by
    unfold suspendCondition
    simp only []
    split <;> rfl
  have hout (g : Head) (b : Bool) : (g.output b).PrintPosAndGapValue = g.PrintPosAndGapValue := by
    unfold output PrinterDataIn
    repeat' split
    all_goals rfl
  refine (reconcile_countsDown hk).congr ?_ ?_ ?_
  · rw [PageDataCalculation, hout, hsuspend]
  · rw [PageDataCalculation_Page]
  · rw [PageDataCalculation, output_Gap, suspendCondition_Gap]

/-- **The start of a motor run.** -/
theorem stepMotorStart_countsDown (hk : h.CountsDown) (CurrentSMP : StepMP) :
    (h.StepMotorStart CurrentSMP).CountsDown := by
  unfold StepMotorStart
  split
  · exact hk
  · refine ⟨⟨hk.counting.PrintPosAndGapValue, ?_, ?_⟩, hk.LabelLength⟩
    · simp only
      split
      · exact hk.reload.1
      · exact hk.counting.pos
    · simp only
      split
      · exact hk.reload.2
      · exact hk.counting.int

/-- The state in which `GapCalculate` calls the compensation. -/
def atCompensation (below : Bool) (h : Head) : Head := (h.gapCount below).gapIn.gapOut

theorem gapIn_counting (hc : h.Counting) : h.gapIn.Counting := by
  unfold gapIn
  split
  · exact ⟨hc.PrintPosAndGapValue, hc.pos, hc.int⟩
  · exact hc

theorem atCompensation_counting (hc : h.Counting) (below : Bool) :
    (h.atCompensation below).Counting := by
  have := gapIn_counting (h := h.gapCount below) ⟨hc.PrintPosAndGapValue, hc.pos, hc.int⟩
  exact ⟨this.PrintPosAndGapValue, this.pos, this.int⟩

theorem sensorError_counting (hc : h.Counting) : h.sensorError.Counting :=
  ⟨hc.PrintPosAndGapValue, hc.pos, hc.int⟩

theorem handleLastAuthenticPageGap_counting (hc : h.Counting) :
    h.HandleLastAuthenticPageGap.Counting := by
  unfold HandleLastAuthenticPageGap
  simp only []
  split
  · split <;> exact ⟨hc.PrintPosAndGapValue, hc.pos, hc.int⟩
  · exact ⟨hc.PrintPosAndGapValue, hc.pos, hc.int⟩

/-- **A gap step** keeps the countdown positive. -/
theorem gapStep_counting (hc : h.Counting) (below : Bool) : (h.gapStep below).Counting := by
  have hin := gapIn_counting (h := h.gapCount below) ⟨hc.PrintPosAndGapValue, hc.pos, hc.int⟩
  have hout : (h.gapCount below).gapIn.gapOut.Counting := atCompensation_counting hc below
  have hcomp := (compensation_compensated hout).counting
  unfold gapStep
  simp only []
  split
  · split
    · -- the gap leaves the sensor
      split
      · split
        · exact sensorError_counting hcomp
        · exact hcomp
      · split
        · exact sensorError_counting hout
        · exact hout
    · exact handleLastAuthenticPageGap_counting hin
  · exact hin

/-- **The page turns** after as many steps of the label as the countdown says. -/
theorem page_turns (n : Nat) (hR : h.Page.RemainderSteps = n + 1) :
    (AuthenticPageMangement^[n + 1] h).Page.PageNum = h.Page.PageNum + 1 := by
  induction n generalizing h with
  | zero => exact congrArg (·.Page.PageNum) (AuthenticPageMangement_turn hR)
  | succ n ih =>
    rw [Function.iterate_succ_apply, AuthenticPageMangement_step (by omega),
      ih (by simp only; omega)]

end Head

/-! ## Runs -/

namespace Printing

/-- What happens to the countdown: the start of a motor run, a printing step, a gap step with its
sample, `FindGapOperation`, and what the tasks and the rest of the interrupt change besides. -/
inductive Operation
  | start (CurrentSMP : StepMP)
  | motor
  | gap (adc : Nat)
  | findGap
  | tasks (SMP : StepMP) (PrintBLink : List LinkedListData)
      (ContinuePrint PageEndFlag gapCalculated : Bool)

/-- The state after an operation. -/
def next (s : Printing) : Operation → Printing
  | .start CurrentSMP => { s with head := s.head.StepMotorStart CurrentSMP }
  | .motor => { s with head := s.head.PageDataCalculation }
  | .gap adc => s.GapCalculate adc
  | .findGap => { s with head := s.head.FindGapOperation }
  | .tasks SMP PrintBLink ContinuePrint PageEndFlag gapCalculated =>
    { head := { s.head with
        SMP := SMP
        Page := { s.head.Page with ContinuePrint := ContinuePrint }
        PrintBLink := PrintBLink
        PageEndFlag := PageEndFlag }
      sensor := { s.sensor with gapCalculated := gapCalculated } }

/-- The state at boot. -/
def init : Printing := { head := Head.init, sensor := Sensor.init }

/-- One operation. -/
def Step (s t : Printing) : Prop := ∃ op, t = s.next op

/-- The label's length that a step leaves fits an `int`. -/
def Fits (_ t : Printing) : Prop := t.head.Gap.LabelLength < 2 ^ 31

instance (s t : Printing) : Decidable (Fits s t) := inferInstanceAs (Decidable (_ < _))

variable {s t : Printing}

/-- **One operation** keeps the countdown positive. -/
theorem step_countsDown (hk : s.head.CountsDown) (hfits : Fits s t) (hst : Step s t) :
    t.head.CountsDown := by
  obtain ⟨op, rfl⟩ := hst
  cases op with
  | start CurrentSMP => exact Head.stepMotorStart_countsDown hk CurrentSMP
  | motor => exact Head.pageDataCalculation_countsDown hk
  | gap adc => exact ⟨Head.gapStep_counting hk.counting _, hfits⟩
  | findGap =>
    exact ⟨⟨hk.counting.PrintPosAndGapValue, hk.counting.pos, hk.counting.int⟩, hfits⟩
  | tasks => exact ⟨⟨hk.counting.PrintPosAndGapValue, hk.counting.pos, hk.counting.int⟩, hfits⟩

theorem init_countsDown : init.head.CountsDown :=
  ⟨⟨rfl, by decide, by decide⟩, by decide⟩

/-- **The countdown never passes zero**, in every run from boot that measures no label of `2 ^ 31`
steps: it is at least 1 after every operation, so the page turns after as many more steps; and
where `GapCalculate` calls the compensation, the label's length is not made zero nor larger. -/
theorem countdown_positive (hrun : Relation.ReflTransGen (Runs.Guarded Step Fits) init t) :
    1 ≤ t.head.Page.RemainderSteps ∧
      (Head.AuthenticPageMangement^[t.head.Page.RemainderSteps.toNat] t.head).Page.PageNum =
        t.head.Page.PageNum + 1 ∧
      ∀ below, 0 < (t.head.atCompensation below).Gap.LabelLength →
        0 < (t.head.atCompensation below).PageCompensationByGap.Gap.LabelLength ∧
          (t.head.atCompensation below).PageCompensationByGap.Gap.LabelLength ≤
            (t.head.atCompensation below).Gap.LabelLength := by
  have hk : t.head.CountsDown := Runs.guarded_invariant (I := fun s => s.head.CountsDown)
    (fun s t hk hfits hst => step_countsDown hk hfits hst) hrun init_countsDown
  have hpos := hk.counting.pos
  refine ⟨hpos, ?_, ?_⟩
  · obtain ⟨n, hn⟩ : ∃ n : Nat, t.head.Page.RemainderSteps = n + 1 :=
      ⟨(t.head.Page.RemainderSteps - 1).toNat, by omega⟩
    rw [hn]
    exact Head.page_turns n hn
  · intro below h₀
    have hkept := Head.compensation_compensated (Head.atCompensation_counting hk.counting below)
    exact ⟨hkept.pos h₀, hkept.le⟩

/-- A printing run begins, and a gap passes the sensor: three samples below the threshold and three
above it. -/
def firstGap : List Operation :=
  [.start Head.SMPCurrent, .gap 0, .gap 0, .gap 0, .gap 0x3FF, .gap 0x3FF, .gap 0x3FF]

/-- Another gap comes behind a label of 66 steps, 60 of which are printed. -/
def secondGap : List Operation :=
  firstGap ++ (List.replicate 60 [.motor, .gap 0x3FF]).flatten ++
    [.gap 0, .gap 0, .gap 0, .gap 0x3FF]

/-- The second gap leaves the sensor, and the compensation sets the countdown. -/
theorem countdown_positive_gap :
    let s := secondGap.foldl next init
    let t := s.next (.gap 0x3FF)
    s.head.Page.RemainderSteps = 45 ∧ t.head.Page.RemainderSteps = 32 ∧
      t.head.Gap.LabelLength = 66 ∧
      (1 ≤ t.head.Page.RemainderSteps ∧
        (Head.AuthenticPageMangement^[t.head.Page.RemainderSteps.toNat] t.head).Page.PageNum =
          t.head.Page.PageNum + 1 ∧
        ∀ below, 0 < (t.head.atCompensation below).Gap.LabelLength →
          0 < (t.head.atCompensation below).PageCompensationByGap.Gap.LabelLength ∧
            (t.head.atCompensation below).PageCompensationByGap.Gap.LabelLength ≤
              (t.head.atCompensation below).Gap.LabelLength) := by
  intro s t
  have hfits : Runs.Along (fun s op => Fits s (s.next op)) next init secondGap := by
    decide +kernel
  have hrun : Relation.ReflTransGen (Runs.Guarded Step Fits) init s :=
    hfits.run fun s op h => ⟨⟨op, rfl⟩, h⟩
  exact ⟨by decide +kernel, by decide +kernel, by decide +kernel,
    countdown_positive (hrun.tail ⟨⟨.gap 0x3FF, rfl⟩, by decide +kernel⟩)⟩

/-- A gap step between two gaps only counts: the sample is no valid one, and the sensor waits for
the next gap. -/
structure Between (s : Printing) : Prop where
  CountGap : s.head.Gap.CountGap = 0
  GapIn : s.head.Gap.GapIn = false
  inited : s.sensor.inited = true
  minCount : s.sensor.minCount < 16
  threshold : s.sensor.threshold ≤ 0x3FF

/-- The state with another count of steps. -/
def countTo (n : Nat) (s : Printing) : Printing :=
  { s with head := { s.head with Gap := { s.head.Gap with StepsCount := n } } }

theorem next_between (hb : s.Between) : s.next (.gap 0x3FF) =
    s.countTo (u32 (s.head.Gap.StepsCount + 1)) := by
  have hsensor : s.sensor.sample 0x3FF = s.sensor := by
    have hmin := hb.minCount
    simp [Sensor.sample, Sensor.InitSharedGapArrays, hb.inited, Sensor.record, Sensor.calibrate,
      Nat.not_le.2 hmin]
  have hbelow : ¬ 0x3FF < s.sensor.threshold := Nat.not_lt.2 hb.threshold
  simp only [next, GapCalculate, hsensor, hbelow, decide_false]
  rw [Head.gapStep]
  simp [Head.gapCount, Head.gapIn, hb.CountGap, hb.GapIn, countTo]

/-- So do several. -/
theorem foldl_between (hb : s.Between) (k : Nat) (hlt : s.head.Gap.StepsCount + k < 2 ^ 32) :
    (List.replicate k (.gap 0x3FF)).foldl next s = s.countTo (s.head.Gap.StepsCount + k) := by
  induction k with
  | zero => rfl
  | succ k ih =>
    have hk : (s.countTo (s.head.Gap.StepsCount + k)).Between :=
      ⟨hb.CountGap, hb.GapIn, hb.inited, hb.minCount, hb.threshold⟩
    have hu : u32 ((s.head.Gap.StepsCount + k : Nat) + 1) = s.head.Gap.StepsCount + (k + 1) :=
      u32_natCast (k := s.head.Gap.StepsCount + (k + 1)) hlt
    rw [List.replicate_succ', List.foldl_append, ih (by omega), List.foldl_cons, List.foldl_nil,
      next_between hk]
    rw [show (s.countTo (s.head.Gap.StepsCount + k)).head.Gap.StepsCount =
      s.head.Gap.StepsCount + k from rfl, hu]
    rfl

/-- A gap comes to the sensor, and the label under the head is finished. -/
def lastGap : List Operation := [.gap 0, .gap 0, .gap 0] ++ List.replicate 105 .motor

/-- Two gaps with a label of `2 ^ 31` steps between them. -/
def longLabel : List Operation :=
  firstGap ++ (List.replicate (2 ^ 31 - 6) (.gap 0x3FF) ++ lastGap)

/-- **A label of `2 ^ 31` steps sets the countdown below zero.** -/
theorem long_label_negative :
    (longLabel.foldl next init).head.Page.RemainderSteps = -2 ^ 31 := by
  have hb : (firstGap.foldl next init).Between :=
    ⟨by decide +kernel, by decide +kernel, by decide +kernel, by decide +kernel, by decide +kernel⟩
  have hcount : (firstGap.foldl next init).head.Gap.StepsCount = 6 := by decide +kernel
  have hlast : (lastGap.foldl next
      ((firstGap.foldl next init).countTo (2 ^ 31))).head.Page.RemainderSteps = -2 ^ 31 := by
    decide +kernel
  rw [longLabel, List.foldl_append, List.foldl_append,
    foldl_between hb (2 ^ 31 - 6) (by rw [hcount]; decide), hcount,
    Nat.add_sub_cancel' (by decide : 6 ≤ 2 ^ 31)]
  exact hlast

end Printing

end ThermalPrinter
