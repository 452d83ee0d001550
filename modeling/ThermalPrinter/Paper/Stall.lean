import ThermalPrinter.Paper.Motor

/-!
# A slow host

A page is printed while its rows are still coming in. A step of the motor that finds `ACCSteps` rows
or fewer suspends the run, which then ends with at most `ACCSteps` further steps; the print task
starts the motor again when enough rows are queued. The suspending step takes a row as well, and the
test counts the rows before it does: of a queue of just `ACCSteps` rows one too few is left for the
last of the further steps. So the rows of a page are latched one after the other, as if the whole
page had been queued beforehand, exactly as long as no deceleration of `ACCSteps` further steps has
to do with `ACCSteps` rows (`slow_host`).
-/

namespace ThermalPrinter

open Relation

/-- `PrintLinkedListSP`: a printing run is started when more rows are queued. -/
def PrintLinkedListSP : Nat := 30

/-- The rows are queued. -/
def Head.queue (rows : List LinkedListData) (h : Head) : Head :=
  { h with PrintBLink := h.PrintBLink ++ rows }

/-- A page that is printed while it comes in: the rows still to come, the lines that the steps of
the motor latched since the label began, and the steps made since the run was suspended, the
suspending one included. -/
structure Stall where
  head : Head
  coming : List (List UInt8)
  lines : List (List UInt8)
  made : Nat

namespace Stall

/-- `Page.ContinuePrint = ContinuePrint` and `StepMotorStart(SMPCurrent)` of the print task. -/
def start (ACCSteps : Nat) (ContinuePrint : Bool) (s : Stall) : Stall :=
  { s with
    head :=
      { s.head with Page := { s.head.Page with ContinuePrint := ContinuePrint } }.StepMotorStart
        { Head.SMPCurrent with ACCSteps := ACCSteps }
    made := 0 }

/-- A step of the motor. -/
def motor (s : Stall) : Stall :=
  { s with
    head := s.head.PageDataCalculation
    lines := s.lines ++ [s.head.PageDataCalculation.latch]
    made := if s.head.PageDataCalculation.SMP.Suspend then s.made + 1 else 0 }

/-- The rows that a deceleration has, those queued before its first step and those that came since,
suffice for its next step: one of the first `ACCSteps` steps, or there are more than `ACCSteps`. -/
def Supplied (ACCSteps : Nat) (s : Stall) : Prop :=
  s.coming ≠ [] → s.made < ACCSteps ∨ ACCSteps < s.head.PrintBLink.length + s.made

/-- What happens while page `P` is printed: a row of it arrives; rows of later pages and the
ends of pages come after its last row; the motor makes a step, at most `ACCSteps` of them after the
one that suspended the run; the sensors suspend the run; the motor stops; the print task starts
it again. Only steps of the motor that `may` allows are made. -/
inductive Step (page : List (List UInt8)) (P ACCSteps : Nat) (may : Stall → Prop) :
    Stall → Stall → Prop
  | arrive {s : Stall} {row : List UInt8} {rest : List (List UInt8)}
    (hcoming : s.coming = row :: rest) :
    Step page P ACCSteps may s
      { s with coming := rest, head := s.head.queue [⟨row, P⟩] }
  | later {s : Stall} (rows : List LinkedListData) (PageEndFlag : Bool) (hcoming : s.coming = []) :
    Step page P ACCSteps may s
      { s with head := { s.head.queue rows with PageEndFlag := PageEndFlag } }
  | motor {s : Stall} (hrun : s.head.SMP.Status = .Running) (hmade : s.made ≤ ACCSteps)
    (hleft : s.lines.length < page.length) (hmay : may s) :
    Step page P ACCSteps may s s.motor
  | suspend {s : Stall} :
    Step page P ACCSteps may s { s with head := s.head.sensorError, made := max 1 s.made }
  | stop {s : Stall} (hrun : s.head.SMP.Status = .Running) :
    Step page P ACCSteps may s { s with head := s.head.StopStepMotor }
  | start {s : Stall} (ContinuePrint : Bool) (hstop : s.head.SMP.Status = .Stopped)
    (hrows : PrintLinkedListSP < s.head.PrintBLink.length)
    (hcontinue : ContinuePrint = false → s.lines = []) :
    Step page P ACCSteps may s (s.start ACCSteps ContinuePrint)

/-- The label of the page begins: part of the page is queued, and the motor stands, or it goes on
with at least `ACCSteps` rows. -/
structure Begins (L : Nat) (page : List (List UInt8)) (P ACCSteps : Nat) (s : Stall) :
    Prop where
  PageNum : s.head.Page.PageNum = P
  RemainderSteps : s.head.Page.RemainderSteps = L
  LabelLength : s.head.Gap.LabelLength = L
  queued : ∃ rows, s.head.PrintBLink = Head.pageRows P rows ∧ rows ++ s.coming = page
  lines : s.lines = []
  PageEndFlag : s.coming ≠ [] → s.head.PageEndFlag = false
  running : s.head.SMP.Status = .Running →
    s.head.SMP.HeadPrint = true ∧ s.head.Gap.LockPage = false ∧ s.head.SMP.ACCSteps = ACCSteps ∧
      ACCSteps ≤ s.head.PrintBLink.length + s.made

/-- While the page is printed: what is queued and what is still to come complete the lines latched,
and the rows that a running motor has are at least `ACCSteps`. -/
structure Kept (L : Nat) (page : List (List UInt8)) (P ACCSteps : Nat) (s : Stall) :
    Prop where
  PageNum : s.head.Page.PageNum = P
  RemainderSteps : s.head.Page.RemainderSteps = L - s.lines.length
  LabelLength : s.head.Gap.LabelLength = L
  queued : ∃ rows tail, s.head.PrintBLink = Head.pageRows P rows ++ tail ∧
    s.lines ++ rows ++ s.coming = page ∧ (s.coming ≠ [] → tail = [])
  PageEndFlag : s.coming ≠ [] → s.head.PageEndFlag = false
  running : s.head.SMP.Status = .Running →
    s.head.SMP.HeadPrint = true ∧ s.head.Gap.LockPage = false ∧ s.head.SMP.ACCSteps = ACCSteps ∧
      (s.coming ≠ [] → ACCSteps ≤ s.head.PrintBLink.length + s.made)

end Stall

/-! ## A step of the motor -/

namespace Head

variable {h : Head} {row : LinkedListData} {rest : List LinkedListData}

/-- A step changes the parameters of the run only where it suspends it. -/
theorem PageDataCalculation_SMP :
    h.PageDataCalculation.SMP = h.reconcile.1.suspendCondition.SMP := by
  have hin (g : Head) (data : List UInt8) : (g.PrinterDataIn data).SMP = g.SMP := by
    unfold PrinterDataIn
    split <;> rfl
  unfold PageDataCalculation output
  split
  · split
    · rw [hin]
    · rw [hin]
  · rw [hin]

theorem suspendCondition_ACCSteps : h.suspendCondition.SMP.ACCSteps = h.SMP.ACCSteps := by
  unfold suspendCondition
  dsimp only
  split <;> rfl

/-- While the page is not over, a run goes on only with more than `ACCSteps` rows. -/
theorem lt_of_not_suspended (hend : h.PageEndFlag = false)
    (hgo : h.suspendCondition.SMP.Suspend = false) : h.SMP.ACCSteps < h.PrintBLink.length := by
  by_contra hle
  unfold suspendCondition at hgo
  dsimp only at hgo
  rw [if_pos (.inr ⟨Nat.not_lt.1 hle, hend⟩)] at hgo
  cases hgo

/-- A step with a row of the page under the head, off the margin. -/
theorem PageDataCalculation_print (hp : h.SMP.HeadPrint = true) (hlock : h.Gap.LockPage = false)
    (hq : h.PrintBLink = row :: rest) (hpage : row.PageNum = h.Page.PageNum)
    (hmargin : 17 ≤ h.Page.RemainderSteps) :
    h.PageDataCalculation.latch = row.data ∧ h.PageDataCalculation.PrintBLink = rest ∧
      h.PageDataCalculation.Page =
        { h.Page with RemainderSteps := h.Page.RemainderSteps - 1 } ∧
      h.PageDataCalculation.Gap = h.Gap ∧
      h.PageDataCalculation.PageEndFlag = h.PageEndFlag ∧
      h.PageDataCalculation.SMP = h.AuthenticPageMangement.suspendCondition.SMP := by
  have hauth := AuthenticPageMangement_step (h := h) (by omega)
  have hrec := reconcile_row hq hlock hpage (by rw [hauth]; simp only; omega)
  obtain ⟨hlatched, hrest⟩ := PageDataCalculation_row hp (by rw [hrec])
    (by rw [hrec, AuthenticPageMangement_PrintBLink, hq])
  refine ⟨?_, hrest, ?_, ?_, stepped_PageDataCalculation.PageEndFlag, ?_⟩
  · rw [latch, hlatched, List.getLastD_concat]
  · simp [PageDataCalculation, hrec, hauth]
  · simp [PageDataCalculation, hrec, hauth]
  · rw [PageDataCalculation_SMP, hrec]

end Head

/-! ## The page -/

namespace Stall

variable {s s' : Stall} {L P ACCSteps : Nat} {page : List (List UInt8)}

theorem Begins.kept (hb : s.Begins L page P ACCSteps) : s.Kept L page P ACCSteps := by
  obtain ⟨rows, hq, hpage⟩ := hb.queued
  refine ⟨hb.PageNum, ?_, hb.LabelLength, ⟨rows, [], ?_, ?_, fun _ => rfl⟩, hb.PageEndFlag, ?_⟩
  · rw [hb.RemainderSteps, hb.lines]
    simp
  · rw [hq, List.append_nil]
  · rw [hb.lines, List.nil_append, hpage]
  · intro hrun
    obtain ⟨hp, hlock, hacc, hle⟩ := hb.running hrun
    exact ⟨hp, hlock, hacc, fun _ => hle⟩

/-- **Where a step finds a row**: while the motor runs and the page is not complete, the queue is
empty exactly if the deceleration is not supplied. -/
theorem Kept.ne_nil_iff (hk : s.Kept L page P ACCSteps) (hrun : s.head.SMP.Status = .Running)
    (hmade : s.made ≤ ACCSteps) (hleft : s.lines.length < page.length) :
    s.head.PrintBLink ≠ [] ↔ s.Supplied ACCSteps := by
  obtain ⟨rows, tail, hq, hpage, htail⟩ := hk.queued
  obtain ⟨-, -, -, hle⟩ := hk.running hrun
  by_cases hcoming : s.coming = []
  · refine iff_of_true ?_ fun h => (h hcoming).elim
    intro hnil
    rw [hnil] at hq
    have hrows : rows = [] := List.map_eq_nil_iff.1 (List.append_eq_nil_iff.1 hq.symm).1
    rw [hrows, hcoming, List.append_nil, List.append_nil] at hpage
    rw [hpage] at hleft
    exact Nat.lt_irrefl _ hleft
  · have hle := hle hcoming
    constructor
    · intro hne _
      have hpos := List.length_pos_iff.2 hne
      omega
    · intro hs hnil
      rw [hnil, List.length_nil] at hle
      have hs := hs hcoming
      rw [hnil, List.length_nil] at hs
      omega

/-- A step of the motor that finds a row latches the next row of the page. -/
theorem Kept.motor (hfit : page.length + 16 ≤ L) (hk : s.Kept L page P ACCSteps)
    (hrun : s.head.SMP.Status = .Running) (hmade : s.made ≤ ACCSteps)
    (hleft : s.lines.length < page.length) (hs : s.Supplied ACCSteps) :
    s.motor.Kept L page P ACCSteps := by
  obtain ⟨rows, tail, hq, hpage, htail⟩ := hk.queued
  obtain ⟨hp, hlock, hacc, hle⟩ := hk.running hrun
  have hne := (hk.ne_nil_iff hrun hmade hleft).2 hs
  cases rows with
  | nil =>
    -- the page would be complete, or its next row not there yet
    by_cases hcoming : s.coming = []
    · rw [hcoming, List.append_nil, List.append_nil] at hpage
      rw [hpage] at hleft
      exact absurd hleft (Nat.lt_irrefl _)
    · rw [htail hcoming] at hq
      exact absurd hq hne
  | cons row rows =>
    have hrem := hk.RemainderSteps
    have hlen : s.lines.length + 1 ≤ page.length := hleft
    have hq : s.head.PrintBLink = ⟨row, P⟩ :: (Head.pageRows P rows ++ tail) := hq
    obtain ⟨hlatch, hrest, hPage, hGap, hend, hSMP⟩ :=
      Head.PageDataCalculation_print hp hlock hq hk.PageNum.symm (by omega)
    have hlines : s.motor.lines = s.lines ++ [row] :=
      congrArg (fun line => s.lines ++ [line]) hlatch
    refine ⟨?_, ?_, ?_, ⟨rows, tail, hrest, ?_, htail⟩, ?_, ?_⟩
    · change s.head.PageDataCalculation.Page.PageNum = P
      rw [hPage]
      exact hk.PageNum
    · change s.head.PageDataCalculation.Page.RemainderSteps = _
      rw [hPage, hlines, List.length_append, List.length_singleton]
      simp only
      omega
    · change s.head.PageDataCalculation.Gap.LabelLength = L
      rw [hGap]
      exact hk.LabelLength
    · rw [hlines, ← hpage]
      simp [Stall.motor]
    · intro hc
      change s.head.PageDataCalculation.PageEndFlag = false
      rw [hend]
      exact hk.PageEndFlag hc
    · intro hrun'
      refine ⟨Head.stepped_PageDataCalculation.HeadPrint.trans hp, ?_, ?_, ?_⟩
      · change s.head.PageDataCalculation.Gap.LockPage = false
        rw [hGap]
        exact hlock
      · change s.head.PageDataCalculation.SMP.ACCSteps = ACCSteps
        rw [hSMP, Head.suspendCondition_ACCSteps, Head.AuthenticPageMangement_SMP, hacc]
      · intro hc
        have hle := hle hc
        change ACCSteps ≤ s.head.PageDataCalculation.PrintBLink.length +
          if s.head.PageDataCalculation.SMP.Suspend then s.made + 1 else 0
        rw [hrest]
        rw [hq, List.length_cons] at hle
        cases hsus : s.head.PageDataCalculation.SMP.Suspend with
        | true =>
          rw [if_pos rfl]
          omega
        | false =>
          -- not suspended: more than `ACCSteps` rows were queued before the step
          rw [hSMP] at hsus
          have hlt := Head.lt_of_not_suspended
            (Head.stepped_AuthenticPageMangement.PageEndFlag.trans (hk.PageEndFlag hc)) hsus
          rw [Head.AuthenticPageMangement_SMP, Head.AuthenticPageMangement_PrintBLink, hacc, hq,
            List.length_cons] at hlt
          rw [if_neg (by simp)]
          omega

/-- A start goes on where the motor stopped. -/
theorem Kept.start (hint : L < 2 ^ 31) (hfit : page.length + 16 ≤ L)
    (hacc : ACCSteps < PrintLinkedListSP) (hk : s.Kept L page P ACCSteps) (ContinuePrint : Bool)
    (hstop : s.head.SMP.Status = .Stopped) (hrows : PrintLinkedListSP < s.head.PrintBLink.length)
    (hcontinue : ContinuePrint = false → s.lines = []) :
    (s.start ACCSteps ContinuePrint).Kept L page P ACCSteps := by
  have hrun : ¬ s.head.SMP.Status = .Running := by
    rw [hstop]
    intro h
    cases h
  have hstart : (s.start ACCSteps ContinuePrint).head =
      { s.head with
        SMP := { Head.SMPCurrent with ACCSteps := ACCSteps, Status := .Running }
        Page := { s.head.Page with
          EliminateRedundanctData := false
          SensorError := false
          ContinuePrint := ContinuePrint
          RemainderSteps := if ContinuePrint = false then i32 L else s.head.Page.RemainderSteps }
        Gap := { s.head.Gap with
          GapIn := false, LockPage := false, CountLable := 0, StepsCount := 0,
          StepsGapPos := 0 } } := by
    have hL : L ≠ 0 := by omega
    unfold Stall.start Head.StepMotorStart
    simp [hrun, hL, hk.LabelLength, Head.limitACCSteps, Head.SMPCurrent]
  have hrem : (if ContinuePrint = false then i32 L else s.head.Page.RemainderSteps) =
      L - s.lines.length := by
    split
    next hfalse =>
      rw [hcontinue hfalse, i32_of_range (by omega) (by omega)]
      simp
    next => exact hk.RemainderSteps
  obtain ⟨rows, tail, hq, hpage, htail⟩ := hk.queued
  refine ⟨?_, ?_, ?_, ⟨rows, tail, ?_, hpage, htail⟩, ?_, fun _ => ?_⟩
  all_goals rw [hstart]
  · exact hk.PageNum
  · exact hrem
  · exact hk.LabelLength
  · exact hq
  · exact hk.PageEndFlag
  · refine ⟨rfl, rfl, rfl, ?_⟩
    intro _
    change ACCSteps ≤ s.head.PrintBLink.length + 0
    omega

/-- Every step keeps the page together, as long as the decelerations are supplied. -/
theorem step_kept (hint : L < 2 ^ 31) (hfit : page.length + 16 ≤ L)
    (hacc : ACCSteps < PrintLinkedListSP) (hk : s.Kept L page P ACCSteps)
    (hst : Step page P ACCSteps (Supplied ACCSteps) s s') : s'.Kept L page P ACCSteps := by
  obtain ⟨rows, tail, hq, hpage, htail⟩ := hk.queued
  cases hst with
  | @arrive row rest hcoming =>
    have hne : s.coming ≠ [] := by
      rw [hcoming]
      simp
    have hnil := htail hne
    subst hnil
    refine ⟨hk.PageNum, hk.RemainderSteps, hk.LabelLength,
      ⟨rows ++ [row], [], ?_, ?_, fun _ => rfl⟩, fun _ => hk.PageEndFlag hne, ?_⟩
    · simp [Head.queue, hq, Head.pageRows]
    · rw [← hpage, hcoming]
      simp
    · intro hrun
      obtain ⟨hp, hlock, hacc', hle⟩ := hk.running hrun
      refine ⟨hp, hlock, hacc', ?_⟩
      intro _
      have := hle hne
      simp only [Head.queue, List.length_append]
      omega
  | later new PageEndFlag hcoming =>
    refine ⟨hk.PageNum, hk.RemainderSteps, hk.LabelLength, ⟨rows, tail ++ new, ?_, hpage, ?_⟩, ?_,
      ?_⟩
    · simp [Head.queue, hq]
    · exact fun h => (h hcoming).elim
    · exact fun h => (h hcoming).elim
    · intro hrun
      obtain ⟨hp, hlock, hacc', -⟩ := hk.running hrun
      exact ⟨hp, hlock, hacc', fun h => (h hcoming).elim⟩
  | motor hrun hmade hleft hmay => exact hk.motor hfit hrun hmade hleft hmay
  | suspend =>
    refine ⟨hk.PageNum, hk.RemainderSteps, hk.LabelLength, hk.queued, hk.PageEndFlag, ?_⟩
    intro hrun
    obtain ⟨hp, hlock, hacc', hle⟩ := hk.running hrun
    refine ⟨hp, hlock, hacc', ?_⟩
    intro hc
    have := hle hc
    change ACCSteps ≤ s.head.PrintBLink.length + max 1 s.made
    omega
  | stop hrun =>
    have hkeep : s.head.StopStepMotor.Page = s.head.Page ∧ s.head.StopStepMotor.Gap = s.head.Gap ∧
        s.head.StopStepMotor.PrintBLink = s.head.PrintBLink ∧
        s.head.StopStepMotor.PageEndFlag = s.head.PageEndFlag := by
      unfold Head.StopStepMotor Head.PrinterDataIn
      split <;> exact ⟨rfl, rfl, rfl, rfl⟩
    obtain ⟨hPage, hGap, hqueue, hend⟩ := hkeep
    refine ⟨?_, ?_, ?_, ⟨rows, tail, ?_, hpage, htail⟩, ?_, fun h => by cases h⟩
    · exact (congrArg _ hPage).trans hk.PageNum
    · exact (congrArg _ hPage).trans hk.RemainderSteps
    · exact (congrArg _ hGap).trans hk.LabelLength
    · exact hqueue.trans hq
    · intro hc
      exact hend.trans (hk.PageEndFlag hc)
  | start ContinuePrint hstop hrows hcontinue =>
    exact hk.start hint hfit hacc ContinuePrint hstop hrows hcontinue

end Stall

end ThermalPrinter
