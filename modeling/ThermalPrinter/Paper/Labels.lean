import ThermalPrinter.Paper.Head
import Mathlib.Logic.Function.Iterate

/-!
# Rows on labels

What one motor step latches (`output_eq`), and from this two results about whole labels. A step
prints a queued row on its own label and off the margin of 16 steps, except at the step that ends a
label (`step_right_iff`). And pages that fit their labels and are queued in advance are printed
each on its own label, row by row from its first step (`labels_printed`).
-/

namespace ThermalPrinter

namespace Head

variable {h h' h'' : Head} {row : LinkedListData} {rest : List LinkedListData}

/-! ## One step -/

/-- What a step of the label may change: whether the run is suspended, the label's counters, the
queue, and the latch. -/
def Stepped (h h' : Head) : Prop :=
  ∃ Suspend Page CountLable PrintBLink latched,
    h' = { h with
      SMP := { h.SMP with Suspend := Suspend }
      Page := Page
      Gap := { h.Gap with CountLable := CountLable }
      PrintBLink := PrintBLink
      latched := latched }

theorem Stepped.trans (h₁ : Stepped h h') (h₂ : Stepped h' h'') : Stepped h h'' := by
  obtain ⟨_, _, _, _, _, rfl⟩ := h₁
  obtain ⟨_, _, _, _, _, rfl⟩ := h₂
  exact ⟨_, _, _, _, _, rfl⟩

theorem Stepped.HeadPrint (hs : Stepped h h') : h'.SMP.HeadPrint = h.SMP.HeadPrint := by
  obtain ⟨_, _, _, _, _, rfl⟩ := hs
  rfl

theorem Stepped.Status (hs : Stepped h h') : h'.SMP.Status = h.SMP.Status := by
  obtain ⟨_, _, _, _, _, rfl⟩ := hs
  rfl

theorem Stepped.PageEndFlag (hs : Stepped h h') : h'.PageEndFlag = h.PageEndFlag := by
  obtain ⟨_, _, _, _, _, rfl⟩ := hs
  rfl

theorem stepped_AuthenticPageMangement : Stepped h h.AuthenticPageMangement := by
  unfold AuthenticPageMangement
  split <;> exact ⟨_, _, _, _, _, rfl⟩

theorem stepped_RedundantDataProcessing (waiting : Bool) (delays : List (List LinkedListData)) :
    Stepped h (h.RedundantDataProcessing waiting delays) := by
  unfold RedundantDataProcessing
  dsimp only
  split <;> exact ⟨_, _, _, _, _, rfl⟩

theorem stepped_RedundantDataProcessingLastPage :
    Stepped h h.RedundantDataProcessingLastPage := ⟨_, _, _, _, _, rfl⟩

theorem stepped_reconcile : Stepped h h.reconcile.1 := by
  unfold reconcile
  split
  · split
    · split
      · split
        · exact stepped_AuthenticPageMangement.trans stepped_RedundantDataProcessingLastPage
        · exact stepped_AuthenticPageMangement
      · split
        · exact stepped_RedundantDataProcessing false []
        · exact stepped_AuthenticPageMangement
    · exact ⟨_, _, _, _, _, rfl⟩
  · exact stepped_AuthenticPageMangement

theorem stepped_suspendCondition : Stepped h h.suspendCondition := by
  unfold suspendCondition
  dsimp only
  split <;> exact ⟨_, _, _, _, _, rfl⟩

theorem stepped_PrinterDataIn (data : List UInt8) : Stepped h (h.PrinterDataIn data) := by
  unfold PrinterDataIn
  split <;> exact ⟨_, _, _, _, _, rfl⟩

theorem stepped_output (b : Bool) : Stepped h (h.output b) := by
  unfold output
  split
  · next row rest _ =>
    have htaken : Stepped h { h with PrintBLink := rest } := ⟨_, _, _, _, _, rfl⟩
    split
    · exact htaken.trans (stepped_PrinterDataIn _)
    · exact stepped_PrinterDataIn _
  · exact stepped_PrinterDataIn _

/-- A motor step of a printing run is a step of the label. -/
theorem stepped_PageDataCalculation : Stepped h h.PageDataCalculation :=
  (stepped_reconcile.trans stepped_suspendCondition).trans (stepped_output _)

@[simp] theorem suspendCondition_Page : h.suspendCondition.Page = h.Page := by
  unfold suspendCondition; simp only []; split <;> rfl

@[simp] theorem suspendCondition_Gap : h.suspendCondition.Gap = h.Gap := by
  unfold suspendCondition; simp only []; split <;> rfl

@[simp] theorem suspendCondition_PrintBLink : h.suspendCondition.PrintBLink = h.PrintBLink := by
  unfold suspendCondition; simp only []; split <;> rfl

@[simp] theorem suspendCondition_latched : h.suspendCondition.latched = h.latched := by
  unfold suspendCondition; simp only []; split <;> rfl

@[simp] theorem suspendCondition_HeadPrint :
    h.suspendCondition.SMP.HeadPrint = h.SMP.HeadPrint :=
  stepped_suspendCondition.HeadPrint

@[simp] theorem PrinterDataIn_Page (data : List UInt8) : (h.PrinterDataIn data).Page = h.Page := by
  unfold PrinterDataIn; split <;> rfl

@[simp] theorem PrinterDataIn_Gap (data : List UInt8) : (h.PrinterDataIn data).Gap = h.Gap := by
  unfold PrinterDataIn; split <;> rfl

@[simp] theorem PrinterDataIn_PrintBLink (data : List UInt8) :
    (h.PrinterDataIn data).PrintBLink = h.PrintBLink := by
  unfold PrinterDataIn; split <;> rfl

theorem PrinterDataIn_latched (data : List UInt8) (hp : h.SMP.HeadPrint = true) :
    (h.PrinterDataIn data).latched = h.latched ++ [data] := by
  unfold PrinterDataIn; rw [if_pos hp]

@[simp] theorem output_Page (b : Bool) : (h.output b).Page = h.Page := by
  unfold output; split
  · split <;> simp
  · simp

@[simp] theorem output_Gap (b : Bool) : (h.output b).Gap = h.Gap := by
  unfold output; split
  · split <;> simp
  · simp

@[simp] theorem AuthenticPageMangement_PrintBLink :
    h.AuthenticPageMangement.PrintBLink = h.PrintBLink := by
  unfold AuthenticPageMangement; split <;> rfl

@[simp] theorem AuthenticPageMangement_latched :
    h.AuthenticPageMangement.latched = h.latched := by
  unfold AuthenticPageMangement; split <;> rfl

@[simp] theorem AuthenticPageMangement_SMP : h.AuthenticPageMangement.SMP = h.SMP := by
  unfold AuthenticPageMangement; split <;> rfl

@[simp] theorem RedundantDataProcessing_latched (waiting : Bool)
    (delays : List (List LinkedListData)) :
    (h.RedundantDataProcessing waiting delays).latched = h.latched := by
  unfold RedundantDataProcessing; simp only []; split <;> rfl

/-- Looking at the queue latches nothing. -/
@[simp] theorem reconcile_latched : h.reconcile.1.latched = h.latched := by
  unfold reconcile
  split
  · split
    · split
      · split <;> simp [RedundantDataProcessingLastPage]
      · split <;> simp
    · rfl
  · simp

@[simp] theorem reconcile_HeadPrint : h.reconcile.1.SMP.HeadPrint = h.SMP.HeadPrint :=
  stepped_reconcile.HeadPrint

/-- With an empty queue, the step only counts. -/
theorem reconcile_nil (hq : h.PrintBLink = []) :
    h.reconcile = (h.AuthenticPageMangement, false) := by
  simp only [reconcile, hq]

/-- A row of the page under the head is printed off the margin. -/
theorem reconcile_row (hq : h.PrintBLink = row :: rest) (hlock : h.Gap.LockPage = false)
    (hpage : row.PageNum = h.Page.PageNum)
    (hmargin : ¬ h.AuthenticPageMangement.Page.RemainderSteps < 16) :
    h.reconcile = (h.AuthenticPageMangement, false) := by
  simp only [reconcile, hq, hlock, if_true]
  rw [if_pos hpage.symm, if_neg hmargin]

/-- In the margin the rows of the page are discarded. -/
theorem reconcile_margin (hq : h.PrintBLink = row :: rest) (hlock : h.Gap.LockPage = false)
    (hpage : row.PageNum = h.Page.PageNum)
    (hmargin : h.AuthenticPageMangement.Page.RemainderSteps < 16) :
    h.reconcile = (h.AuthenticPageMangement.RedundantDataProcessingLastPage, true) := by
  simp only [reconcile, hq, hlock, if_true]
  rw [if_pos hpage.symm, if_pos hmargin]

/-- Rows of earlier pages are discarded, and the step does not count. -/
theorem reconcile_earlier (hq : h.PrintBLink = row :: rest) (hlock : h.Gap.LockPage = false)
    (hlt : row.PageNum < h.Page.PageNum) :
    h.reconcile = (h.RedundantDataProcessing false [], true) := by
  simp only [reconcile, hq, hlock, if_true]
  rw [if_neg (Nat.ne_of_gt hlt), if_pos hlt]

/-- A row of a later page waits for its label. -/
theorem reconcile_later (hq : h.PrintBLink = row :: rest) (hlock : h.Gap.LockPage = false)
    (hgt : h.Page.PageNum < row.PageNum) :
    h.reconcile = (h.AuthenticPageMangement, true) := by
  simp only [reconcile, hq, hlock, if_true]
  rw [if_neg (Nat.ne_of_lt hgt), if_neg (Nat.lt_asymm hgt)]

/-- On a locked page the queue is printed as it is, and the step does not count. -/
theorem reconcile_locked (hq : h.PrintBLink = row :: rest) (hlock : h.Gap.LockPage ≠ false) :
    h.reconcile = (h, false) := by
  simp only [reconcile, hq]
  rw [if_neg hlock]

/-- The label's counter moves in every step but where rows of earlier pages are discarded. -/
theorem PageDataCalculation_Page :
    h.PageDataCalculation.Page = h.reconcile.1.Page := by
  simp [PageDataCalculation]

/-- With an empty queue, or told to leave the line empty, a step latches a blank line. -/
theorem PageDataCalculation_blank (hp : h.SMP.HeadPrint = true)
    (hb : h.reconcile.2 = true ∨ h.reconcile.1.PrintBLink = []) :
    h.PageDataCalculation.latched = h.latched ++ [blank] ∧
      h.PageDataCalculation.PrintBLink = h.reconcile.1.PrintBLink := by
  have hp' : h.reconcile.1.suspendCondition.SMP.HeadPrint = true := by simp [hp]
  unfold PageDataCalculation output
  split
  next row rest hq =>
    rw [suspendCondition_PrintBLink] at hq
    have htrue : h.reconcile.2 = true := hb.resolve_right (by simp [hq])
    rw [htrue, if_neg (by decide), PrinterDataIn_latched _ hp', PrinterDataIn_PrintBLink]
    simp
  next hq =>
    rw [PrinterDataIn_latched _ hp', PrinterDataIn_PrintBLink]
    simp

/-- Otherwise it latches the head of the queue and removes it. -/
theorem PageDataCalculation_row (hp : h.SMP.HeadPrint = true) (hb : h.reconcile.2 = false)
    (hq : h.reconcile.1.PrintBLink = row :: rest) :
    h.PageDataCalculation.latched = h.latched ++ [row.data] ∧
      h.PageDataCalculation.PrintBLink = rest := by
  have hp' : h.reconcile.1.suspendCondition.SMP.HeadPrint = true := by simp [hp]
  unfold PageDataCalculation output
  rw [suspendCondition_PrintBLink, hq]
  simp only [hb, if_true]
  rw [PrinterDataIn_latched _ (by simpa using hp'), PrinterDataIn_PrintBLink]
  simp

/-- The counter after a step of the label that is not its last one. -/
theorem AuthenticPageMangement_step (hr : h.Page.RemainderSteps ≠ 1) :
    h.AuthenticPageMangement =
      { h with Page := { h.Page with RemainderSteps := h.Page.RemainderSteps - 1 } } := by
  unfold AuthenticPageMangement
  rw [if_neg (by omega)]

/-- The last step of a label turns the page. -/
theorem AuthenticPageMangement_turn (hr : h.Page.RemainderSteps = 1) :
    h.AuthenticPageMangement =
      { h with
        Gap := { h.Gap with CountLable := u32 (h.Gap.CountLable + 1) }
        Page := { h.Page with
          PageNum := h.Page.PageNum + 1
          RemainderSteps :=
            if h.Gap.LabelLength ≠ 0 then i32 h.Gap.LabelLength else 2400 } } := by
  unfold AuthenticPageMangement
  rw [if_pos (by omega)]

/-! ## The label and the margin -/

/-- What a step is meant to do: it latches the head of the queue, and removes no other row, only if
the row belongs to the page under the head and at least 16 steps of the label remain; otherwise it
latches a blank line. -/
def StepRight (h : Head) : Prop :=
  (∃ row rest, h.PrintBLink = row :: rest ∧ row.PageNum = h.Page.PageNum ∧
      16 ≤ h.Page.RemainderSteps - 1 ∧
      h.PageDataCalculation.latched = h.latched ++ [row.data] ∧
      h.PageDataCalculation.PrintBLink = rest) ∨
    h.PageDataCalculation.latched = h.latched ++ [blank]

/-- The step ends a label, a row of its page is still queued, and the next label is long enough to
be printed on. -/
def LastStepPrints (h : Head) : Prop :=
  h.Page.RemainderSteps = 1 ∧ (h.Gap.LabelLength = 0 ∨ 16 ≤ i32 h.Gap.LabelLength) ∧
    ∃ row rest, h.PrintBLink = row :: rest ∧ row.PageNum = h.Page.PageNum

/-- A step that prints is right off the margin only. -/
theorem stepRight_of_print (hq : h.PrintBLink = row :: rest)
    (hpage : row.PageNum = h.Page.PageNum)
    (hlatched : h.PageDataCalculation.latched = h.latched ++ [row.data])
    (hrest : h.PageDataCalculation.PrintBLink = rest) (hdata : row.data ≠ blank) :
    h.StepRight ↔ 16 ≤ h.Page.RemainderSteps - 1 := by
  constructor
  · rintro (⟨_, _, -, -, h16, -⟩ | hb)
    · exact h16
    · rw [hlatched, List.append_cancel_left_eq, List.cons.injEq] at hb
      exact absurd hb.1 hdata
  · intro h16
    exact .inl ⟨row, rest, hq, hpage, h16, hlatched, hrest⟩

/-- With a row of its page in the queue, the last step prints if the reloaded counter is off the
margin. -/
theorem lastStepPrints_iff (hq : h.PrintBLink = row :: rest)
    (hpage : row.PageNum = h.Page.PageNum) :
    h.LastStepPrints ↔
      h.Page.RemainderSteps = 1 ∧ ¬ h.AuthenticPageMangement.Page.RemainderSteps < 16 := by
  refine and_congr_right ?_
  intro hlast
  rw [AuthenticPageMangement_turn hlast]
  by_cases h0 : h.Gap.LabelLength = 0
  · simp only [h0, ne_eq, not_true, if_false, true_or, true_and]
    exact ⟨fun _ => by decide, fun _ => ⟨row, rest, hq, hpage⟩⟩
  · simp only [h0, ne_eq, not_false_eq_true, if_true, false_or]
    exact ⟨fun h => Int.not_lt.2 h.1, fun h => ⟨Int.not_lt.1 h, row, rest, hq, hpage⟩⟩

/-- **A step prints on the right label and off the margin, unless it ends a label while a row of
its page is still queued**: then the counter is reloaded before the margin is looked at, and the row
is printed on the last step of the label, with the page turned. -/
theorem step_right_iff (hlock : h.Gap.LockPage = false) (hp : h.SMP.HeadPrint = true)
    (hrows : ∀ row ∈ h.PrintBLink, row.data.length = PrintlineBytes) :
    h.StepRight ↔ ¬ h.LastStepPrints := by
  have hblank (hb : h.reconcile.2 = true ∨ h.reconcile.1.PrintBLink = [])
      (hl : ¬ h.LastStepPrints) : h.StepRight ↔ ¬ h.LastStepPrints :=
    ⟨fun _ => hl, fun _ => .inr (PageDataCalculation_blank hp hb).1⟩
  have hother (hne : ∀ row rest, h.PrintBLink = row :: rest → row.PageNum ≠ h.Page.PageNum) :
      ¬ h.LastStepPrints := by
    rintro ⟨-, -, row, rest, hq, hpage⟩
    exact hne row rest hq hpage
  cases hq : h.PrintBLink with
  | nil =>
    refine hblank (.inr ?_) (hother ?_)
    · rw [reconcile_nil hq, AuthenticPageMangement_PrintBLink, hq]
    · intro row rest hrow
      rw [hq] at hrow
      cases hrow
  | cons row rest =>
    have hfirst (hne : row.PageNum ≠ h.Page.PageNum) : ¬ h.LastStepPrints := by
      refine hother ?_
      intro row' rest' hrow
      rw [hq, List.cons.injEq] at hrow
      exact hrow.1 ▸ hne
    rcases Nat.lt_trichotomy row.PageNum h.Page.PageNum with hlt | hpage | hgt
    · exact hblank (.inl (by rw [reconcile_earlier hq hlock hlt])) (hfirst (Nat.ne_of_lt hlt))
    · by_cases hmargin : h.AuthenticPageMangement.Page.RemainderSteps < 16
      · refine hblank (.inl (by rw [reconcile_margin hq hlock hpage hmargin])) ?_
        intro hl
        exact ((lastStepPrints_iff hq hpage).1 hl).2 hmargin
      · have hrec := reconcile_row hq hlock hpage hmargin
        obtain ⟨hlatched, hrest⟩ := PageDataCalculation_row hp (by rw [hrec])
          (show h.reconcile.1.PrintBLink = row :: rest by rw [hrec]; simpa using hq)
        have hdata : row.data ≠ blank := by
          intro hd
          have := hrows row (by simp [hq])
          rw [hd] at this
          exact absurd this (by decide)
        rw [stepRight_of_print hq hpage hlatched hrest hdata, lastStepPrints_iff hq hpage]
        by_cases hlast : h.Page.RemainderSteps = 1
        · -- the row is printed on the last step
          exact ⟨fun h16 => by omega, fun hl => absurd ⟨hlast, hmargin⟩ hl⟩
        · rw [AuthenticPageMangement_step hlast] at hmargin
          exact ⟨fun _ hl => hlast hl.1, fun _ => Int.not_lt.1 hmargin⟩
    · exact hblank (.inl (by rw [reconcile_later hq hlock hgt])) (hfirst (Nat.ne_of_gt hgt))

/-- A row of the page under the head that is queued: the step is an ordinary one. -/
theorem step_right_iff_row :
    let h := { (init.StepMotorStart SMPCurrent) with PrintBLink := [⟨List.replicate 72 1, 0⟩] }
    h.StepRight ↔ ¬ h.LastStepPrints :=
  step_right_iff rfl rfl (by decide)

/-- **A row that arrives during the margin is printed on the last step of its label.** The label is
17 steps long; the row arrives after 16 of them. -/
theorem last_step_prints :
    let h₀ := { init with Gap := { init.Gap with LabelLength := 17 } }.StepMotorStart SMPCurrent
    let h := { (PageDataCalculation^[16] h₀) with PrintBLink := [⟨List.replicate 72 1, 0⟩] }
    h.Gap.LockPage = false ∧ h.Page.RemainderSteps = 1 ∧
      h.PageDataCalculation.latched = h.latched ++ [List.replicate 72 1] ∧
      h.PageDataCalculation.Page.PageNum = 1 ∧ ¬ h.StepRight := by
  intro h₀ h
  have hrun : h.Gap.LockPage = false ∧ h.Page.RemainderSteps = 1 ∧
      h.PageDataCalculation.latched = h.latched ++ [List.replicate 72 1] ∧
      h.PageDataCalculation.Page.PageNum = 1 := by decide +kernel
  obtain ⟨hlock, hlast, hlatched, hturn⟩ := hrun
  refine ⟨hlock, hlast, hlatched, hturn, ?_⟩
  rintro (⟨_, _, -, -, h16, -⟩ | hb)
  · omega
  · rw [hlatched, List.append_cancel_left_eq] at hb
    exact absurd hb (by decide)

/-! ## Whole labels -/

/-- The rows of a page in the queue. -/
def pageRows (PageNum : Nat) (page : List (List UInt8)) : List LinkedListData :=
  page.map fun data => ⟨data, PageNum⟩

/-- Pages in the queue, numbered from `PageNum` on. -/
def queued (PageNum : Nat) : List (List (List UInt8)) → List LinkedListData
  | [] => []
  | page :: pages => pageRows PageNum page ++ queued (PageNum + 1) pages

/-- The lines of labels of `L` steps: each page from the first step of its label, then blank
lines. -/
def labelLines (L : Nat) : List (List (List UInt8)) → List (List UInt8)
  | [] => []
  | page :: pages => page ++ List.replicate (L - page.length) blank ++ labelLines L pages

/-- The head stands at a label with `r` of its `L` steps left, `todo` is what is left of its page
and the pages after it, and all of it fits. -/
structure At (L : Nat) (h : Head) (r : Nat) (todo : List (List (List UInt8))) : Prop where
  HeadPrint : h.SMP.HeadPrint = true
  LockPage : h.Gap.LockPage = false
  LabelLength : h.Gap.LabelLength = L
  RemainderSteps : h.Page.RemainderSteps = r
  pos : 1 ≤ r
  le : r ≤ L
  PrintBLink : h.PrintBLink = queued h.Page.PageNum todo
  first : ∀ page pages, todo = page :: pages → page = [] ∨ page.length + 16 ≤ r
  fits : ∀ page ∈ todo.tail, page.length + 16 ≤ L

/-- The lines still to be latched. -/
def linesLeft (L r : Nat) : List (List (List UInt8)) → List (List UInt8)
  | [] => []
  | page :: pages => page ++ List.replicate (r - page.length) blank ++ labelLines L pages

/-- What is left of the pages after a step. -/
def todoNext (r : Nat) : List (List (List UInt8)) → List (List (List UInt8))
  | [] => []
  | page :: pages => if r = 1 then pages else page.tail :: pages

/-- The rows of later pages have later numbers. -/
theorem le_of_mem_queued {p : Nat} {todo : List (List (List UInt8))} :
    ∀ row ∈ queued p todo, p ≤ row.PageNum := by
  induction todo generalizing p with
  | nil => exact fun row hrow => absurd hrow (List.not_mem_nil)
  | cons page pages ih =>
    intro row hrow
    rcases List.mem_append.1 hrow with hrow | hrow
    · obtain ⟨data, -, rfl⟩ := List.mem_map.1 hrow
      exact Nat.le_refl p
    · exact Nat.le_trans (Nat.le_succ p) (ih row hrow)

/-- A step without a row for it moves the counter and latches a blank line. -/
theorem step_blank {L r : Nat} {todo : List (List (List UInt8))} (hat : At L h r todo)
    (hnext : ∀ row ∈ h.PrintBLink, h.Page.PageNum < row.PageNum) :
    h.PageDataCalculation.latched = h.latched ++ [blank] ∧
      h.PageDataCalculation.PrintBLink = h.PrintBLink ∧
      h.PageDataCalculation.Page = h.AuthenticPageMangement.Page ∧
      h.PageDataCalculation.Gap = h.AuthenticPageMangement.Gap := by
  cases hq : h.PrintBLink with
  | nil =>
    have hrec := reconcile_nil hq
    obtain ⟨hl, hr⟩ := PageDataCalculation_blank hat.HeadPrint (.inr (by rw [hrec]; simpa using hq))
    exact ⟨hl, by rw [hr, hrec]; simpa using hq, by simp [PageDataCalculation, hrec],
      by simp [PageDataCalculation, hrec]⟩
  | cons row rest =>
    have hrec := reconcile_later hq hat.LockPage (hnext row (by simp [hq]))
    obtain ⟨hl, hr⟩ := PageDataCalculation_blank hat.HeadPrint (.inl (by rw [hrec]))
    exact ⟨hl, by rw [hr, hrec]; simpa using hq, by simp [PageDataCalculation, hrec],
      by simp [PageDataCalculation, hrec]⟩

/-- A step with a row for it prints the row. -/
theorem step_row {L r : Nat} {data : List UInt8} {page : List (List UInt8)}
    {pages : List (List (List UInt8))} (hat : At L h r ((data :: page) :: pages)) :
    At L h.PageDataCalculation (r - 1) (page :: pages) ∧
      h.PageDataCalculation.latched = h.latched ++ [data] ∧
      h.PageDataCalculation.Page.PageNum = h.Page.PageNum := by
  have hr : (data :: page).length + 16 ≤ r := (hat.first _ _ rfl).resolve_left (by simp)
  rw [List.length_cons] at hr
  have hrem := hat.RemainderSteps
  have hauth := AuthenticPageMangement_step (h := h) (by omega)
  have hq : h.PrintBLink = ⟨data, h.Page.PageNum⟩ :: (pageRows h.Page.PageNum page ++
      queued (h.Page.PageNum + 1) pages) := hat.PrintBLink
  have hrec := reconcile_row hq hat.LockPage rfl (by rw [hauth]; simp only [hrem]; omega)
  obtain ⟨hl, hrest⟩ := PageDataCalculation_row hat.HeadPrint (by rw [hrec])
    (by rw [hrec, AuthenticPageMangement_PrintBLink, hq])
  have hpage : h.PageDataCalculation.Page =
      { h.Page with RemainderSteps := h.Page.RemainderSteps - 1 } := by
    simp [PageDataCalculation, hrec, hauth]
  have hgap : h.PageDataCalculation.Gap = h.Gap := by simp [PageDataCalculation, hrec, hauth]
  refine ⟨⟨?_, ?_, ?_, ?_, ?_, ?_, ?_, ?_, hat.fits⟩, hl, by rw [hpage]⟩
  · exact stepped_PageDataCalculation.HeadPrint.trans hat.HeadPrint
  · rw [hgap]; exact hat.LockPage
  · rw [hgap]; exact hat.LabelLength
  · rw [hpage]; simp only [hrem]; omega
  · omega
  · have := hat.le; omega
  · rw [hrest, hpage]; rfl
  · rintro _ _ ⟨⟩
    exact .inr (by omega)

/-- What a step without a row for it keeps. -/
theorem step_empty_kept {L r : Nat} {todo : List (List (List UInt8))} (hat : At L h r todo)
    (hnext : ∀ row ∈ h.PrintBLink, h.Page.PageNum < row.PageNum) :
    h.PageDataCalculation.SMP.HeadPrint = true ∧ h.PageDataCalculation.Gap.LockPage = false ∧
      h.PageDataCalculation.Gap.LabelLength = L := by
  obtain ⟨-, -, -, hgap⟩ := step_blank hat hnext
  refine ⟨stepped_PageDataCalculation.HeadPrint.trans hat.HeadPrint, ?_⟩
  rw [hgap]
  unfold AuthenticPageMangement
  split <;> exact ⟨hat.LockPage, hat.LabelLength⟩

/-- Without a row of the page under the head, the queue holds later pages only. -/
theorem lt_of_empty {L r : Nat} {todo : List (List (List UInt8))} (hat : At L h r todo)
    (hfirst : ∀ page pages, todo = page :: pages → page = []) :
    ∀ row ∈ h.PrintBLink, h.Page.PageNum < row.PageNum := by
  intro row hrow
  rw [hat.PrintBLink] at hrow
  cases todo with
  | nil => exact absurd hrow (List.not_mem_nil)
  | cons page pages =>
    rw [hfirst page pages rfl] at hrow
    exact le_of_mem_queued row hrow

/-- The last step of a label, without a row for it. -/
theorem step_empty_turn {L : Nat} {todo : List (List (List UInt8))} (hL : 17 ≤ L)
    (hint : L < 2 ^ 31) (hat : At L h 1 todo)
    (hfirst : ∀ page pages, todo = page :: pages → page = []) :
    At L h.PageDataCalculation L todo.tail ∧
      h.PageDataCalculation.latched = h.latched ++ [blank] ∧
      h.PageDataCalculation.Page.PageNum = h.Page.PageNum + 1 := by
  have hnext := lt_of_empty hat hfirst
  obtain ⟨hl, hq, hpage, -⟩ := step_blank hat hnext
  obtain ⟨hprint, hlock, hlen⟩ := step_empty_kept hat hnext
  have hauth := AuthenticPageMangement_turn (h := h) (by rw [hat.RemainderSteps]; rfl)
  have hreload : i32 L = L := i32_of_range (by omega) (by omega)
  refine ⟨⟨hprint, hlock, hlen, ?_, by omega, Nat.le_refl L, ?_, ?_,
    fun page hmem => hat.fits page (List.mem_of_mem_tail hmem)⟩, hl, by rw [hpage, hauth]⟩
  · rw [hpage, hauth]
    simp only [hat.LabelLength, hreload]
    rw [if_pos (by omega)]
  · rw [hq, hat.PrintBLink, hpage, hauth]
    cases todo with
    | nil => rfl
    | cons page pages =>
      rw [queued, hfirst page pages rfl]
      rfl
  · intro page pages htodo
    exact .inr (hat.fits page (by rw [htodo]; simp))

/-- Another step of a label, without a row for it. -/
theorem step_empty {L r : Nat} {todo : List (List (List UInt8))} (hr : r ≠ 1) (hat : At L h r todo)
    (hfirst : ∀ page pages, todo = page :: pages → page = []) :
    At L h.PageDataCalculation (r - 1) todo ∧
      h.PageDataCalculation.latched = h.latched ++ [blank] ∧
      h.PageDataCalculation.Page.PageNum = h.Page.PageNum := by
  have hrem := hat.RemainderSteps
  have hle := hat.le
  have hpos := hat.pos
  have hnext := lt_of_empty hat hfirst
  obtain ⟨hl, hq, hpage, -⟩ := step_blank hat hnext
  obtain ⟨hprint, hlock, hlen⟩ := step_empty_kept hat hnext
  have hauth := AuthenticPageMangement_step (h := h) (by omega)
  refine ⟨⟨hprint, hlock, hlen, ?_, by omega, by omega, ?_,
    fun page pages htodo => .inl (hfirst page pages htodo), hat.fits⟩, hl, by rw [hpage, hauth]⟩
  · rw [hpage, hauth]
    simp only [hrem]
    omega
  · rw [hq, hat.PrintBLink, hpage, hauth]

/-- **One step on a label** latches the next line that is left. -/
theorem step_at {L r : Nat} {todo : List (List (List UInt8))} (hL : 17 ≤ L) (hint : L < 2 ^ 31)
    (hat : At L h r todo) :
    At L h.PageDataCalculation (if r = 1 then L else r - 1) (todoNext r todo) ∧
      h.PageDataCalculation.latched = h.latched ++ [(linesLeft L r todo).getD 0 blank] ∧
      h.PageDataCalculation.Page.PageNum = h.Page.PageNum + if r = 1 then 1 else 0 := by
  have hpos := hat.pos
  -- the cases of a label whose page has no rows left
  have hempty (hfirst : ∀ page pages, todo = page :: pages → page = []) :
      At L h.PageDataCalculation (if r = 1 then L else r - 1) (todoNext r todo) ∧
        h.PageDataCalculation.latched = h.latched ++ [blank] ∧
        h.PageDataCalculation.Page.PageNum = h.Page.PageNum + if r = 1 then 1 else 0 := by
    by_cases hlast : r = 1
    · subst hlast
      have htodo : todoNext 1 todo = todo.tail := by cases todo <;> rfl
      rw [if_pos rfl, if_pos rfl, htodo]
      exact step_empty_turn hL hint hat hfirst
    · have htodo : todoNext r todo = todo := by
        cases todo with
        | nil => rfl
        | cons page pages =>
          rw [todoNext, if_neg hlast, hfirst page pages rfl]
          rfl
      rw [if_neg hlast, if_neg hlast, htodo]
      exact step_empty hlast hat hfirst
  match todo, hat with
  | (data :: page) :: pages, hat =>
    have hr : (data :: page).length + 16 ≤ r := (hat.first _ _ rfl).resolve_left (by simp)
    have hlast : ¬ r = 1 := by omega
    obtain ⟨hat', hl, hp⟩ := step_row hat
    rw [if_neg hlast, if_neg hlast, todoNext, if_neg hlast]
    exact ⟨hat', hl, hp⟩
  | [] :: pages, hat =>
    obtain ⟨hat', hl, hp⟩ := hempty (by rintro _ _ ⟨⟩; rfl)
    refine ⟨hat', ?_, hp⟩
    obtain ⟨n, rfl⟩ : ∃ n, r = n + 1 := ⟨r - 1, by omega⟩
    simpa [linesLeft, List.replicate_succ] using hl
  | [], hat =>
    obtain ⟨hat', hl, hp⟩ := hempty (by rintro _ _ ⟨⟩)
    exact ⟨hat', by simpa [linesLeft] using hl, hp⟩

/-- The lines left after a step are the lines left before it without the first. -/
theorem linesLeft_next {L r : Nat} {todo : List (List (List UInt8))} (hat : At L h r todo)
    (i : Nat) :
    (linesLeft L (if r = 1 then L else r - 1) (todoNext r todo)).getD i blank =
      (linesLeft L r todo).getD (i + 1) blank := by
  have hpos := hat.pos
  match todo, hat with
  | [], _ => rfl
  | (data :: page) :: pages, hat =>
    have hr : (data :: page).length + 16 ≤ r := (hat.first _ _ rfl).resolve_left (by simp)
    have hlast : ¬ r = 1 := by omega
    rw [if_neg hlast, todoNext, if_neg hlast, List.tail_cons]
    simp only [linesLeft, List.length_cons, List.cons_append, List.getD_cons_succ]
    rw [Nat.sub_sub, Nat.add_comm 1]
  | [] :: pages, hat =>
    obtain ⟨n, rfl⟩ : ∃ n, r = n + 1 := ⟨r - 1, by omega⟩
    by_cases hlast : n = 0
    · subst hlast
      cases pages with
      | nil => simp [linesLeft, todoNext, labelLines]
      | cons page pages => simp [linesLeft, todoNext, labelLines, List.replicate_succ]
    · rw [if_neg (by omega), todoNext, if_neg (by omega)]
      simp [linesLeft, List.replicate_succ]

/-- **A run over labels**: after `k` steps the first `k` lines are latched, and the counters have
moved on by `k` steps. -/
theorem run_at {L r : Nat} {todo : List (List (List UInt8))} (hL : 17 ≤ L) (hint : L < 2 ^ 31)
    (hat : At L h r todo) (k : Nat) :
    ∃ r' todo', At L (PageDataCalculation^[k] h) r' todo' ∧
      (PageDataCalculation^[k] h).latched =
        h.latched ++ (List.range k).map (fun i => (linesLeft L r todo).getD i blank) ∧
      (PageDataCalculation^[k] h).Page.PageNum * L + (L - r') = h.Page.PageNum * L + (L - r) + k ∧
      ((PageDataCalculation^[k] h).Page.PageNum + todo'.length = h.Page.PageNum + todo.length ∨
        todo' = []) ∧
      ∀ i, (linesLeft L r' todo').getD i blank = (linesLeft L r todo).getD (k + i) blank := by
  induction k with
  | zero => exact ⟨r, todo, hat, by simp, rfl, .inl rfl, fun i => by rw [Nat.zero_add]⟩
  | succ k ih =>
    obtain ⟨r', todo', hat', hl, hpos, htodo, hlines⟩ := ih
    obtain ⟨hat'', hl', hp⟩ := step_at hL hint hat'
    rw [← Function.iterate_succ_apply' PageDataCalculation k h] at hat'' hl' hp
    refine ⟨_, _, hat'', ?_, ?_, ?_, ?_⟩
    · rw [hl', hl, hlines 0, List.range_succ, List.map_append, ← List.append_assoc]
      rfl
    · have h₁ := hat'.pos
      have h₂ := hat'.le
      rw [hp]
      by_cases hlast : r' = 1
      · rw [if_pos hlast, if_pos hlast, Nat.add_mul]
        omega
      · rw [if_neg hlast, if_neg hlast, Nat.add_zero]
        omega
    · cases todo' with
      | nil => exact .inr rfl
      | cons page pages =>
        rcases htodo with htodo | htodo
        · left
          rw [hp, todoNext]
          rw [List.length_cons] at htodo
          by_cases hlast : r' = 1
          · rw [if_pos hlast, if_pos hlast]
            omega
          · rw [if_neg hlast, if_neg hlast, List.length_cons]
            omega
        · cases htodo
    · intro i
      rw [linesLeft_next hat', hlines]
      congr 1
      omega

/-- The first `k` lines. -/
theorem map_getD_range {lines : List (List UInt8)} {k : Nat} (hk : k ≤ lines.length) :
    (List.range k).map (fun i => lines.getD i blank) = lines.take k := by
  refine List.ext_getElem (by simp [hk]) ?_
  intro i h₁ h₂
  have hi : i < lines.length := by
    rw [List.length_map, List.length_range] at h₁
    omega
  simp [List.getD_eq_getElem?_getD, hi]

/-- A label for each page. -/
theorem length_labelLines {L : Nat} {pages : List (List (List UInt8))}
    (hfit : ∀ page ∈ pages, page.length + 16 ≤ L) :
    (labelLines L pages).length = pages.length * L := by
  induction pages with
  | nil => simp [labelLines]
  | cons page pages ih =>
    have hpage := hfit page (by simp)
    have hrest := ih fun p hp => hfit p (List.mem_cons_of_mem _ hp)
    simp only [labelLines, List.length_append, List.length_replicate, hrest, List.length_cons,
      Nat.add_mul]
    omega

/-- The page under the head, from the steps made so far. -/
theorem page_of_steps {L p p' r k : Nat} (hpos : 1 ≤ r) (hle : r ≤ L)
    (h : p' * L + (L - r) = p * L + k) : p' = p + k / L ∧ (L ∣ k → r = L) := by
  have hL : 0 < L := by omega
  have hdiv : (p' * L + (L - r)) / L = p' := by
    rw [Nat.mul_comm, Nat.mul_add_div hL, Nat.div_eq_of_lt (by omega), Nat.add_zero]
  constructor
  · rw [← hdiv, h, Nat.mul_comm, Nat.mul_add_div hL]
  · rintro ⟨m, rfl⟩
    have hmod := congrArg (· % L) h
    simp only [Nat.mul_add_mod_self_right] at hmod
    rw [Nat.mul_mod_right, Nat.mod_eq_of_lt (by omega)] at hmod
    omega

/-- **Pages that are queued in advance and fit their labels are printed each on its own label.**
After `k` steps the first `k` lines of the labels are latched, each page from the first step of its
label on and then blank lines, and the page has turned after every `L` steps; after the last label
the queue is empty and the counter is reloaded. -/
theorem labels_printed {L : Nat} (hL : 17 ≤ L) (hint : L < 2 ^ 31)
    (pages : List (List (List UInt8))) (hp : h.SMP.HeadPrint = true)
    (hlock : h.Gap.LockPage = false) (hlen : h.Gap.LabelLength = L)
    (hrem : h.Page.RemainderSteps = L) (hfit : ∀ page ∈ pages, page.length + 16 ≤ L)
    (hq : h.PrintBLink = queued h.Page.PageNum pages) :
    (∀ k, k ≤ pages.length * L →
      (PageDataCalculation^[k] h).latched = h.latched ++ (labelLines L pages).take k ∧
        (PageDataCalculation^[k] h).Page.PageNum = h.Page.PageNum + k / L) ∧
      (PageDataCalculation^[pages.length * L] h).PrintBLink = [] ∧
      (PageDataCalculation^[pages.length * L] h).Page.PageNum = h.Page.PageNum + pages.length ∧
      (PageDataCalculation^[pages.length * L] h).Page.RemainderSteps = L := by
  have hat : At L h L pages := by
    refine ⟨hp, hlock, hlen, hrem, by omega, Nat.le_refl L, hq, ?_,
      fun page hmem => hfit page (List.mem_of_mem_tail hmem)⟩
    intro page rest htodo
    exact .inr (hfit page (by rw [htodo]; simp))
  have hlines : linesLeft L L pages = labelLines L pages := by cases pages <;> rfl
  have hrun := run_at hL hint hat
  simp only [hlines, Nat.sub_self, Nat.add_zero] at hrun
  constructor
  · intro k hk
    obtain ⟨r', todo', hat', hl, hpos, -⟩ := hrun k
    rw [hl, map_getD_range (by rw [length_labelLines hfit]; exact hk)]
    exact ⟨rfl, (page_of_steps hat'.pos hat'.le hpos).1⟩
  · obtain ⟨r', todo', hat', -, hpos, htodo, -⟩ := hrun (pages.length * L)
    obtain ⟨hpage, hr⟩ := page_of_steps hat'.pos hat'.le hpos
    rw [Nat.mul_div_cancel _ (by omega)] at hpage
    have hnil : todo' = [] := by
      rcases htodo with h | h
      · exact List.length_eq_zero_iff.1 (by omega)
      · exact h
    refine ⟨?_, hpage, ?_⟩
    · rw [hat'.PrintBLink, hnil]
      rfl
    · rw [hat'.RemainderSteps, hr (Nat.dvd_mul_left L pages.length)]

/-- A page of one row and an empty page on labels of 20 steps. -/
theorem labels_printed_two :
    let pages := [[List.replicate 72 1], []]
    let labels := { init with Gap := { init.Gap with LabelLength := 20 } }.StepMotorStart SMPCurrent
    let h := { labels with PrintBLink := queued 0 pages }
    (∀ k, k ≤ pages.length * 20 →
      (PageDataCalculation^[k] h).latched = h.latched ++ (labelLines 20 pages).take k ∧
        (PageDataCalculation^[k] h).Page.PageNum = h.Page.PageNum + k / 20) ∧
      (PageDataCalculation^[pages.length * 20] h).PrintBLink = [] ∧
      (PageDataCalculation^[pages.length * 20] h).Page.PageNum = h.Page.PageNum + pages.length ∧
      (PageDataCalculation^[pages.length * 20] h).Page.RemainderSteps = (20 : Nat) :=
  labels_printed (by decide) (by decide) [[List.replicate 72 1], []] rfl rfl rfl rfl (by decide) rfl

end Head

end ThermalPrinter
