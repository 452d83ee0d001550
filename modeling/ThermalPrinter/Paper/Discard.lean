import ThermalPrinter.Lib.Runs
import ThermalPrinter.Paper.Labels

/-!
# Discarding surplus rows

Both discard loops take a row out of the queue before they look at its page, so the row that ends a
loop is lost. Whether that row is still wanted depends on what ended the loop: a row of the page
under the head, a row of a later page, the quota of 26 rows, or the end of the queue. For a queue in
page order these are the conditions under which no wanted row is lost (`redundant_spares`,
`redundant_waiting_spares`, `lastPage_spares`), and a run in which every call meets its condition
takes out no row before its label has begun (`discards_spare`).
-/

namespace ThermalPrinter

namespace Head

variable {h : Head} {row : LinkedListData} {rows rest : List LinkedListData} {P Count : Nat}

/-- The rows are in page order. -/
def InOrder (rows : List LinkedListData) : Prop := rows.Pairwise fun a b => a.PageNum ≤ b.PageNum

/-- From `old` to `new` rows were taken from the head, all of them with a page that satisfies
`p`. -/
def RemovesOnly (old new : List LinkedListData) (p : Nat → Prop) : Prop :=
  ∃ removed, old = removed ++ new ∧ ∀ r ∈ removed, p r.PageNum

/-- One more row is taken. -/
theorem removesOnly_cons {new : List LinkedListData} {p : Nat → Prop}
    (hsuf : new.length ≤ rest.length) :
    RemovesOnly (row :: rest) new p ↔ p row.PageNum ∧ RemovesOnly rest new p := by
  constructor
  · rintro ⟨removed, heq, hp⟩
    cases removed with
    | nil =>
      rw [List.nil_append] at heq
      have := congrArg List.length heq
      rw [List.length_cons] at this
      omega
    | cons r removed =>
      rw [List.cons_append, List.cons.injEq] at heq
      obtain ⟨rfl, rfl⟩ := heq
      exact ⟨hp _ (by simp), removed, rfl, fun r hr => hp r (List.mem_cons_of_mem _ hr)⟩
  · rintro ⟨hrow, removed, rfl, hp⟩
    exact ⟨row :: removed, rfl, List.forall_mem_cons.2 ⟨hrow, hp⟩⟩

/-- Several rows more are taken. -/
theorem removesOnly_append {new : List LinkedListData} {p : Nat → Prop}
    (hsuf : new.length ≤ rest.length) :
    RemovesOnly (rows ++ rest) new p ↔ (∀ r ∈ rows, p r.PageNum) ∧ RemovesOnly rest new p := by
  induction rows with
  | nil => simp
  | cons row rows ih =>
    rw [List.cons_append, removesOnly_cons (by rw [List.length_append]; omega), ih,
      List.forall_mem_cons, and_assoc]

/-- Nothing is taken. -/
theorem removesOnly_self {p : Nat → Prop} : RemovesOnly rows rows p :=
  ⟨[], rfl, fun _ h => absurd h (List.not_mem_nil)⟩

theorem redundantRows_length (waiting : Bool) (Count : Nat) :
    (redundantRows P waiting rows Count).1.length ≤ rows.length := by
  induction rows generalizing Count with
  | nil => exact Nat.le_refl _
  | cons row rest ih =>
    unfold redundantRows
    split
    · exact Nat.le_succ _
    · split
      · exact Nat.le_succ _
      · exact Nat.le_trans (ih _) (Nat.le_succ _)

theorem lastPageLoop_length (Count : Nat) : (lastPageLoop P rows Count).length ≤ rows.length := by
  induction rows generalizing Count with
  | nil => exact Nat.le_refl _
  | cons row rest ih =>
    unfold lastPageLoop
    split
    · split
      · exact Nat.le_succ _
      · exact Nat.le_trans (ih _) (Nat.le_succ _)
    · exact Nat.le_succ _

/-- Where the first row is of page `P` or later, none is of an earlier page. -/
theorem countP_eq_zero (hord : InOrder (row :: rest)) (hge : P ≤ row.PageNum) :
    (row :: rest).countP (fun r => r.PageNum < P) = 0 := by
  rw [List.countP_eq_zero]
  intro r hr
  have hle : row.PageNum ≤ r.PageNum := by
    rcases List.mem_cons.1 hr with rfl | hr
    · exact Nat.le_refl _
    · exact (List.pairwise_cons.1 hord).1 r hr
  simp only [decide_eq_true_eq]
  omega

/-- Without waiting, the loop spares the rows of page `P` and later ones if there are enough earlier
ones to reach the quota, or no others. -/
theorem redundantRows_spares (hord : InOrder rows) (hc : Count ≤ 25) :
    RemovesOnly rows (redundantRows P false rows Count).1 (· < P) ↔
      26 - Count ≤ rows.countP (fun r => r.PageNum < P) ∨ ∀ r ∈ rows, r.PageNum < P := by
  induction rows generalizing Count with
  | nil => exact ⟨fun _ => .inr (by simp), fun _ => removesOnly_self⟩
  | cons row rest ih =>
    have hord' : InOrder rest := (List.pairwise_cons.1 hord).2
    by_cases hlt : row.PageNum < P
    · have hcount : (row :: rest).countP (fun r => r.PageNum < P) =
          rest.countP (fun r => r.PageNum < P) + 1 := List.countP_cons_of_pos (by simpa using hlt)
      by_cases hquota : Count + 1 > 25
      · have hrows : redundantRows P false (row :: rest) Count = (rest, false) := by
          rw [redundantRows, if_neg (by omega), if_pos ⟨hquota, rfl⟩]
        rw [hrows, removesOnly_cons (Nat.le_refl _), hcount]
        exact ⟨fun _ => .inl (by omega), fun _ => ⟨hlt, removesOnly_self⟩⟩
      · have hrows : redundantRows P false (row :: rest) Count =
            redundantRows P false rest (Count + 1) := by
          rw [redundantRows, if_neg (by omega), if_neg (fun h => hquota h.1)]
        rw [hrows, removesOnly_cons (redundantRows_length _ _), ih hord' (by omega), hcount,
          List.forall_mem_cons]
        constructor
        · rintro ⟨-, h | h⟩
          · exact .inl (by omega)
          · exact .inr ⟨hlt, h⟩
        · rintro (h | h)
          · exact ⟨hlt, .inl (by omega)⟩
          · exact ⟨hlt, .inr h.2⟩
    · -- the first row is taken although it is wanted
      have hlost : ¬ RemovesOnly (row :: rest) (redundantRows P false (row :: rest) Count).1
          (· < P) := by
        have hlen : (redundantRows P false (row :: rest) Count).1.length ≤ rest.length := by
          unfold redundantRows
          split
          · exact Nat.le_refl _
          · split
            · exact Nat.le_refl _
            · exact redundantRows_length _ _
        rw [removesOnly_cons hlen]
        exact fun h => hlt h.1
      rw [countP_eq_zero hord (by omega)]
      refine ⟨fun h => absurd h hlost, ?_⟩
      rintro (h | h)
      · omega
      · exact absurd (h row (by simp)) hlt

/-- The queue after `RedundantDataProcessing`. -/
@[simp] theorem RedundantDataProcessing_PrintBLink (waiting : Bool)
    (delays : List (List LinkedListData)) :
    (h.RedundantDataProcessing waiting delays).PrintBLink =
      (redundantLoop h.Page.PageNum waiting delays h.PrintBLink).1 := by
  unfold RedundantDataProcessing
  simp only []
  split <;> rfl

@[simp] theorem RedundantDataProcessing_PageNum (waiting : Bool)
    (delays : List (List LinkedListData)) :
    (h.RedundantDataProcessing waiting delays).Page.PageNum = h.Page.PageNum := by
  unfold RedundantDataProcessing
  simp only []
  split <;> rfl

/-- **`RedundantDataProcessing(false)` spares wanted rows** exactly when at least 26 rows of earlier
pages are queued, or no others. -/
theorem redundant_spares (hord : InOrder h.PrintBLink) :
    RemovesOnly h.PrintBLink (h.RedundantDataProcessing false []).PrintBLink (· < h.Page.PageNum) ↔
      26 ≤ h.PrintBLink.countP (fun r => r.PageNum < h.Page.PageNum) ∨
        ∀ r ∈ h.PrintBLink, r.PageNum < h.Page.PageNum := by
  rw [RedundantDataProcessing_PrintBLink, redundantLoop]
  exact redundantRows_spares hord (Nat.zero_le _)

/-- The rows that are queued at some time of a call of `RedundantDataProcessing(true)`. -/
def offered (P : Nat) :
    List (List LinkedListData) → List LinkedListData → List LinkedListData
  | [], rows => rows
  | arrived :: delays, rows =>
    if (redundantRows P true rows 0).2 ∧ rows ≠ [] then rows ++ offered P delays arrived else rows

/-- While it waits, the loop ends at a row of page `P`, which it takes, or takes all rows. -/
theorem redundantRows_waiting (rows : List LinkedListData) (Count : Nat) :
    (redundantRows P true rows Count).2 = true ∧ (redundantRows P true rows Count).1 = [] ∨
      (redundantRows P true rows Count).2 = false ∧
        ∃ removed row, rows = removed ++ row :: (redundantRows P true rows Count).1 ∧
          row.PageNum = P := by
  induction rows generalizing Count with
  | nil => exact .inl ⟨rfl, rfl⟩
  | cons row rest ih =>
    by_cases heq : P = row.PageNum
    · rw [redundantRows, if_pos heq]
      exact .inr ⟨rfl, [], row, rfl, heq.symm⟩
    · rw [redundantRows, if_neg heq, if_neg (by simp)]
      rcases ih (Count + 1) with h | ⟨h, removed, row', hrest, hpage⟩
      · exact .inl h
      · exact .inr ⟨h, row :: removed, row', congrArg (row :: ·) hrest, hpage⟩

/-- A loop that takes a row of page `P` does not spare the wanted rows. -/
theorem not_removesOnly (new removed : List LinkedListData) (hpage : row.PageNum = P) :
    ¬ RemovesOnly (removed ++ row :: new) new (· < P) ∧
      ¬ ∀ r ∈ removed ++ row :: new, r.PageNum < P := by
  constructor
  · rintro ⟨removed', heq, hp⟩
    rw [List.append_cons, List.append_cancel_right_eq] at heq
    have := hp row (by rw [← heq]; simp)
    omega
  · intro h
    have := h row (by simp)
    omega

/-- While it waits, the loop spares the wanted rows only if there are none. -/
theorem redundantRows_waiting_spares :
    RemovesOnly rows (redundantRows P true rows 0).1 (· < P) ↔ ∀ r ∈ rows, r.PageNum < P := by
  rcases redundantRows_waiting (P := P) rows 0 with
    ⟨-, hnil⟩ | ⟨-, removed, row, hrows, hpage⟩
  · rw [hnil]
    refine ⟨?_, fun hp => ⟨rows, (List.append_nil rows).symm, hp⟩⟩
    rintro ⟨removed, heq, hp⟩
    rw [List.append_nil] at heq
    exact heq ▸ hp
  · have hno := not_removesOnly (redundantRows P true rows 0).1 removed hpage
    rw [← hrows] at hno
    exact ⟨fun h => absurd h hno.1, fun h => absurd h hno.2⟩

theorem redundantLoop_length (delays : List (List LinkedListData)) :
    (redundantLoop P true delays rows).1.length ≤ (offered P delays rows).length := by
  induction delays generalizing rows with
  | nil => exact redundantRows_length true 0
  | cons arrived delays ih =>
    by_cases hout : (redundantRows P true rows 0).2 = true ∧ rows ≠ []
    · rw [offered, if_pos hout, redundantLoop, if_pos ⟨hout.1, rfl, hout.2⟩, List.length_append]
      exact Nat.le_trans ih (Nat.le_add_left _ _)
    · rw [offered, if_neg hout, redundantLoop, if_neg (fun h => hout ⟨h.1, h.2.2⟩)]
      exact redundantRows_length true 0

/-- The same with the rows that arrive in its delays. -/
theorem redundantLoop_waiting_spares (delays : List (List LinkedListData)) :
    RemovesOnly (offered P delays rows) (redundantLoop P true delays rows).1 (· < P) ↔
      ∀ r ∈ offered P delays rows, r.PageNum < P := by
  induction delays generalizing rows with
  | nil => exact redundantRows_waiting_spares
  | cons arrived delays ih =>
    by_cases hout : (redundantRows P true rows 0).2 = true ∧ rows ≠ []
    · -- all rows are taken, and the loop goes on with those that arrived
      rw [offered, if_pos hout, redundantLoop, if_pos ⟨hout.1, rfl, hout.2⟩,
        removesOnly_append (redundantLoop_length delays), ih, List.forall_mem_append]
    · rw [offered, if_neg hout, redundantLoop, if_neg (fun h => hout ⟨h.1, h.2.2⟩)]
      exact redundantRows_waiting_spares

/-- **`RedundantDataProcessing(true)` spares wanted rows** exactly when none is queued, nor comes
while it waits. -/
theorem redundant_waiting_spares (delays : List (List LinkedListData)) :
    RemovesOnly (offered h.Page.PageNum delays h.PrintBLink)
        (h.RedundantDataProcessing true delays).PrintBLink (· < h.Page.PageNum) ↔
      ∀ r ∈ offered h.Page.PageNum delays h.PrintBLink, r.PageNum < h.Page.PageNum := by
  rw [RedundantDataProcessing_PrintBLink]
  exact redundantLoop_waiting_spares delays

/-- The loop of `RedundantDataProcessingLastPage` spares the rows of later pages if an older row
stops it, if there are enough rows of page `P` to reach the quota, or if there are no later rows. -/
theorem lastPageLoop_spares (hord : InOrder rows) (hc : Count ≤ 25) :
    RemovesOnly rows (lastPageLoop P rows Count) (· ≤ P) ↔
      (∃ row rest, rows = row :: rest ∧ row.PageNum < P) ∨
        26 - Count ≤ rows.countP (fun r => r.PageNum = P) ∨ ∀ r ∈ rows, r.PageNum ≤ P := by
  induction rows generalizing Count with
  | nil => exact ⟨fun _ => .inr (.inr (by simp)), fun _ => removesOnly_self⟩
  | cons row rest ih =>
    have hord' : InOrder rest := (List.pairwise_cons.1 hord).2
    have hge : ∀ r ∈ rest, row.PageNum ≤ r.PageNum := (List.pairwise_cons.1 hord).1
    by_cases heq : P = row.PageNum
    · have hcount : (row :: rest).countP (fun r => r.PageNum = P) =
          rest.countP (fun r => r.PageNum = P) + 1 :=
        List.countP_cons_of_pos (by simpa using heq.symm)
      have hnext : ¬ ∃ row' rest', rest = row' :: rest' ∧ row'.PageNum < P := by
        rintro ⟨row', rest', rfl, hlt⟩
        have := hge row' (by simp)
        omega
      have hfirst : ¬ ∃ row' rest', row :: rest = row' :: rest' ∧ row'.PageNum < P := by
        rintro ⟨_, _, ⟨⟩, hlt⟩
        omega
      rw [hcount, or_iff_right hfirst]
      by_cases hquota : Count + 1 > 25
      · have hrows : lastPageLoop P (row :: rest) Count = rest := by
          rw [lastPageLoop, if_pos heq, if_pos hquota]
        rw [hrows, removesOnly_cons (Nat.le_refl _)]
        exact ⟨fun _ => .inl (by omega), fun _ => ⟨by omega, removesOnly_self⟩⟩
      · have hrows : lastPageLoop P (row :: rest) Count = lastPageLoop P rest (Count + 1) := by
          rw [lastPageLoop, if_pos heq, if_neg hquota]
        rw [hrows, removesOnly_cons (lastPageLoop_length _), ih hord' (by omega),
          or_iff_right hnext, List.forall_mem_cons]
        constructor
        · rintro ⟨-, h | h⟩
          · exact .inl (by omega)
          · exact .inr ⟨by omega, h⟩
        · rintro (h | h)
          · exact ⟨by omega, .inl (by omega)⟩
          · exact ⟨by omega, .inr h.2⟩
    · have hrows : lastPageLoop P (row :: rest) Count = rest := by rw [lastPageLoop, if_neg heq]
      rw [hrows, removesOnly_cons (Nat.le_refl _)]
      by_cases hlt : row.PageNum < P
      · exact ⟨fun _ => .inl ⟨row, rest, rfl, hlt⟩, fun _ => ⟨by omega, removesOnly_self⟩⟩
      · have hnone : (row :: rest).countP (fun r => r.PageNum = P) = 0 := by
          rw [List.countP_eq_zero, List.forall_mem_cons]
          refine ⟨by simpa using fun h => heq h.symm, ?_⟩
          intro r hr
          have := hge r hr
          simp only [decide_eq_true_eq]
          omega
        rw [hnone]
        refine ⟨fun h => absurd h.1 (by omega), ?_⟩
        rintro (⟨_, _, ⟨⟩, h⟩ | h | h)
        · exact absurd h hlt
        · omega
        · have := h row (by simp)
          omega

/-- **`RedundantDataProcessingLastPage` spares the rows of later pages** exactly when the first row
is of an earlier page, or at least 26 rows of the page under the head are queued, or no later row
is. -/
theorem lastPage_spares (hord : InOrder h.PrintBLink) :
    RemovesOnly h.PrintBLink h.RedundantDataProcessingLastPage.PrintBLink (· ≤ h.Page.PageNum) ↔
      (∃ row rest, h.PrintBLink = row :: rest ∧ row.PageNum < h.Page.PageNum) ∨
        26 ≤ h.PrintBLink.countP (fun r => r.PageNum = h.Page.PageNum) ∨
          ∀ r ∈ h.PrintBLink, r.PageNum ≤ h.Page.PageNum :=
  lastPageLoop_spares hord (Nat.zero_le _)

/-- The queue after the end of a step. -/
theorem output_PrintBLink (b : Bool) :
    (h.output b).PrintBLink = if b then h.PrintBLink else h.PrintBLink.tail := by
  unfold output
  split
  next row rest hq => cases b <;> simp [hq]
  next hq => simp [hq]

theorem PageDataCalculation_PrintBLink :
    h.PageDataCalculation.PrintBLink =
      if h.reconcile.2 then h.reconcile.1.PrintBLink else h.reconcile.1.PrintBLink.tail := by
  rw [PageDataCalculation, output_PrintBLink, suspendCondition_PrintBLink]

/-- More may be taken where the condition is weaker. -/
theorem RemovesOnly.mono {old new : List LinkedListData} {p q : Nat → Prop}
    (h : RemovesOnly old new p) (hpq : ∀ n, p n → q n) : RemovesOnly old new q := by
  obtain ⟨removed, heq, hp⟩ := h
  exact ⟨removed, heq, fun r hr => hpq _ (hp r hr)⟩

/-- Rows are taken in two steps. -/
theorem RemovesOnly.trans {old mid new : List LinkedListData} {p : Nat → Prop}
    (h₁ : RemovesOnly old mid p) (h₂ : RemovesOnly mid new p) : RemovesOnly old new p := by
  obtain ⟨removed₁, rfl, hp₁⟩ := h₁
  obtain ⟨removed₂, rfl, hp₂⟩ := h₂
  exact ⟨removed₁ ++ removed₂, (List.append_assoc _ _ _).symm, List.forall_mem_append.2 ⟨hp₁, hp₂⟩⟩

theorem AuthenticPageMangement_PageNum :
    h.AuthenticPageMangement.Page.PageNum = h.Page.PageNum ∨
      h.AuthenticPageMangement.Page.PageNum = h.Page.PageNum + 1 := by
  unfold AuthenticPageMangement
  split
  · exact .inr rfl
  · exact .inl rfl

/-! ## Runs -/

/-- The motor interrupt, with all rows that were ever queued. -/
structure Supply where
  head : Head
  arrived : List LinkedListData

/-- What happens: a motor step, the call `RedundantDataProcessing(true)` of `Print` with the rows
that arrive in its delays, the arrival of a row, and the start and the end of a motor run. -/
inductive Action
  | motor
  | discard (delays : List (List LinkedListData))
  | arrive (row : LinkedListData)
  | start (CurrentSMP : StepMP)
  | stop

namespace Supply

variable {s t : Supply} {a : Action}

/-- The state after an action. -/
def next (s : Supply) : Action → Supply
  | .motor => { s with head := s.head.PageDataCalculation }
  | .discard delays =>
    { head := s.head.RedundantDataProcessing true delays
      arrived := s.arrived ++
        (offered s.head.Page.PageNum delays s.head.PrintBLink).drop s.head.PrintBLink.length }
  | .arrive row =>
    { head := { s.head with PrintBLink := s.head.PrintBLink ++ [row] }
      arrived := s.arrived ++ [row] }
  | .start CurrentSMP => { s with head := s.head.StepMotorStart CurrentSMP }
  | .stop => { s with head := { s.head with SMP := { s.head.SMP with Status := .Stopped } } }

/-- The discard call that the action makes meets its condition, no label ends while a row of its
page is queued, and a locked page has no row of a later page before it. -/
def Spares (s : Supply) : Action → Prop
  | .motor => ∀ row rest, s.head.PrintBLink = row :: rest →
      (s.head.Gap.LockPage = true → row.PageNum ≤ s.head.Page.PageNum) ∧
      (s.head.Gap.LockPage = false → row.PageNum = s.head.Page.PageNum →
        s.head.Page.RemainderSteps ≠ 1 ∧ (s.head.Page.RemainderSteps ≤ 16 →
          26 ≤ s.head.PrintBLink.countP (fun r => r.PageNum = s.head.Page.PageNum) ∨
            ∀ r ∈ s.head.PrintBLink, r.PageNum ≤ s.head.Page.PageNum)) ∧
      (s.head.Gap.LockPage = false → row.PageNum < s.head.Page.PageNum →
        26 ≤ s.head.PrintBLink.countP (fun r => r.PageNum < s.head.Page.PageNum) ∨
          ∀ r ∈ s.head.PrintBLink, r.PageNum < s.head.Page.PageNum)
  | .discard delays => ∀ r ∈ offered s.head.Page.PageNum delays s.head.PrintBLink,
      r.PageNum < s.head.Page.PageNum
  | _ => True

/-- An action of a run: rows arrive in page order, and the wanted ones are spared. -/
def Step (s t : Supply) : Prop := ∃ a, t = s.next a ∧ InOrder t.arrived ∧ s.Spares a

/-- The rows taken so far are of the page under the head or of earlier pages. -/
def Kept (s : Supply) : Prop := RemovesOnly s.arrived s.head.PrintBLink (· ≤ s.head.Page.PageNum)

/-- **What a motor step does to the queue.** It takes no row of a later page, and turns the page
only where the queue holds later pages alone, which it leaves as they are. -/
theorem motor_step (hord : InOrder s.head.PrintBLink) (hs : s.Spares .motor) :
    RemovesOnly s.head.PrintBLink s.head.PageDataCalculation.PrintBLink
        (· ≤ s.head.Page.PageNum) ∧
      (s.head.PageDataCalculation.Page.PageNum = s.head.Page.PageNum ∨
        s.head.PageDataCalculation.Page.PageNum = s.head.Page.PageNum + 1 ∧
          s.head.PageDataCalculation.PrintBLink = s.head.PrintBLink ∧
          ∀ r ∈ s.head.PrintBLink, s.head.Page.PageNum < r.PageNum) := by
  obtain ⟨h, arrived⟩ := s
  simp only [Spares] at hord hs ⊢
  rw [PageDataCalculation_PrintBLink, PageDataCalculation_Page]
  cases hq : h.PrintBLink with
  | nil =>
    simp only [reconcile_nil hq, AuthenticPageMangement_PrintBLink, hq, List.tail_nil, ite_self]
    refine ⟨removesOnly_self,
      AuthenticPageMangement_PageNum.imp_right fun hturn => ⟨hturn, trivial, ?_⟩⟩
    exact fun r hr => absurd hr List.not_mem_nil
  | cons row rest =>
    obtain ⟨hlocked, hpage, hearlier⟩ := hs row rest hq
    -- one row of a page that may be taken
    have hpop (hle : row.PageNum ≤ h.Page.PageNum) :
        RemovesOnly (row :: rest) rest (· ≤ h.Page.PageNum) :=
      (removesOnly_cons (Nat.le_refl _)).2 ⟨hle, removesOnly_self⟩
    by_cases hlock : h.Gap.LockPage = false
    · rcases Nat.lt_trichotomy row.PageNum h.Page.PageNum with hlt | heq | hgt
      · have hspared := (redundant_spares hord).2 (hearlier hlock hlt)
        rw [reconcile_earlier hq hlock hlt, ← hq]
        exact ⟨hspared.mono fun n hn => Nat.le_of_lt hn,
          .inl (RedundantDataProcessing_PageNum false [])⟩
      · obtain ⟨hlast, hquota⟩ := hpage hlock heq
        have hauth := AuthenticPageMangement_step hlast
        by_cases hmargin : h.AuthenticPageMangement.Page.RemainderSteps < 16
        · rw [reconcile_margin hq hlock heq hmargin, hauth, ← hq]
          rw [hauth] at hmargin
          exact ⟨(lastPage_spares hord).2 (.inr (hquota (Int.le_of_sub_one_lt hmargin))), .inl rfl⟩
        · rw [reconcile_row hq hlock heq hmargin, hauth]
          simp only [hq]
          exact ⟨hpop (Nat.le_of_eq heq), .inl trivial⟩
      · rw [hq] at hord
        simp only [reconcile_later hq hlock hgt, AuthenticPageMangement_PrintBLink, hq, if_true]
        refine ⟨removesOnly_self,
          AuthenticPageMangement_PageNum.imp_right fun hturn => ⟨hturn, trivial, ?_⟩⟩
        refine List.forall_mem_cons.2 ⟨hgt, ?_⟩
        intro r hr
        exact Nat.lt_of_lt_of_le hgt ((List.pairwise_cons.1 hord).1 r hr)
    · rw [reconcile_locked hq hlock]
      simp only [hq]
      exact ⟨hpop (hlocked (by simpa using hlock)), .inl trivial⟩

/-- The rows that are queued are some that were queued at some time. -/
theorem inOrder_head (hk : s.Kept) (hord : InOrder s.arrived) : InOrder s.head.PrintBLink := by
  obtain ⟨removed, heq, -⟩ := hk
  rw [heq] at hord
  exact (List.pairwise_append.1 hord).2.1

/-- The rows that arrive while `RedundantDataProcessing(true)` waits come after the queued ones. -/
theorem offered_prefix (rows : List LinkedListData) (delays : List (List LinkedListData)) :
    rows <+: offered P delays rows := by
  cases delays with
  | nil => exact List.prefix_refl rows
  | cons arrived delays =>
    rw [offered]
    split
    · exact List.prefix_append rows _
    · exact List.prefix_refl rows

/-- **One action** keeps that only rows of the page under the head and of earlier pages are
taken. -/
theorem step_kept (hk : s.Kept) (hord : InOrder s.arrived) (hs : s.Spares a) : (s.next a).Kept := by
  cases a with
  | motor =>
    obtain ⟨hremoved, hturn⟩ := motor_step (inOrder_head hk hord) hs
    have hle : s.head.Page.PageNum ≤ s.head.PageDataCalculation.Page.PageNum := by omega
    exact (hk.trans hremoved).mono fun n hn => Nat.le_trans hn hle
  | discard delays =>
    obtain ⟨removed, heq, hp⟩ := hk
    have hall : (s.next (.discard delays)).arrived =
        removed ++ offered s.head.Page.PageNum delays s.head.PrintBLink := by
      obtain ⟨new, hnew⟩ := offered_prefix (P := s.head.Page.PageNum) s.head.PrintBLink delays
      simp only [next]
      rw [heq, ← hnew, List.drop_left, List.append_assoc]
    have hpage : (s.next (.discard delays)).head.Page.PageNum = s.head.Page.PageNum :=
      RedundantDataProcessing_PageNum true delays
    rw [Kept, hall, hpage]
    have hspared := ((redundant_waiting_spares delays).2 hs).mono fun n hn => Nat.le_of_lt hn
    refine (removesOnly_append ?_).2 ⟨hp, hspared⟩
    rw [next, RedundantDataProcessing_PrintBLink]
    exact redundantLoop_length delays
  | arrive row =>
    obtain ⟨removed, heq, hp⟩ := hk
    exact ⟨removed, by simp [next, heq], hp⟩
  | start CurrentSMP =>
    have hsame : (s.next (.start CurrentSMP)).head.PrintBLink = s.head.PrintBLink ∧
        (s.next (.start CurrentSMP)).head.Page.PageNum = s.head.Page.PageNum := by
      simp only [next, StepMotorStart]
      split <;> exact ⟨rfl, rfl⟩
    rw [Kept, hsame.1, hsame.2]
    exact hk
  | stop => exact hk

/-- **A run** keeps it. -/
theorem run_kept (h : Relation.ReflTransGen Step s t) (hk : s.Kept) (hord : InOrder s.arrived) :
    t.Kept ∧ InOrder t.arrived :=
  Runs.invariant (I := fun s => s.Kept ∧ InOrder s.arrived)
    (fun s t hI hst => by
      obtain ⟨a, rfl, hord', hs⟩ := hst
      exact ⟨step_kept hI.1 hI.2 hs, hord'⟩) h ⟨hk, hord⟩

/-- Where only later pages are queued, the queue holds all of their rows. -/
theorem queue_eq_filter (hk : RemovesOnly s.arrived rows (· ≤ P))
    (hlater : ∀ r ∈ rows, P < r.PageNum) :
    rows = s.arrived.filter fun r => P + 1 ≤ r.PageNum := by
  obtain ⟨removed, heq, hp⟩ := hk
  rw [heq, List.filter_append, List.filter_eq_nil_iff.2, List.filter_eq_self.2, List.nil_append]
  · exact fun r hr => decide_eq_true (hlater r hr)
  · intro r hr
    have := hp r hr
    simp only [decide_eq_true_eq]
    omega

end Supply

/-- **When the discard calls spare wanted rows.** For a queue in page order, the three conditions
under which a call does; and in every run from it whose calls meet them, and where no label ends
with a row of its page still queued, only rows of the page under the head and of earlier pages are
taken, and when the label of a page begins the queue holds all rows of that page and later ones that
were ever queued, and no other row is before them. -/
theorem discards_spare (h : Head) (hord : InOrder h.PrintBLink)
    (delays : List (List LinkedListData)) :
    (RemovesOnly h.PrintBLink (h.RedundantDataProcessing false []).PrintBLink
        (· < h.Page.PageNum) ↔
      26 ≤ h.PrintBLink.countP (fun r => r.PageNum < h.Page.PageNum) ∨
        ∀ r ∈ h.PrintBLink, r.PageNum < h.Page.PageNum) ∧
    (RemovesOnly (offered h.Page.PageNum delays h.PrintBLink)
        (h.RedundantDataProcessing true delays).PrintBLink (· < h.Page.PageNum) ↔
      ∀ r ∈ offered h.Page.PageNum delays h.PrintBLink, r.PageNum < h.Page.PageNum) ∧
    (RemovesOnly h.PrintBLink h.RedundantDataProcessingLastPage.PrintBLink
        (· ≤ h.Page.PageNum) ↔
      (∃ row rest, h.PrintBLink = row :: rest ∧ row.PageNum < h.Page.PageNum) ∨
        26 ≤ h.PrintBLink.countP (fun r => r.PageNum = h.Page.PageNum) ∨
          ∀ r ∈ h.PrintBLink, r.PageNum ≤ h.Page.PageNum) ∧
    ∀ t, Relation.ReflTransGen Supply.Step { head := h, arrived := h.PrintBLink } t →
      t.Kept ∧ (t.Spares .motor → (t.next .motor).head.Page.PageNum ≠ t.head.Page.PageNum →
        (t.next .motor).head.Page.PageNum = t.head.Page.PageNum + 1 ∧
          (t.next .motor).head.PrintBLink =
            t.arrived.filter fun r => (t.next .motor).head.Page.PageNum ≤ r.PageNum) := by
  refine ⟨redundant_spares hord, redundant_waiting_spares delays, lastPage_spares hord, ?_⟩
  intro t hrun
  obtain ⟨hk, hord'⟩ := Supply.run_kept hrun removesOnly_self hord
  refine ⟨hk, ?_⟩
  intro hs hne
  obtain ⟨-, hsame | ⟨hturn, hqueue, hlater⟩⟩ := Supply.motor_step (Supply.inOrder_head hk hord') hs
  · exact absurd hsame hne
  · refine ⟨hturn, ?_⟩
    simp only [Supply.next, hturn, hqueue]
    exact Supply.queue_eq_filter hk hlater

/-- A full row. -/
def line (b : UInt8) : List UInt8 := List.replicate PrintlineBytes b

/-- The last step of a label whose successor has a row in the queue. -/
theorem discards_spare_turn :
    let h := { init with
      Page := { init.Page with RemainderSteps := 1 }, PrintBLink := [⟨line 2, 1⟩] }
    let t : Supply := { head := h, arrived := h.PrintBLink }
    (RemovesOnly h.PrintBLink h.RedundantDataProcessingLastPage.PrintBLink
        (· ≤ h.Page.PageNum) ↔
      (∃ row rest, h.PrintBLink = row :: rest ∧ row.PageNum < h.Page.PageNum) ∨
        26 ≤ h.PrintBLink.countP (fun r => r.PageNum = h.Page.PageNum) ∨
          ∀ r ∈ h.PrintBLink, r.PageNum ≤ h.Page.PageNum) ∧
      t.Kept ∧ (t.next .motor).head.Page.PageNum = 1 ∧
      (t.next .motor).head.PrintBLink = t.arrived.filter fun r => 1 ≤ r.PageNum := by
  intro h t
  have hspares : t.Spares .motor := by
    rintro row rest ⟨⟩
    exact ⟨fun h => absurd h (by decide), fun _ h => absurd h (by decide),
      fun _ h => absurd h (by decide)⟩
  obtain ⟨-, -, hlast, hruns⟩ := discards_spare h (by simp [InOrder, h]) []
  obtain ⟨hk, hturn⟩ := hruns t .refl
  obtain ⟨hpage, hqueue⟩ := hturn hspares (by decide)
  exact ⟨hlast, hk, hpage, hqueue⟩

/-- **The first row of the next page is lost.** `RedundantDataProcessing` takes it at the end of the
surplus rows, waiting or not, and so does `RedundantDataProcessingLastPage` in the margin of a label
of 17 steps: when the label of page 1 begins, its row is gone, and it was not printed. -/
theorem wanted_row_lost :
    let rows : List LinkedListData := [⟨line 1, 0⟩, ⟨line 2, 0⟩, ⟨line 3, 1⟩]
    let h := { init with Page := { init.Page with PageNum := 1 }, PrintBLink := rows }
    let labels := { init with Gap := { init.Gap with LabelLength := 17 } }.StepMotorStart SMPCurrent
    let run := PageDataCalculation^[17] { labels with PrintBLink := rows }
    InOrder rows ∧
      ¬ RemovesOnly rows (h.RedundantDataProcessing false []).PrintBLink (· < h.Page.PageNum) ∧
      ¬ RemovesOnly rows (h.RedundantDataProcessing true []).PrintBLink (· < h.Page.PageNum) ∧
      ¬ RemovesOnly rows { init with PrintBLink := rows }.RedundantDataProcessingLastPage.PrintBLink
        (· ≤ init.Page.PageNum) ∧
      run.Page.PageNum = 1 ∧ run.PrintBLink = [] ∧
      run.latched = line 1 :: List.replicate 16 blank := by
  intro rows h labels run
  have hall : (h.RedundantDataProcessing false []).PrintBLink = [] ∧
      (h.RedundantDataProcessing true []).PrintBLink = [] ∧
      { init with PrintBLink := rows }.RedundantDataProcessingLastPage.PrintBLink = [] ∧
      run.Page.PageNum = 1 ∧ run.PrintBLink = [] ∧
      run.latched = line 1 :: List.replicate 16 blank := by decide +kernel
  obtain ⟨hfalse, htrue, hlastPage, hrun⟩ := hall
  -- to empty the queue all rows must be removed, the row of page 1 too
  have hlost : ∀ p : Nat → Prop, RemovesOnly rows [] p → p 1 := by
    rintro p ⟨removed, heq, hp⟩
    rw [List.append_nil] at heq
    exact hp ⟨line 3, 1⟩ (by rw [← heq]; simp [rows])
  refine ⟨by simp [InOrder, rows], ?_, ?_, ?_, hrun⟩
  · rw [hfalse]
    exact fun h => absurd (hlost _ h) (by decide)
  · rw [htrue]
    exact fun h => absurd (hlost _ h) (by decide)
  · rw [hlastPage]
    exact fun h => absurd (hlost _ h) (by decide)

end Head

end ThermalPrinter
