import ThermalPrinter.Lib.Runs
import Mathlib.Data.List.Infix
import Mathlib.Order.Monotone.Basic

/-!
# Waiting for the rest of a page

When a printing run stops before the end of a page was received, `Print` waits for more rows, in
rounds of 800 ms. It looks at the queue's length after every round: a `do` loop counts the rounds
that found no row, and a `goto` inside it the rounds that found rows, but no new ones. The motor
stands meanwhile, so the queue only grows, and the wait ends.
-/

namespace ThermalPrinter

/-- Where the wait loop stands: at its `do`, at `again`, at its `while`, or left. -/
inductive WaitPlace
  | top | again | bottom | left
  deriving DecidableEq, Repr

/-- The variables of the wait loop, the first two of them bytes, and the lengths that it prints, one
for each round. -/
structure Wait where
  place : WaitPlace
  keeptrying : Nat
  keeptryingWithData : Nat
  NodeCount : Nat
  OldNodeCount : Nat
  rounds : List Nat
  deriving DecidableEq, Repr

/-- What the loop finds when it looks: `command.PageEndFlag` and the queue's length. -/
structure Finding where
  PageEndFlag : Bool
  queue : Nat
  deriving DecidableEq, Repr

namespace Wait

/-- The loop is entered. `OldNodeCount` is the queue's length when the printing run was started. -/
def enter (OldNodeCount : Nat) : Wait where
  place := .top
  keeptrying := 0
  keeptryingWithData := 0
  NodeCount := OldNodeCount
  OldNodeCount := OldNodeCount
  rounds := []

/-- A round has found the queue at a length. -/
def look (queue : Nat) (w : Wait) : Wait :=
  { w with
    keeptryingWithData := if w.OldNodeCount ≠ queue then 0 else w.keeptryingWithData
    NodeCount := queue
    OldNodeCount := queue
    rounds := w.rounds ++ [queue] }

/-- The loop from one place to the next. -/
def step (found : Finding) (w : Wait) : Wait :=
  match w.place with
  | .top =>
    { w with
      place := if found.PageEndFlag then .left else .again
      keeptrying := (w.keeptrying + 1) % 2 ^ 8
      keeptryingWithData := 0 }
  | .again =>
    let w := w.look found.queue
    if 0 < w.NodeCount ∧ w.NodeCount < 400 then
      let w := { w with keeptryingWithData := (w.keeptryingWithData + 1) % 2 ^ 8 }
      if 15 < w.keeptryingWithData ∨ found.PageEndFlag then { w with place := .left } else w
    else { w with place := .bottom }
  | .bottom => { w with place := if w.NodeCount = 0 ∧ w.keeptrying ≤ 8 then .top else .left }
  | .left => w

/-- The loop after some steps, the `k`-th of which finds `found k`. -/
def run (OldNodeCount : Nat) (found : Nat → Finding) : Nat → Wait
  | 0 => enter OldNodeCount
  | k + 1 => (run OldNodeCount found k).step (found k)

/-- Why the loop is left by a step: it found 400 rows or more, it saw the page end, it found the
same rows in a round and in the 15 rounds after it, or no row in 9 rounds. -/
def Reason (w : Wait) (found : Finding) : Prop :=
  (∃ n ∈ (w.step found).rounds.getLast?, 400 ≤ n) ∨
  (w.place ≠ .bottom ∧ found.PageEndFlag = true) ∨
  (∃ n, 1 ≤ n ∧ n ≤ 399 ∧ List.replicate 16 n <:+ (w.step found).rounds) ∨
  (w.step found).rounds = List.replicate 9 0

/-! ## What a step does -/

/-- No length was found in too many rounds. -/
def Few (rounds : List Nat) : Prop :=
  rounds.count 0 ≤ 9 ∧ ∀ n, 1 ≤ n → n ≤ 399 → rounds.count n ≤ 16

/-- The rounds before the queue came to the length `n`. -/
def Settled (rounds : List Nat) (n : Nat) : Prop := Few rounds ∧ ∀ m ∈ rounds, m < n

/-- The stages of the loop: `e` rounds found no row, or the last `d` rounds found `n` rows. -/
inductive Stage : Wait → Prop
  | top {e d N Old} (he : e ≤ 8) : Stage ⟨.top, e, d, N, Old, .replicate e 0⟩
  | empty {e N Old} (he : e ≤ 8) : Stage ⟨.again, e + 1, 0, N, Old, .replicate e 0⟩
  | rows {j d n old} (hn : 1 ≤ n) (hn' : n ≤ 399) (hd : 1 ≤ d) (hd' : d ≤ 15)
      (hold : Settled old n) : Stage ⟨.again, j, d, n, n, old ++ .replicate d n⟩
  | none {e d Old} (he : e ≤ 8) : Stage ⟨.bottom, e + 1, d, 0, Old, .replicate (e + 1) 0⟩
  | full {j d n Old old} (hn : 400 ≤ n) (hold : Settled old n) :
      Stage ⟨.bottom, j, d, n, Old, old ++ [n]⟩
  | left {w} (hleft : w.place = .left) (hfew : Few w.rounds) : Stage w

/-- A bound of the steps that are left: first by the empty rounds, then by the queue's growth, then
by the rounds at one length. -/
def budget (w : Wait) : Nat :=
  match w.place with
  | .top => 6410 + 3 * (9 - w.keeptrying)
  | .again =>
    if w.keeptryingWithData = 0 then 6409 + 3 * (10 - w.keeptrying)
    else 2 + (16 - w.keeptryingWithData) + 16 * (399 - w.NodeCount)
  | .bottom => if w.NodeCount = 0 then 6408 + 3 * (10 - w.keeptrying) else 1
  | .left => 0

/-- What a step does: it comes to a stage, uses up some of the budget, and leaves for a reason. -/
structure Turn (w : Wait) (found : Finding) : Prop where
  stage : Stage (w.step found)
  spent : w.place ≠ .left → (w.step found).budget < w.budget
  reason : w.place ≠ .left → (w.step found).place = .left → Reason w found

section

variable {w w' : Wait} {found : Finding} {old l : List Nat} {d e j n n' N Old : Nat}

@[simp] theorem budget_top : budget ⟨.top, e, d, N, Old, l⟩ = 6410 + 3 * (9 - e) := rfl

@[simp] theorem budget_empty : budget ⟨.again, j, 0, N, Old, l⟩ = 6409 + 3 * (10 - j) := rfl

theorem budget_rows (hd : 1 ≤ d) :
    budget ⟨.again, j, d, n, Old, l⟩ = 2 + (16 - d) + 16 * (399 - n) :=
  if_neg (Nat.ne_of_gt hd)

@[simp] theorem budget_none : budget ⟨.bottom, j, d, 0, Old, l⟩ = 6408 + 3 * (10 - j) := rfl

theorem budget_full (hn : 1 ≤ n) : budget ⟨.bottom, j, d, n, Old, l⟩ = 1 :=
  if_neg (Nat.ne_of_gt hn)

@[simp] theorem budget_left : budget ⟨.left, j, d, N, Old, l⟩ = 0 := rfl

/-- A step that stays in the loop. -/
theorem Turn.go (hstep : w.step found = w') (hw : Stage w') (hplace : w'.place ≠ .left)
    (hbudget : w'.budget < w.budget) : Turn w found := by
  subst hstep
  exact ⟨hw, fun _ => hbudget, fun _ hleft => absurd hleft hplace⟩

/-- A step that leaves the loop. -/
theorem Turn.leave (hstep : w.step found = ⟨.left, j, d, N, Old, l⟩) (hfew : Few l)
    (hbudget : 0 < w.budget) (hreason : Reason w found) : Turn w found := by
  refine ⟨?_, ?_, fun _ _ => hreason⟩
  · rw [hstep]
    exact .left rfl hfew
  · intro _
    rw [hstep, budget_left]
    exact hbudget

theorem few_replicate (he : e ≤ 9) : Few (.replicate e 0) := by
  refine ⟨by rwa [List.count_replicate_self], ?_⟩
  intro n hn _
  rw [List.count_replicate, if_neg (by simp; omega)]
  exact Nat.zero_le _

theorem settled_replicate (he : e ≤ 9) (hn : 1 ≤ n) : Settled (.replicate e 0) n :=
  ⟨few_replicate he, fun m hm => by rw [List.eq_of_mem_replicate hm]; exact hn⟩

theorem Settled.few (hold : Settled old n) (hn : 1 ≤ n) (hd : d ≤ 16) :
    Few (old ++ .replicate d n) := by
  have hzero : old.count n = 0 := List.count_eq_zero_of_not_mem fun hmem => (hold.2 n hmem).false
  refine ⟨?_, ?_⟩
  · rw [List.count_append, List.count_replicate, if_neg (by simp; omega)]
    exact hold.1.1
  · intro m hm hm'
    rw [List.count_append, List.count_replicate]
    split
    · next heq =>
      rw [← beq_iff_eq.1 heq, hzero, Nat.zero_add]
      exact hd
    · exact hold.1.2 m hm hm'

theorem Settled.grow (hold : Settled old n) (hn : 1 ≤ n) (hd : d ≤ 16) (hlt : n < n') :
    Settled (old ++ .replicate d n) n' := by
  refine ⟨hold.few hn hd, ?_⟩
  intro m hm
  obtain hm | hm := List.mem_append.1 hm
  · exact (hold.2 m hm).trans hlt
  · rwa [List.eq_of_mem_replicate hm]

/-- A round that finds the queue at a length below 400, in the `d`-th round at that length. -/
theorem turn_rows (hplace : w.place = .again) (hn : 1 ≤ found.queue) (hn' : found.queue ≤ 399)
    (hd : 1 ≤ d) (hd' : d ≤ 16) (hold : Settled old found.queue)
    (hcount : ((w.look found.queue).keeptryingWithData + 1) % 2 ^ 8 = d)
    (hrounds : w.rounds ++ [found.queue] = old ++ .replicate d found.queue)
    (hbudget : 2 + (16 - d) + 16 * (399 - found.queue) < w.budget) : Turn w found := by
  have hstep : w.step found =
      ⟨if 15 < d ∨ found.PageEndFlag = true then .left else .again, w.keeptrying, d, found.queue,
        found.queue, old ++ .replicate d found.queue⟩ := by
    have hin : 0 < (w.look found.queue).NodeCount ∧ (w.look found.queue).NodeCount < 400 :=
      ⟨hn, Nat.lt_succ_of_le hn'⟩
    simp only [step, hplace, if_pos hin, hcount, ← hrounds]
    split
    · rfl
    · simp only [look, hplace]
  by_cases hend : 15 < d ∨ found.PageEndFlag = true
  · rw [if_pos hend] at hstep
    refine .leave hstep (hold.few hn hd') (Nat.zero_lt_of_lt hbudget) ?_
    obtain hlast | hflag := hend
    · refine .inr (.inr (.inl ⟨found.queue, hn, hn', ?_⟩))
      rw [hstep, show d = 16 by omega]
      exact List.suffix_append ..
    · exact .inr (.inl ⟨by rw [hplace]; nofun, hflag⟩)
  · rw [if_neg hend] at hstep
    refine .go hstep (.rows hn hn' hd (by omega) hold) nofun ?_
    rwa [budget_rows hd]

/-- A round that finds 400 rows or more. -/
theorem turn_full (hplace : w.place = .again) (hn : 400 ≤ found.queue)
    (hold : Settled w.rounds found.queue) (hbudget : 1 < w.budget) : Turn w found := by
  have hstep : w.step found = { w.look found.queue with place := .bottom } := by
    have hout : ¬ (0 < (w.look found.queue).NodeCount ∧ (w.look found.queue).NodeCount < 400) :=
      fun h => h.2.not_ge hn
    simp only [step, hplace, if_neg hout]
  have hpos : 1 ≤ found.queue := Nat.le_trans (by decide) hn
  refine .go hstep (.full hn hold) nofun ?_
  rwa [look, budget_full hpos]

/-- **A step of the loop**, by the stages. The queue has not shrunk since the rounds before. -/
theorem Stage.turn (h : Stage w) (hmono : ∀ n ∈ w.rounds, n ≤ found.queue) : Turn w found := by
  cases h with
  | @top e d N Old he =>
    have hstep : step found ⟨.top, e, d, N, Old, .replicate e 0⟩ =
        ⟨if found.PageEndFlag then .left else .again, e + 1, 0, N, Old, .replicate e 0⟩ := by
      simp only [step]
      congr 1
      omega
    cases hflag : found.PageEndFlag with
    | true =>
      rw [hflag, if_pos rfl] at hstep
      refine .leave hstep (few_replicate (by omega)) ?_ (.inr (.inl ⟨nofun, hflag⟩))
      rw [budget_top]
      omega
    | false =>
      rw [hflag, if_neg nofun] at hstep
      refine .go hstep (.empty he) nofun ?_
      rw [budget_empty, budget_top]
      omega
  | @empty e N Old he =>
    obtain hzero | hn := Nat.eq_zero_or_pos found.queue
    · have hstep : step found ⟨.again, e + 1, 0, N, Old, .replicate e 0⟩ =
          ⟨.bottom, e + 1, 0, 0, 0, .replicate (e + 1) 0⟩ := by
        simp [step, look, hzero, List.replicate_succ']
      refine .go hstep (.none he) nofun ?_
      rw [budget_none, budget_empty]
      omega
    · have hold : Settled (.replicate e 0) found.queue := settled_replicate (by omega) hn
      obtain hn' | hn' := Nat.lt_or_ge 399 found.queue
      · refine turn_full rfl hn' hold ?_
        rw [budget_empty]
        omega
      · refine turn_rows (d := 1) rfl hn hn' (by decide) (by decide) hold ?_ rfl ?_
        · simp [look]
        · rw [budget_empty]
          omega
  | @rows j d n old hn hn' hd hd' hold =>
    have hle : n ≤ found.queue :=
      hmono n (List.mem_append_right _ (List.mem_replicate.2 ⟨Nat.ne_of_gt hd, rfl⟩))
    obtain hlt | heq := Nat.lt_or_eq_of_le hle
    · have hgrow := hold.grow hn (Nat.le_succ_of_le hd') hlt
      obtain hfull | hfew := Nat.lt_or_ge 399 found.queue
      · refine turn_full rfl hfull hgrow ?_
        rw [budget_rows hd]
        omega
      · refine turn_rows (d := 1) rfl (by omega) hfew (by decide) (by decide) hgrow ?_ rfl ?_
        · simp [look, hlt.ne]
        · rw [budget_rows hd]
          omega
    · refine turn_rows (d := d + 1) rfl (by omega) (by omega) (by omega) (by omega)
        (heq ▸ hold) ?_ ?_ ?_
      · simp only [look, heq, ne_eq, not_true_eq_false, if_false]
        omega
      · rw [← heq, List.replicate_succ', List.append_assoc]
      · rw [budget_rows hd]
        omega
  | @none e d Old he =>
    obtain hlt | hlast := Nat.lt_or_ge e 8
    · have hstep : step found ⟨.bottom, e + 1, d, 0, Old, .replicate (e + 1) 0⟩ =
          ⟨.top, e + 1, d, 0, Old, .replicate (e + 1) 0⟩ := by
        simp only [step]
        rw [if_pos ⟨trivial, hlt⟩]
      refine .go hstep (.top hlt) nofun ?_
      rw [budget_top, budget_none]
      omega
    · have hstep : step found ⟨.bottom, e + 1, d, 0, Old, .replicate (e + 1) 0⟩ =
          ⟨.left, e + 1, d, 0, Old, .replicate (e + 1) 0⟩ := by
        simp only [step]
        rw [if_neg (by omega)]
      refine .leave hstep (few_replicate (by omega)) ?_ (.inr (.inr (.inr ?_)))
      · rw [budget_none]
        omega
      · rw [hstep, show e = 8 by omega]
  | @full j d n Old old hn hold =>
    have hstep : step found ⟨.bottom, j, d, n, Old, old ++ [n]⟩ =
        ⟨.left, j, d, n, Old, old ++ [n]⟩ := by
      simp only [step]
      rw [if_neg (by omega)]
    refine .leave hstep (hold.few (d := 1) (by omega) (by decide)) ?_ (.inl ⟨n, ?_, hn⟩)
    · rw [budget_full (by omega)]
      exact Nat.one_pos
    · rw [hstep]
      exact List.getLast?_concat
  | left hleft hfew =>
    have hstep : w.step found = w := by
      simp only [step, hleft]
    exact ⟨by rw [hstep]; exact .left hleft hfew, fun h => absurd hleft h, fun h => absurd hleft h⟩

/-! ## The whole wait -/

variable {finds : Nat → Finding}

/-- Every round's length was found in a step before. -/
theorem run_rounds (k : Nat) : ∀ n ∈ (run Old finds k).rounds, ∃ j < k, n = (finds j).queue := by
  induction k with
  | zero => nofun
  | succ k ih =>
    intro n hn
    have hround : n ∈ (run Old finds k).rounds ∨ n = (finds k).queue := by
      rw [run, step] at hn
      split at hn
      · exact .inl hn
      · dsimp only at hn
        have hlook : n ∈ (run Old finds k).rounds ++ [(finds k).queue] := by
          split at hn
          · split at hn <;> exact hn
          · exact hn
        simpa using hlook
      · exact .inl hn
      · exact .inl hn
    obtain hn | rfl := hround
    · obtain ⟨j, hj, rfl⟩ := ih n hn
      exact ⟨j, Nat.lt_succ_of_lt hj, rfl⟩
    · exact ⟨k, Nat.lt_succ_self k, rfl⟩

/-- The loop comes from stage to stage. -/
theorem run_stage (hmono : Monotone fun k => (finds k).queue) (k : Nat) :
    Stage (run Old finds k) ∧ Turn (run Old finds k) (finds k) := by
  have hrounds (k : Nat) : ∀ n ∈ (run Old finds k).rounds, n ≤ (finds k).queue := by
    intro n hn
    obtain ⟨j, hj, rfl⟩ := run_rounds k n hn
    exact hmono hj.le
  induction k with
  | zero => exact ⟨.top (e := 0) (by decide), (Stage.top (by decide)).turn (hrounds 0)⟩
  | succ k ih => exact ⟨ih.2.stage, ih.2.stage.turn (hrounds (k + 1))⟩

theorem Stage.few (h : Stage w) : Few w.rounds := by
  cases h with
  | top he => exact few_replicate (Nat.le_succ_of_le he)
  | empty he => exact few_replicate (Nat.le_succ_of_le he)
  | rows hn _ _ hd' hold => exact hold.few hn (Nat.le_succ_of_le hd')
  | none he => exact few_replicate (Nat.succ_le_succ he)
  | full hn hold => exact hold.few (d := 1) (Nat.le_trans (by decide) hn) (by decide)
  | left _ hfew => exact hfew

end

end Wait

open Wait in
/-- **The wait ends.** For every queue that only grows, and whenever the page's end is seen, the
loop is left after finitely many rounds: at most 9 with an empty queue, and at most 16 for each
length from 1 to 399. It is left for one of its reasons. -/
theorem wait_ends (OldNodeCount : Nat) (found : Nat → Finding)
    (hmono : Monotone fun k => (found k).queue) :
    (∃ k, (run OldNodeCount found k).place = .left) ∧
      (∀ k, (run OldNodeCount found k).rounds.count 0 ≤ 9 ∧
        ∀ n, 1 ≤ n → n ≤ 399 → (run OldNodeCount found k).rounds.count n ≤ 16) ∧
      ∀ k, (run OldNodeCount found k).place ≠ .left →
        (run OldNodeCount found (k + 1)).place = .left →
        Reason (run OldNodeCount found k) (found k) := by
  refine ⟨?_, ?_, ?_⟩
  · exact Runs.exists_of_measure (fun w => w.place = .left) budget
      fun k => (run_stage hmono k).2.spent
  · exact fun k => (run_stage hmono k).1.few
  · exact fun k => (run_stage hmono k).2.reason

/-- More rows that come after the third look and no others. -/
def lateRows (k : Nat) : Finding where
  PageEndFlag := false
  queue := if k < 3 then 8 else 20

open Wait in
/-- Rows that come late make the wait longer, but it ends. -/
theorem wait_ends_lateRows :
    (∃ k, (run 40 lateRows k).place = .left) ∧
      (∀ k, (run 40 lateRows k).rounds.count 0 ≤ 9 ∧
        ∀ n, 1 ≤ n → n ≤ 399 → (run 40 lateRows k).rounds.count n ≤ 16) ∧
      ∀ k, (run 40 lateRows k).place ≠ .left → (run 40 lateRows (k + 1)).place = .left →
        Reason (run 40 lateRows k) (lateRows k) := by
  refine wait_ends 40 lateRows ?_
  intro j k hjk
  dsimp only [lateRows]
  split <;> split <;> omega

end ThermalPrinter
