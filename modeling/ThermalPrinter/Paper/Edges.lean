import ThermalPrinter.Paper.Countdown
import Mathlib.Data.List.Chain
import Mathlib.Tactic.IntervalCases

/-!
# The edges of the gaps

`GapCalculate` shifts whether a sample is below the threshold into the byte `Gap.CountGap`, and
takes a gap to have come when the byte is `0x07` and to have left when it is `0x01`. The byte is a
counter of ones that rises and falls by one. It comes to `0x07` on the way down too, and there a gap
is recognised as well if `GapIn` is clear, which it is after `StepMotorStart` alone.
-/

namespace ThermalPrinter

/-- What a step of a motor run recognises: that a gap comes, with whether the step's sample was
below the threshold, the label length it records if it does, and `Gap.LableLengthCP`; or that a gap
leaves. -/
inductive Edge
  | entry (step : Nat) (below : Bool) (LabelLength : Option Nat) (LableLengthCP : Nat)
  | exit (step : Nat)
  deriving DecidableEq, Repr

/-- A gap comes. -/
def Edge.isEntry : Edge → Bool
  | entry .. => true
  | exit _ => false

/-- The step of the latest entry; the edges are listed from the latest back. -/
def lastEntry : List Edge → Option Nat
  | [] => none
  | .entry step .. :: _ => some step
  | .exit _ :: edges => lastEntry edges

/-- `LabelLength` is what a label of so many steps is recorded with. -/
def Measures (LableLengthCP steps LabelLength : Nat) : Prop :=
  LabelLength = steps ∨
    LableLengthCP ≠ 0 ∧ (steps + 5 < LableLengthCP ∨ LableLengthCP + 5 < steps) ∧
      LabelLength = LableLengthCP

/-- An entry is recognised at a sample below the threshold, and measures from the entry before. -/
def Edge.Right (edges : List Edge) : Edge → Prop
  | entry step below LabelLength LableLengthCP =>
    below = true ∧ ∀ L ∈ LabelLength, ∃ m ∈ lastEntry edges, Measures LableLengthCP (step - m) L
  | exit _ => True

/-- Every edge is right. -/
def AllRight : List Edge → Prop
  | [] => True
  | edge :: edges => edge.Right edges ∧ AllRight edges

/-- The motor interrupt with its sensor, and the steps and the edges of the motor run. -/
structure Sensing where
  printing : Printing
  steps : Nat
  edges : List Edge

namespace Sensing

/-- `Gap`. -/
abbrev Gap (s : Sensing) : GAP := s.printing.head.Gap

/-- A sample is below the threshold that its step compares it with. -/
def below (adc : Nat) (s : Sensing) : Bool := adc < (s.printing.sensor.sample adc).threshold

/-- The edges with the one that a step recognises, if it sets or clears `GapIn`. -/
def recognise (adc : Nat) (s : Sensing) : List Edge :=
  let Gap' := (s.printing.GapCalculate adc).head.Gap
  if s.Gap.GapIn = false ∧ Gap'.GapIn = true then
    .entry (s.steps + 1) (s.below adc)
      (if s.Gap.StepsGapPos ≠ 0 then some Gap'.LabelLength else none) s.Gap.LableLengthCP :: s.edges
  else if s.Gap.GapIn = true ∧ Gap'.GapIn = false then .exit (s.steps + 1) :: s.edges
  else s.edges

/-- The state after an operation. A start and `FindGapOperation` begin a new run. -/
def next (s : Sensing) (op : Printing.Operation) : Sensing :=
  match op with
  | .start _ =>
    if s.printing.head.SMP.Status = .Running then s
    else { printing := s.printing.next op, steps := 0, edges := [] }
  | .findGap => { printing := s.printing.next op, steps := 0, edges := [] }
  | .gap adc =>
    { printing := s.printing.GapCalculate adc, steps := s.steps + 1, edges := s.recognise adc }
  | .motor | .tasks .. => { s with printing := s.printing.next op }

/-- The state at boot. -/
def init : Sensing := { printing := Printing.init, steps := 0, edges := [] }

/-- Gap edges are recognised only where they are. -/
structure InOrder (s : Sensing) : Prop where
  CountGap : ∃ k ≤ 8, s.Gap.CountGap.toNat = 2 ^ k - 1
  alternate : s.edges.IsChain fun e e' => e.isEntry ≠ e'.isEntry
  right : AllRight s.edges

/-- The step does not go wrong: no sample above the threshold comes while `CountGap` is `0x0F` and
`GapIn` is clear, and where a gap comes and a label is measured, it has fewer than `2 ^ 32`
steps. -/
def Sound (s : Sensing) : Printing.Operation → Prop
  | .gap adc =>
    ¬ (s.below adc = false ∧ s.Gap.CountGap = 0x0F ∧ s.Gap.GapIn = false) ∧
      (s.below adc = true → s.Gap.CountGap = 0x03 → s.Gap.GapIn = false → s.Gap.StepsGapPos ≠ 0 →
        ∀ m ∈ lastEntry s.edges, s.steps + 1 < m + 2 ^ 32)
  | _ => True

end Sensing

/-! ## The counter -/

/-- The byte of `k` ones. -/
def ones (k : Nat) : UInt8 := .ofNat (2 ^ k - 1)

section

variable {k j : Nat}

theorem toNat_ones (hk : k ≤ 8) : (ones k).toNat = 2 ^ k - 1 := by
  interval_cases k <;> rfl

/-- A sample below the threshold adds a one, another takes one away. -/
theorem ones_shift (hk : k ≤ 8) (below : Bool) :
    (if below then ones k <<< 1 ||| 1 else ones k >>> 1) =
      ones (if below then min (k + 1) 8 else k - 1) := by
  interval_cases k <;> cases below <;> rfl

/-- The counter comes to `0x07` from below or from above. -/
theorem shift_eq_seven (hk : k ≤ 8) (below : Bool) :
    (if below then ones k <<< 1 ||| 1 else ones k >>> 1) = 7 ↔
      ones k = if below then 0x03 else 0x0F := by
  interval_cases k <;> cases below <;> decide

end

/-! ## What a step does to the fields of the edges -/

namespace Head

/-- The fields of `Gap` that the recognition of gaps reads. -/
def edgeFields (h : Head) : UInt8 × Bool × Nat × Nat × Nat :=
  (h.Gap.CountGap, h.Gap.GapIn, h.Gap.StepsCount, h.Gap.StepsGapPos, h.Gap.LableLengthCP)

section

variable {h : Head}

/-- Where the label's boundary is moved, the edges are left alone. -/
theorem Corrected.edgeFields {h' : Head} (hc : Corrected h h') : h'.edgeFields = h.edgeFields := by
  obtain ⟨_, _, _, _, rfl⟩ := hc
  rfl

theorem edgeFields_handleLastAuthenticPageGap :
    h.HandleLastAuthenticPageGap.edgeFields = h.edgeFields := by
  simp only [HandleLastAuthenticPageGap]
  split
  · split <;> rfl
  · rfl

theorem labelLength_handleLastAuthenticPageGap :
    h.HandleLastAuthenticPageGap.Gap.LabelLength = h.Gap.LabelLength := by
  simp only [HandleLastAuthenticPageGap]
  split
  · split <;> rfl
  · rfl

/-- A step of the label leaves the edges alone. -/
theorem Stepped.edgeFields {h' : Head} (hs : Stepped h h') : h'.edgeFields = h.edgeFields := by
  obtain ⟨_, _, _, _, _, rfl⟩ := hs
  rfl

/-- A gap comes at a step: the counter comes to 7 while `GapIn` is clear. -/
def Comes (below : Bool) (h : Head) : Prop :=
  (h.gapCount below).Gap.CountGap = 7 ∧ h.Gap.GapIn = false

/-- A gap leaves at a step: the counter comes to 1 while `GapIn` is set. -/
def Leaves (below : Bool) (h : Head) : Prop :=
  (h.gapCount below).Gap.CountGap = 1 ∧ h.Gap.GapIn = true

/-- A step at which a gap comes sets `GapIn`, records the position and, if a gap came before,
measures the label. -/
theorem gapStep_comes {below : Bool} (hcomes : h.Comes below) :
    (h.gapStep below).edgeFields =
        ((h.gapCount below).Gap.CountGap, true, (h.gapCount below).Gap.StepsCount,
          (h.gapCount below).Gap.StepsCount, h.Gap.LableLengthCP) ∧
      (h.gapStep below).Gap.LabelLength =
        if h.Gap.StepsGapPos ≠ 0 then measured (h.gapCount below).Gap else h.Gap.LabelLength := by
  have hcond : (h.gapCount below).Gap.CountGap = 7 ∧ (h.gapCount below).Gap.GapIn = false := hcomes
  have hin : (h.gapCount below).gapIn.Gap.GapIn = true := by
    rw [gapIn, if_pos hcond]
  have hseven : (h.gapCount below).gapIn.Gap.CountGap ≠ 1 := by
    rw [gapIn, if_pos hcond]
    dsimp only
    rw [hcond.1]
    decide
  have hstep : h.gapStep below = (h.gapCount below).gapIn.HandleLastAuthenticPageGap := by
    simp only [gapStep, if_pos hin, if_neg hseven]
  rw [hstep, edgeFields_handleLastAuthenticPageGap, labelLength_handleLastAuthenticPageGap]
  rw [gapIn, if_pos hcond]
  exact ⟨rfl, rfl⟩

/-- A step at which a gap leaves clears `GapIn`. -/
theorem gapStep_leaves {below : Bool} (hleaves : h.Leaves below) :
    (h.gapStep below).edgeFields = ((h.gapCount below).Gap.CountGap, false,
      (h.gapCount below).Gap.StepsCount, h.Gap.StepsGapPos, h.Gap.LableLengthCP) := by
  have hnot : ¬ ((h.gapCount below).Gap.CountGap = 7 ∧ (h.gapCount below).Gap.GapIn = false) := by
    rw [hleaves.1]
    exact fun h => absurd h.1 (by decide)
  have hin : (h.gapCount below).gapIn = h.gapCount below := by rw [gapIn, if_neg hnot]
  have hwas : (h.gapCount below).Gap.GapIn = true := hleaves.2
  have hcompensate (g : Head) :
      (if g.SMP.CalculateCompensate then g.PageCompensationByGap else g).edgeFields =
        g.edgeFields := by
    split
    · exact corrected_PageCompensationByGap.edgeFields
    · rfl
  have herror (g : Head) : (if g.Gap.LabelGapLength > 80 then g.sensorError else g).edgeFields =
      g.edgeFields := by
    split <;> rfl
  simp only [gapStep]
  rw [hin, if_pos hwas, if_pos hleaves.1, herror, hcompensate]
  rfl

/-- Any other step only counts. -/
theorem gapStep_otherwise {below : Bool} (hcomes : ¬ h.Comes below) (hleaves : ¬ h.Leaves below) :
    (h.gapStep below).edgeFields = ((h.gapCount below).Gap.CountGap, h.Gap.GapIn,
      (h.gapCount below).Gap.StepsCount, h.Gap.StepsGapPos, h.Gap.LableLengthCP) := by
  have hcond : ¬ ((h.gapCount below).Gap.CountGap = 7 ∧ (h.gapCount below).Gap.GapIn = false) :=
    hcomes
  have hin : (h.gapCount below).gapIn = h.gapCount below := by rw [gapIn, if_neg hcond]
  simp only [gapStep]
  rw [hin]
  split
  · next hgap =>
    rw [if_neg fun hone => hleaves ⟨hone, hgap⟩, edgeFields_handleLastAuthenticPageGap]
    rfl
  · rfl

end

end Head

/-! ## Runs -/

namespace Sensing

variable {s : Sensing} {adc : Nat}

/-- The counters follow the steps and the edges of the run. `GapIn` is set from an entry to the next
exit, so the two alternate. -/
structure Tracked (s : Sensing) : Prop where
  CountGap : ∃ k ≤ 8, s.Gap.CountGap = ones k
  LableLengthCP : s.Gap.LableLengthCP = 0
  StepsCount : s.Gap.StepsCount = s.steps % 2 ^ 32
  StepsGapPos : s.Gap.StepsGapPos = (lastEntry s.edges).getD 0 % 2 ^ 32
  le : ∀ m ∈ lastEntry s.edges, m ≤ s.steps
  GapIn : s.edges.head?.any Edge.isEntry = s.Gap.GapIn
  alternate : s.edges.IsChain fun e e' => e.isEntry ≠ e'.isEntry

theorem GapCalculate_head :
    (s.printing.GapCalculate adc).head = s.printing.head.gapStep (s.below adc) := rfl

/-- The label that is measured where a gap comes, if none was found at boot. -/
theorem measured_eq {Gap : GAP} {n m : Nat} (hCP : Gap.LableLengthCP = 0)
    (hcount : Gap.StepsCount = n % 2 ^ 32) (hpos : Gap.StepsGapPos = m % 2 ^ 32) (hle : m ≤ n) :
    Head.measured Gap = (n - m) % 2 ^ 32 := by
  have hnot : ¬ (Gap.LableLengthCP ≠ 0 ∧
      (u32 (u32 (Gap.StepsCount - Gap.StepsGapPos) + 5) < Gap.LableLengthCP ∨
        u32 (Gap.StepsCount - Gap.StepsGapPos) > u32 (Gap.LableLengthCP + 5))) :=
    fun h => h.1 hCP
  rw [Head.measured, if_neg hnot, hcount, hpos, u32]
  omega

theorem recognise_comes (hcomes : s.printing.head.Comes (s.below adc)) :
    s.recognise adc = .entry (s.steps + 1) (s.below adc)
      (if s.Gap.StepsGapPos ≠ 0 then
        some (Head.measured (s.printing.head.gapCount (s.below adc)).Gap) else none)
      s.Gap.LableLengthCP :: s.edges := by
  have hstep := Head.gapStep_comes hcomes
  have hin : (s.printing.GapCalculate adc).head.Gap.GapIn = true :=
    congrArg (fun fields => fields.2.1) hstep.1
  have hlabel := hstep.2
  rw [← GapCalculate_head] at hlabel
  simp only [recognise]
  rw [if_pos ⟨hcomes.2, hin⟩]
  by_cases hpos : s.Gap.StepsGapPos ≠ 0
  · rw [if_pos hpos] at hlabel ⊢
    rw [if_pos hpos, hlabel]
  · rw [if_neg hpos, if_neg hpos]

theorem recognise_leaves (hleaves : s.printing.head.Leaves (s.below adc)) :
    s.recognise adc = .exit (s.steps + 1) :: s.edges := by
  have hin : (s.printing.GapCalculate adc).head.Gap.GapIn = false :=
    congrArg (fun fields => fields.2.1) (Head.gapStep_leaves hleaves)
  have hwas : s.Gap.GapIn = true := hleaves.2
  simp only [recognise]
  rw [if_neg (by rw [hwas]; nofun), if_pos ⟨hwas, hin⟩]

theorem recognise_otherwise (hcomes : ¬ s.printing.head.Comes (s.below adc))
    (hleaves : ¬ s.printing.head.Leaves (s.below adc)) : s.recognise adc = s.edges := by
  have hin : (s.printing.GapCalculate adc).head.Gap.GapIn = s.Gap.GapIn :=
    congrArg (fun fields => fields.2.1) (Head.gapStep_otherwise hcomes hleaves)
  simp only [recognise, hin]
  cases s.Gap.GapIn <;> rfl

/-- What leaves the fields of the edges alone leaves the counters right. -/
theorem Tracked.congr (h : Tracked s) {p : Printing}
    (hfields : p.head.edgeFields = s.printing.head.edgeFields) :
    Tracked { s with printing := p } := by
  simp only [Head.edgeFields, Prod.mk.injEq] at hfields
  obtain ⟨hcount, hin, hsteps, hpos, hCP⟩ := hfields
  exact ⟨by rw [hcount]; exact h.CountGap, by rw [hCP]; exact h.LableLengthCP,
    by rw [hsteps]; exact h.StepsCount, by rw [hpos]; exact h.StepsGapPos, h.le,
    by rw [hin]; exact h.GapIn, h.alternate⟩

/-- A gap step counts, whatever it recognises. -/
theorem Tracked.gapCount (h : Tracked s) (below : Bool) :
    (∃ k ≤ 8, (s.printing.head.gapCount below).Gap.CountGap = ones k) ∧
      (s.printing.head.gapCount below).Gap.StepsCount = (s.steps + 1) % 2 ^ 32 := by
  constructor
  · obtain ⟨k, hk, hones⟩ := h.CountGap
    refine ⟨if below then min (k + 1) 8 else k - 1, ?_, ?_⟩
    · split <;> omega
    · show (if below then s.Gap.CountGap <<< 1 ||| 1 else s.Gap.CountGap >>> 1) = _
      rw [hones, ones_shift hk]
  · show u32 (s.Gap.StepsCount + 1) = _
    rw [h.StepsCount, u32]
    omega

/-- A gap comes on the way up from `0x03`, or on the way down from `0x0F`. -/
theorem Tracked.comes_iff (h : Tracked s) {below : Bool} :
    s.printing.head.Comes below ↔
      (s.Gap.CountGap = if below then 0x03 else 0x0F) ∧ s.Gap.GapIn = false := by
  obtain ⟨k, hk, hones⟩ := h.CountGap
  have hseven := shift_eq_seven hk below
  rw [← hones] at hseven
  exact and_congr_left' hseven

/-- A gap step, with the fields and the edges that it leaves. -/
theorem Tracked.step (h : Tracked s) {p : Printing} {below inside : Bool} {pos : Nat}
    {edges : List Edge}
    (hfields : p.head.edgeFields = ((s.printing.head.gapCount below).Gap.CountGap, inside,
      (s.printing.head.gapCount below).Gap.StepsCount, pos, s.Gap.LableLengthCP))
    (hpos : pos = (lastEntry edges).getD 0 % 2 ^ 32) (hle : ∀ m ∈ lastEntry edges, m ≤ s.steps + 1)
    (hinside : edges.head?.any Edge.isEntry = inside)
    (halternate : edges.IsChain fun e e' => e.isEntry ≠ e'.isEntry) :
    Tracked { printing := p, steps := s.steps + 1, edges := edges } := by
  simp only [Head.edgeFields, Prod.mk.injEq] at hfields
  obtain ⟨hgap, hin, hsteps, hpos', hCP⟩ := hfields
  obtain ⟨⟨k, hk, hones⟩, hcount⟩ := h.gapCount below
  exact ⟨⟨k, hk, hgap.trans hones⟩, hCP.trans h.LableLengthCP, hsteps.trans hcount,
    hpos'.trans hpos, hle, hinside.trans hin.symm, halternate⟩

/-- The edge before one that sets or clears `GapIn` is of the other kind. -/
theorem Tracked.alternate_cons (h : Tracked s) {e : Edge} (he : e.isEntry ≠ s.Gap.GapIn) :
    (e :: s.edges).IsChain fun e e' => e.isEntry ≠ e'.isEntry := by
  refine h.alternate.cons ?_
  intro e' he'
  have hwas := h.GapIn
  rw [he', Option.any_some] at hwas
  rwa [hwas]

theorem Tracked.gap (h : Tracked s) (adc : Nat) : Tracked (s.next (.gap adc)) := by
  rw [next]
  by_cases hcomes : s.printing.head.Comes (s.below adc)
  · rw [recognise_comes hcomes]
    refine h.step (Head.gapStep_comes hcomes).1 ?_ ?_ rfl (h.alternate_cons ?_)
    · rw [(h.gapCount _).2]
      rfl
    · rintro m ⟨⟩
      exact Nat.le_refl _
    · rw [show s.Gap.GapIn = false from hcomes.2]
      nofun
  · by_cases hleaves : s.printing.head.Leaves (s.below adc)
    · rw [recognise_leaves hleaves]
      refine h.step (Head.gapStep_leaves hleaves) h.StepsGapPos ?_ rfl (h.alternate_cons ?_)
      · exact fun m hm => Nat.le_succ_of_le (h.le m hm)
      · rw [show s.Gap.GapIn = true from hleaves.2]
        nofun
    · rw [recognise_otherwise hcomes hleaves]
      exact h.step (Head.gapStep_otherwise hcomes hleaves) h.StepsGapPos
        (fun m hm => Nat.le_succ_of_le (h.le m hm)) h.GapIn h.alternate

/-- A new run begins with a clear `GapIn`. -/
theorem Tracked.begin (h : Tracked s) {p : Printing}
    (hfields : p.head.edgeFields = (s.Gap.CountGap, false, 0, 0, 0) ∨
      p.head.edgeFields = (0, false, 0, 0, 0)) :
    Tracked { printing := p, steps := 0, edges := [] } := by
  simp only [Head.edgeFields, Prod.mk.injEq] at hfields
  have hzero : ∃ k ≤ 8, (0 : UInt8) = ones k := ⟨0, by decide, rfl⟩
  obtain ⟨hgap, hin, hsteps, hpos, hCP⟩ | ⟨hgap, hin, hsteps, hpos, hCP⟩ := hfields
  · exact ⟨by rw [hgap]; exact h.CountGap, hCP, hsteps, hpos, nofun, hin.symm, .nil⟩
  · exact ⟨by rw [hgap]; exact hzero, hCP, hsteps, hpos, nofun, hin.symm, .nil⟩

/-- **One operation** keeps the counters right. -/
theorem Tracked.next (h : Tracked s) (op : Printing.Operation) : Tracked (s.next op) := by
  cases op with
  | start CurrentSMP =>
    rw [Sensing.next]
    split
    · exact h
    · next hstopped =>
      refine h.begin (.inl ?_)
      simp only [Printing.next, Head.StepMotorStart, if_neg hstopped, Head.edgeFields,
        h.LableLengthCP]
  | motor => exact h.congr Head.stepped_PageDataCalculation.edgeFields
  | gap adc => exact h.gap adc
  | findGap => exact h.begin (.inr rfl)
  | tasks => exact h.congr rfl

theorem Tracked.init : Tracked init :=
  ⟨⟨0, by decide, rfl⟩, rfl, rfl, rfl, nofun, rfl, .nil⟩

theorem Tracked.run (h : Tracked s) (ops : List Printing.Operation) :
    Tracked (ops.foldl Sensing.next s) := by
  induction ops generalizing s with
  | nil => exact h
  | cons op ops ih => exact ih (h.next op)

theorem Tracked.inOrder_iff (h : Tracked s) : InOrder s ↔ AllRight s.edges := by
  refine ⟨InOrder.right, fun hright => ⟨?_, h.alternate, hright⟩⟩
  obtain ⟨k, hk, hones⟩ := h.CountGap
  exact ⟨k, hk, by rw [hones, toNat_ones hk]⟩

/-- An entry measures its label right exactly if the label has fewer than `2 ^ 32` steps. -/
theorem Tracked.right_entry_iff (h : Tracked s) :
    Edge.Right s.edges (.entry (s.steps + 1) true
        (if s.Gap.StepsGapPos ≠ 0 then some (Head.measured (s.printing.head.gapCount true).Gap)
          else none) s.Gap.LableLengthCP) ↔
      (s.Gap.StepsGapPos ≠ 0 → ∀ m ∈ lastEntry s.edges, s.steps + 1 < m + 2 ^ 32) := by
  by_cases hpos : s.Gap.StepsGapPos = 0
  · rw [if_neg (not_not_intro hpos)]
    exact ⟨fun _ hne => absurd hpos hne, fun _ => ⟨rfl, nofun⟩⟩
  have hlast := h.StepsGapPos
  cases hm : lastEntry s.edges with
  | none =>
    rw [hm] at hlast
    exact absurd hlast hpos
  | some m =>
    rw [hm, Option.getD_some] at hlast
    have hle : m ≤ s.steps := h.le m hm
    have hmeasured : Head.measured (s.printing.head.gapCount true).Gap =
        (s.steps + 1 - m) % 2 ^ 32 :=
      measured_eq h.LableLengthCP (h.gapCount true).2 hlast (Nat.le_succ_of_le hle)
    rw [if_pos hpos, hmeasured]
    constructor
    · rintro ⟨-, hright⟩ - m' ⟨⟩
      obtain ⟨m', hm', heq | ⟨hne, -⟩⟩ := hright _ rfl
      · rw [hm, Option.mem_some_iff] at hm'
        omega
      · exact absurd h.LableLengthCP hne
    · intro hlt
      refine ⟨rfl, ?_⟩
      rintro L ⟨⟩
      exact ⟨m, hm, .inl (Nat.mod_eq_of_lt (by have := hlt hpos m rfl; omega))⟩

/-- **One gap step**: the edges stay right exactly if it is sound. -/
theorem Tracked.right_gap_iff (h : Tracked s) (hright : AllRight s.edges) :
    AllRight (s.recognise adc) ↔ s.Sound (.gap adc) := by
  by_cases hcomes : s.printing.head.Comes (s.below adc)
  · rw [recognise_comes hcomes]
    obtain ⟨hcount, hin⟩ := h.comes_iff.1 hcomes
    cases hbelow : s.below adc with
    | false =>
      rw [hbelow] at hcount
      refine ⟨fun hall => ?_, fun hsound => absurd ⟨hbelow, hcount, hin⟩ hsound.1⟩
      nomatch hall.1.1
    | true =>
      rw [hbelow] at hcount
      have hentry := h.right_entry_iff
      refine ⟨fun hall => ⟨?_, fun _ _ _ => hentry.1 hall.1⟩, fun hsound => ⟨?_, hright⟩⟩
      · rw [hbelow]
        nofun
      · exact hentry.2 (hsound.2 hbelow hcount hin)
  · have hsound : s.Sound (.gap adc) := by
      refine ⟨?_, ?_⟩
      · rintro ⟨hbelow, hcount, hin⟩
        refine hcomes (h.comes_iff.2 ⟨?_, hin⟩)
        rw [hbelow]
        exact hcount
      · intro hbelow hcount hin
        refine absurd (h.comes_iff.2 ⟨?_, hin⟩) hcomes
        rw [hbelow]
        exact hcount
    refine ⟨fun _ => hsound, fun _ => ?_⟩
    by_cases hleaves : s.printing.head.Leaves (s.below adc)
    · rw [recognise_leaves hleaves]
      exact ⟨trivial, hright⟩
    · rwa [recognise_otherwise hcomes hleaves]

/-- **One operation**: the edges stay right exactly if it is sound. -/
theorem Tracked.inOrder_next_iff (h : Tracked s) (hright : AllRight s.edges)
    (op : Printing.Operation) : InOrder (s.next op) ↔ s.Sound op := by
  rw [(h.next op).inOrder_iff]
  cases op with
  | start CurrentSMP =>
    rw [Sensing.next]
    split
    · exact ⟨fun _ => trivial, fun _ => hright⟩
    · exact ⟨fun _ => trivial, fun _ => trivial⟩
  | gap adc => exact h.right_gap_iff hright
  | findGap => exact ⟨fun _ => trivial, fun _ => trivial⟩
  | motor | tasks => exact ⟨fun _ => trivial, fun _ => hright⟩

end Sensing

open Sensing in
/-- **Gap edges.** In every run from boot, the gaps are recognised where they are after every
operation exactly if every operation is sound. -/
theorem edges_inOrder_iff (ops : List Printing.Operation) :
    (∀ done, done <+: ops → InOrder (done.foldl next init)) ↔
      ∀ done op, done ++ [op] <+: ops → Sound (done.foldl next init) op := by
  have htracked (done : List Printing.Operation) : Tracked (done.foldl next init) :=
    Tracked.init.run done
  constructor
  · intro horder done op hop
    have hdone : done <+: ops := (List.prefix_append done [op]).trans hop
    have hnext := horder _ hop
    rw [List.foldl_concat] at hnext
    exact ((htracked done).inOrder_next_iff (horder done hdone).right op).1 hnext
  · intro hsound done
    induction done using List.reverseRecOn with
    | nil => exact fun _ => Tracked.init.inOrder_iff.2 trivial
    | append_singleton done op ih =>
      intro hop
      have hright := (ih ((List.prefix_append done [op]).trans hop)).right
      rw [List.foldl_concat]
      exact ((htracked done).inOrder_next_iff hright op).2 (hsound done op hop)

/-- A run stops while a gap is on the sensor, and the next one begins there. -/
def restartInGap : List Printing.Operation :=
  [.start Head.SMPCurrent, .gap 0, .gap 0, .gap 0, .gap 0,
    .tasks Head.init.SMP [] false false false, .start Head.SMPCurrent, .gap 1000]

/-- The end of that gap is taken for the beginning of another. -/
theorem restart_in_gap_entry : ¬ (restartInGap.foldl Sensing.next Sensing.init).InOrder := by
  have hedges : (restartInGap.foldl Sensing.next Sensing.init).edges = [.entry 1 false none 0] := by
    decide +kernel
  intro h
  have hright := h.right
  rw [hedges] at hright
  nomatch hright.1.1

end ThermalPrinter
