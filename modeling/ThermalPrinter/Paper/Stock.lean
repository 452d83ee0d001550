import ThermalPrinter.Paper.Edges
import ThermalPrinter.Lib.Hysteresis

/-!
# What the gap sensor makes of a roll of labels

`GapCalculate` is a counter of samples with two thresholds: up to 8, on at 3, off at 1. So in a run
over a roll whose gaps and labels are long enough for it, a gap comes at its third sample and leaves
seven samples after its end, and what is recorded as the length of a label is the distance from one
gap to the next (`gaps_measured`). A gap seems four steps longer than it is, and the sensor's error
is recorded exactly if one has more than 76 steps (`sensorError_iff_gap`).
-/

namespace ThermalPrinter

open Hysteresis (Counter Switch switches switchesOf pulse Clear)

/-- The edges of a roll: of each gap its steps, and the steps of the label behind it. Its first gap
begins after `t` steps, and `pitch` is the distance from the gap before. -/
def rollEdges : Option Nat → Nat → List (Nat × Nat) → List Edge
  | _, _, [] => []
  | pitch, t, (gap, label) :: roll =>
    .entry (t + 3) true pitch 0 :: .exit (t + gap + (min gap 8 - 1)) ::
      rollEdges (some (gap + label)) (t + (gap + label)) roll

/-- The edges of some switches of the counter, where `m` is the step of the entry before. -/
def edgesOf : Option Nat → List Switch → List Edge
  | _, [] => []
  | m, ⟨time, sample, true⟩ :: switches =>
    .entry time sample (m.map (time - ·)) 0 :: edgesOf (some time) switches
  | m, ⟨time, _, false⟩ :: switches => .exit time :: edgesOf m switches

/-- A gap left more than 80 steps after it came. -/
def TooLong : List Edge → Prop
  | [] => False
  | .entry .. :: edges => TooLong edges
  | .exit step :: edges => (∃ m ∈ lastEntry edges, 80 < step - m) ∨ TooLong edges

namespace Sensing

/-- A step of the label, or the sample of one. -/
def Moves : Printing.Operation → Prop
  | .motor | .gap _ => True
  | _ => False

instance : DecidablePred Moves
  | .motor | .gap _ => .isTrue trivial
  | .start _ | .findGap | .tasks .. => .isFalse nofun

/-- Whether the samples of some operations are below the threshold. -/
def lows (s : Sensing) : List Printing.Operation → List Bool
  | [] => []
  | .gap adc :: ops => s.below adc :: lows (s.next (.gap adc)) ops
  | op :: ops => lows (s.next op) ops

/-- A run begins while the sensor is on a label, and in its operations a roll passes whose gaps have
three steps or more and whose labels are long enough for the counter to run empty. -/
structure Passes (s : Sensing) (CurrentSMP : StepMP) (ops : List Printing.Operation) (lead : Nat)
    (roll : List (Nat × Nat)) : Prop where
  stopped : s.printing.head.SMP.Status ≠ .Running
  label : s.Gap.CountGap = 0
  moves : ∀ op ∈ ops, Moves op
  samples : (s.next (.start CurrentSMP)).lows ops =
    List.replicate lead false ++ roll.flatMap pulse
  clear : ∀ p ∈ roll, Clear 8 3 p
  lt : lead + (roll.map fun p => p.1 + p.2).sum < 2 ^ 32 - 1

/-- The counter of the sensor is where the samples have it. -/
structure Follows (s : Sensing) (c : Counter) : Prop where
  tracked : Tracked s
  le : c.count ≤ 8
  CountGap : s.Gap.CountGap = ones c.count
  GapIn : s.Gap.GapIn = c.on
  pos : ∀ m ∈ lastEntry s.edges, 0 < m

/-- In a gap, the steps since it came are counted, and at the 271st one the page is locked. Then,
and when a gap leaves too late, the error is recorded. -/
structure Alarmed (s : Sensing) : Prop where
  counts : s.Gap.GapIn = true → ∀ m ∈ lastEntry s.edges,
    s.Gap.CountLastAuthenticPageGap = s.steps - m + 1 ∧
      (s.Gap.LockPage = true ↔ 270 ≤ s.steps - m)
  error : s.printing.head.Page.SensorError = true ↔
    TooLong s.edges ∨ s.Gap.GapIn = true ∧ ∃ m ∈ lastEntry s.edges, 270 ≤ s.steps - m

end Sensing

/-! ## The counter -/

section

variable {k : Nat}

theorem ones_eq_seven (hk : k ≤ 8) : ones k = 7 ↔ k = 3 := by
  interval_cases k <;> decide

theorem ones_eq_one (hk : k ≤ 8) : ones k = 1 ↔ k = 1 := by
  interval_cases k <;> decide

end

namespace Sensing

variable {s : Sensing} {c : Counter} {adc : Nat} {ops : List Printing.Operation}

/-- The byte after a sample. -/
theorem Follows.gapCount (h : Follows s c) (below : Bool) :
    (Hysteresis.next 8 3 1 c below).count ≤ 8 ∧
      (s.printing.head.gapCount below).Gap.CountGap =
        ones (Hysteresis.next 8 3 1 c below).count := by
  constructor
  · have hle := h.le
    simp only [Hysteresis.next]
    split <;> omega
  · show (if below then s.Gap.CountGap <<< 1 ||| 1 else s.Gap.CountGap >>> 1) = _
    rw [h.CountGap, ones_shift h.le]
    rfl

/-- A gap comes where the counter switches on. -/
theorem Follows.comes_iff (h : Follows s c) {below : Bool} :
    s.printing.head.Comes below ↔
      c.on = false ∧ (Hysteresis.next 8 3 1 c below).on = true := by
  obtain ⟨hle, hcount⟩ := h.gapCount below
  have hin : s.printing.head.Gap.GapIn = c.on := h.GapIn
  rw [Head.Comes, hcount, ones_eq_seven hle, hin, and_comm]
  refine and_congr_right fun hoff => ?_
  simp [Hysteresis.next, hoff]

/-- It leaves where the counter switches off. -/
theorem Follows.leaves_iff (h : Follows s c) {below : Bool} :
    s.printing.head.Leaves below ↔
      c.on = true ∧ (Hysteresis.next 8 3 1 c below).on = false := by
  obtain ⟨hle, hcount⟩ := h.gapCount below
  have hin : s.printing.head.Gap.GapIn = c.on := h.GapIn
  rw [Head.Leaves, hcount, ones_eq_one hle, hin, and_comm]
  refine and_congr_right fun hon => ?_
  simp [Hysteresis.next, hon]

/-- What an entry records: the steps since the entry before. -/
theorem Follows.recorded (h : Follows s c) (hlt : s.steps + 1 < 2 ^ 32) (below : Bool) :
    (if s.Gap.StepsGapPos ≠ 0 then
      some (Head.measured (s.printing.head.gapCount below).Gap) else none) =
      (lastEntry s.edges).map (s.steps + 1 - ·) := by
  have hpos := h.tracked.StepsGapPos
  cases hm : lastEntry s.edges with
  | none =>
    rw [hm] at hpos
    exact if_neg (not_not_intro hpos)
  | some m =>
    rw [hm, Option.getD_some] at hpos
    have hle : m ≤ s.steps := h.tracked.le m hm
    have hfirst : 0 < m := h.pos m hm
    have hmeasured : Head.measured (s.printing.head.gapCount below).Gap =
        (s.steps + 1 - m) % 2 ^ 32 :=
      measured_eq h.tracked.LableLengthCP (h.tracked.gapCount below).2 hpos (by omega)
    rw [if_pos (by rw [hpos]; omega), hmeasured, Nat.mod_eq_of_lt (by omega), Option.map_some]

/-- A sample leaves the fields of the edges so that the counter is followed. -/
theorem Follows.fields (h : Follows s c) {below inside : Bool} {count pos CP : Nat}
    (htracked : Tracked (s.next (.gap adc)))
    (hfields : (s.next (.gap adc)).printing.head.edgeFields =
      ((s.printing.head.gapCount below).Gap.CountGap, inside, count, pos, CP))
    (hinside : inside = (Hysteresis.next 8 3 1 c below).on)
    (hpos : ∀ m ∈ lastEntry (s.next (.gap adc)).edges, 0 < m) :
    Follows (s.next (.gap adc)) (Hysteresis.next 8 3 1 c below) := by
  obtain ⟨hle, hcount⟩ := h.gapCount below
  simp only [Head.edgeFields, Prod.mk.injEq] at hfields
  exact ⟨htracked, hle, hfields.1.trans hcount, hfields.2.1.trans hinside, hpos⟩

/-- **One sample** switches the counter, and the edge is that of the switch. -/
theorem Follows.gap (h : Follows s c) (adc : Nat) (hlt : s.steps + 1 < 2 ^ 32) :
    Follows (s.next (.gap adc)) (Hysteresis.next 8 3 1 c (s.below adc)) ∧
      (s.next (.gap adc)).edges =
        (edgesOf (lastEntry s.edges)
          (if (Hysteresis.next 8 3 1 c (s.below adc)).on ≠ c.on then
            [⟨s.steps + 1, s.below adc, (Hysteresis.next 8 3 1 c (s.below adc)).on⟩]
          else [])).reverse ++ s.edges := by
  have htracked := h.tracked.gap adc
  by_cases hcomes : s.printing.head.Comes (s.below adc)
  · obtain ⟨hoff, hon⟩ := h.comes_iff.1 hcomes
    have hedges : (s.next (.gap adc)).edges = .entry (s.steps + 1) (s.below adc)
        ((lastEntry s.edges).map (s.steps + 1 - ·)) 0 :: s.edges := by
      have hedge := recognise_comes hcomes
      rwa [h.recorded hlt, h.tracked.LableLengthCP] at hedge
    refine ⟨h.fields htracked (Head.gapStep_comes hcomes).1 hon.symm ?_, ?_⟩
    · rw [hedges]
      rintro m ⟨⟩
      exact Nat.succ_pos _
    · rw [hedges, hon, hoff]
      rfl
  · by_cases hleaves : s.printing.head.Leaves (s.below adc)
    · obtain ⟨hon, hoff⟩ := h.leaves_iff.1 hleaves
      have hedges : (s.next (.gap adc)).edges = .exit (s.steps + 1) :: s.edges :=
        recognise_leaves hleaves
      refine ⟨h.fields htracked (Head.gapStep_leaves hleaves) hoff.symm ?_, ?_⟩
      · rw [hedges]
        exact h.pos
      · rw [hedges, hon, hoff]
        rfl
    · have hsame : (Hysteresis.next 8 3 1 c (s.below adc)).on = c.on := by
        rw [h.comes_iff] at hcomes
        rw [h.leaves_iff] at hleaves
        revert hcomes hleaves
        cases c.on <;> cases (Hysteresis.next 8 3 1 c (s.below adc)).on <;> simp
      have hedges : (s.next (.gap adc)).edges = s.edges := recognise_otherwise hcomes hleaves
      refine ⟨h.fields htracked (Head.gapStep_otherwise hcomes hleaves)
        (h.GapIn.trans hsame.symm) ?_, ?_⟩
      · rw [hedges]
        exact h.pos
      · rw [hedges, hsame, if_neg (not_not_intro rfl)]
        rfl

/-- A step of the label leaves the counter alone. -/
theorem Follows.motor (h : Follows s c) : Follows (s.next .motor) c := by
  have hfields : s.printing.head.PageDataCalculation.edgeFields = s.printing.head.edgeFields :=
    Head.stepped_PageDataCalculation.edgeFields
  have htracked : Tracked (s.next .motor) := h.tracked.congr hfields
  simp only [Head.edgeFields, Prod.mk.injEq] at hfields
  exact ⟨htracked, h.le, hfields.1.trans h.CountGap, hfields.2.1.trans h.GapIn, h.pos⟩

theorem edgesOf_append (m : Option Nat) (b : Bool) (time : Nat) (on : Bool)
    (rest : List Switch) (edges : List Edge) (hm : m = lastEntry edges) :
    (edgesOf m (⟨time, b, on⟩ :: rest)).reverse ++ edges =
      (edgesOf (lastEntry ((edgesOf m [⟨time, b, on⟩]).reverse ++ edges)) rest).reverse ++
        ((edgesOf m [⟨time, b, on⟩]).reverse ++ edges) := by
  subst hm
  cases on <;> simp [edgesOf, lastEntry]

/-- **A run**: its edges are those of the switches of its samples. -/
theorem Follows.run (h : Follows s c) (hops : ∀ op ∈ ops, Moves op)
    (hlt : s.steps + (s.lows ops).length < 2 ^ 32) :
    Follows (ops.foldl next s) (Hysteresis.run 8 3 1 c (s.lows ops)) ∧
      (ops.foldl next s).edges =
        (edgesOf (lastEntry s.edges) (switches 8 3 1 c s.steps (s.lows ops))).reverse ++
          s.edges := by
  induction ops generalizing s c with
  | nil => exact ⟨h, rfl⟩
  | cons op ops ih =>
    obtain ⟨hop, hrest⟩ := List.forall_mem_cons.1 hops
    cases op with
    | start | findGap | tasks => cases hop
    | motor => exact ih h.motor hrest hlt
    | gap adc =>
      rw [lows, List.length_cons] at hlt
      obtain ⟨hfollows, hedges⟩ := h.gap adc (by omega)
      obtain ⟨hrun, hmade⟩ := ih hfollows hrest (by
        show s.steps + 1 + _ < _
        omega)
      refine ⟨hrun, ?_⟩
      rw [List.foldl_cons, hmade, hedges, lows, switches]
      split
      · exact (edgesOf_append _ _ _ _ _ _ rfl).symm
      · rfl

/-! ## A roll of labels -/

/-- The switches of a roll are its edges. -/
theorem edgesOf_switchesOf (roll : List (Nat × Nat)) (m : Option Nat) (t : Nat)
    (hm : ∀ x ∈ m, x ≤ t + 3) :
    edgesOf m (switchesOf 8 3 1 t roll) = rollEdges (m.map (t + 3 - ·)) t roll := by
  induction roll generalizing m t with
  | nil => cases m <;> rfl
  | cons p roll ih =>
    obtain ⟨gap, label⟩ := p
    have hnext := ih (some (t + 3)) (t + (gap + label)) (by rintro x ⟨⟩; omega)
    rw [switchesOf, edgesOf, edgesOf, hnext, rollEdges, Option.map_some,
      show t + (gap + label) + 3 - (t + 3) = gap + label by omega]

/-- A printing run begins while the sensor is on a label. -/
theorem Tracked.follows_start (h : Tracked s) (CurrentSMP : StepMP)
    (hstopped : s.printing.head.SMP.Status ≠ .Running) (hlabel : s.Gap.CountGap = 0) :
    Follows (s.next (.start CurrentSMP)) ⟨0, false⟩ := by
  have htracked := h.next (.start CurrentSMP)
  have hnext : s.next (.start CurrentSMP) =
      { printing := s.printing.next (.start CurrentSMP), steps := 0, edges := [] } :=
    if_neg hstopped
  rw [hnext] at htracked ⊢
  refine ⟨htracked, Nat.zero_le 8, ?_, htracked.GapIn.symm, nofun⟩
  simp only [Printing.next, Head.StepMotorStart, if_neg hstopped]
  exact hlabel

theorem Passes.length_lt {CurrentSMP : StepMP} {lead : Nat} {roll : List (Nat × Nat)}
    (hp : Passes s CurrentSMP ops lead roll) :
    ((s.next (.start CurrentSMP)).lows ops).length < 2 ^ 32 - 1 := by
  rw [hp.samples, List.length_append, List.length_replicate, Hysteresis.length_pulses]
  exact hp.lt

/-- The roll has passed: its edges are recorded, and the sensor is on a label again. -/
theorem Passes.run {CurrentSMP : StepMP} {lead : Nat} {roll : List (Nat × Nat)} (h : Tracked s)
    (hp : Passes s CurrentSMP ops lead roll) :
    (ops.foldl next (s.next (.start CurrentSMP))).edges = (rollEdges none lead roll).reverse ∧
      (ops.foldl next (s.next (.start CurrentSMP))).Gap.GapIn = false := by
  have hstart := h.follows_start CurrentSMP hp.stopped hp.label
  have hfresh : s.next (.start CurrentSMP) =
      { printing := s.printing.next (.start CurrentSMP), steps := 0, edges := [] } :=
    if_neg hp.stopped
  have hmakes : Hysteresis.Makes 8 3 1 ⟨0, false⟩ 0
      (List.replicate lead false ++ roll.flatMap pulse) ([] ++ switchesOf 8 3 1 (0 + lead) roll)
      ⟨0, false⟩ :=
    (Hysteresis.makes_rest 0 (by decide) lead).append List.length_replicate
      (Hysteresis.makes_pulses _ (by decide) (by decide) (by decide) hp.clear)
  have hlows := hp.samples
  have hlt := hp.length_lt
  rw [hfresh] at hstart hlows hlt ⊢
  have hrun := hstart.run hp.moves (by show 0 + _ < _; omega)
  rw [hlows] at hrun
  refine ⟨?_, ?_⟩
  · rw [hrun.2, hmakes.1, List.nil_append, Nat.zero_add]
    show (edgesOf none _).reverse ++ [] = _
    rw [List.append_nil, edgesOf_switchesOf roll none lead nofun]
    rfl
  · rw [hrun.1.GapIn, hmakes.2]

end Sensing

/-! ## The sensor's error -/

namespace Head

variable {h : Head}

theorem sensorError_PageDataCalculation :
    h.PageDataCalculation.Page.SensorError = h.Page.SensorError := by
  have hturn (g : Head) : g.AuthenticPageMangement.Page.SensorError = g.Page.SensorError := by
    unfold AuthenticPageMangement
    split <;> rfl
  have hredundant (g : Head) :
      (g.RedundantDataProcessing false []).Page.SensorError = g.Page.SensorError := by
    unfold RedundantDataProcessing
    dsimp only
    split <;> rfl
  rw [PageDataCalculation, output_Page, suspendCondition_Page, reconcile]
  split
  · split
    · split
      · split
        · exact hturn h
        · exact hturn h
      · split
        · exact hredundant h
        · exact hturn h
    · rfl
  · exact hturn h

/-- The error after a step in a gap that does not leave. -/
theorem handleLast_alarm {k : Nat} (hk : k < 2 ^ 32 - 1)
    (hcount : h.Gap.CountLastAuthenticPageGap = k)
    (hlength : 270 ≤ k → 80 < u32 (h.Gap.StepsCount - h.Gap.StepsGapPos)) :
    h.HandleLastAuthenticPageGap.Gap.CountLastAuthenticPageGap = k + 1 ∧
      (h.HandleLastAuthenticPageGap.Gap.LockPage = true ↔ h.Gap.LockPage = true ∨ 270 ≤ k) ∧
      (h.HandleLastAuthenticPageGap.Page.SensorError = true ↔
        h.Page.SensorError = true ∨ h.Gap.LockPage = false ∧ 270 ≤ k) := by
  have hnext : u32 (k + 1) = k + 1 := u32_natCast (k := k + 1) (by omega)
  simp only [HandleLastAuthenticPageGap, hcount, hnext]
  by_cases hfires : u32 (h.Gap.StepsCount - h.Gap.StepsGapPos) > 80 ∧ k + 1 > 270 ∧
      h.Gap.LockPage = false
  · rw [if_pos hfires]
    have hlate : 270 ≤ k := by omega
    split <;> simp [sensorError, hlate, hfires.2.2]
  · rw [if_neg hfires]
    have hnot : 270 ≤ k → h.Gap.LockPage = true := by
      intro hlate
      by_contra hlock
      exact hfires ⟨hlength hlate, by omega, by simpa using hlock⟩
    refine ⟨rfl, ⟨.inl, ?_⟩, ⟨.inl, ?_⟩⟩
    · exact fun hor => hor.elim id hnot
    · rintro (herror | ⟨hlock, hlate⟩)
      · exact herror
      · rw [hnot hlate] at hlock
        cases hlock

/-- A step at which a gap comes. -/
theorem gapStep_eq_comes {below : Bool} (hcomes : h.Comes below) :
    h.gapStep below = (h.gapCount below).gapIn.HandleLastAuthenticPageGap := by
  have hcond : (h.gapCount below).Gap.CountGap = 7 ∧ (h.gapCount below).Gap.GapIn = false := hcomes
  have hin : (h.gapCount below).gapIn.Gap.GapIn = true := by rw [gapIn, if_pos hcond]
  have hseven : (h.gapCount below).gapIn.Gap.CountGap ≠ 1 := by
    rw [gapIn, if_pos hcond]
    dsimp only
    rw [hcond.1]
    decide
  simp only [gapStep, if_pos hin, if_neg hseven]

/-- Where a gap comes, the count of its steps begins. -/
theorem gapStep_comes_alarm {below : Bool} (hcomes : h.Comes below) :
    (h.gapStep below).Gap.CountLastAuthenticPageGap = 1 ∧
      (h.gapStep below).Gap.LockPage = false ∧
      (h.gapStep below).Page.SensorError = h.Page.SensorError := by
  have hcond : (h.gapCount below).Gap.CountGap = 7 ∧ (h.gapCount below).Gap.GapIn = false := hcomes
  rw [gapStep_eq_comes hcomes, gapIn, if_pos hcond, HandleLastAuthenticPageGap]
  dsimp only
  rw [if_neg (fun hfires => absurd hfires.2.1 (by decide))]
  exact ⟨rfl, rfl, rfl⟩

/-- A step at which no gap comes. -/
theorem gapIn_eq {below : Bool} (hcomes : ¬ h.Comes below) :
    (h.gapCount below).gapIn = h.gapCount below :=
  if_neg (show ¬ ((h.gapCount below).Gap.CountGap = 7 ∧ (h.gapCount below).Gap.GapIn = false)
    from hcomes)

/-- A step in a gap that does not leave. -/
theorem gapStep_eq_inside {below : Bool} (hin : h.Gap.GapIn = true) (hleaves : ¬ h.Leaves below) :
    h.gapStep below = (h.gapCount below).HandleLastAuthenticPageGap := by
  have hcomes : ¬ h.Comes below := fun hcomes => by
    rw [hcomes.2] at hin
    cases hin
  have hin' : (h.gapCount below).Gap.GapIn = true := hin
  have hone : (h.gapCount below).Gap.CountGap ≠ 1 := fun hone => hleaves ⟨hone, hin⟩
  simp only [gapStep, gapIn_eq hcomes, if_pos hin', if_neg hone]

/-- A step on a label. -/
theorem gapStep_eq_outside {below : Bool} (hin : h.Gap.GapIn = false) (hcomes : ¬ h.Comes below) :
    h.gapStep below = h.gapCount below := by
  have hin' : ¬ (h.gapCount below).Gap.GapIn = true := by
    rw [show (h.gapCount below).Gap.GapIn = false from hin]
    nofun
  simp only [gapStep, gapIn_eq hcomes, if_neg hin']

/-- Where a gap leaves, its length decides. -/
theorem gapStep_leaves_error {below : Bool} (hleaves : h.Leaves below) :
    (h.gapStep below).Page.SensorError = true ↔ h.Page.SensorError = true ∨
      80 < u32 ((h.gapCount below).Gap.StepsCount - h.Gap.StepsGapPos) := by
  have hcomes : ¬ h.Comes below := fun hcomes => by
    have hin := hleaves.2
    rw [hcomes.2] at hin
    cases hin
  have hin : (h.gapCount below).Gap.GapIn = true := hleaves.2
  have hone : (h.gapCount below).Gap.CountGap = 1 := hleaves.1
  have hcompensate (g : Head) :
      (if g.SMP.CalculateCompensate then g.PageCompensationByGap else g).Page.SensorError =
          g.Page.SensorError ∧
        (if g.SMP.CalculateCompensate then g.PageCompensationByGap else g).Gap.LabelGapLength =
          g.Gap.LabelGapLength := by
    split
    · obtain ⟨_, _, _, _, heq⟩ := corrected_PageCompensationByGap (h := g)
      rw [heq]
      exact ⟨rfl, rfl⟩
    · exact ⟨rfl, rfl⟩
  obtain ⟨herror, hlength⟩ := hcompensate (h.gapCount below).gapOut
  simp only [gapStep, gapIn_eq hcomes, if_pos hin, if_pos hone]
  generalize (if (h.gapCount below).gapOut.SMP.CalculateCompensate = true then
    (h.gapCount below).gapOut.PageCompensationByGap else (h.gapCount below).gapOut) = g
    at herror hlength ⊢
  split
  · next hlong =>
    rw [hlength] at hlong
    exact ⟨fun _ => .inr hlong, fun _ => rfl⟩
  · next hshort =>
    rw [hlength] at hshort
    rw [herror]
    exact ⟨.inl, fun hor => hor.elim id fun hlong => absurd hlong hshort⟩

end Head

namespace Sensing

variable {s : Sensing} {c : Counter} {adc : Nat} {ops : List Printing.Operation}

/-- In a gap, its entry is the last one, and the steps since then are known. -/
theorem Tracked.inside (h : Tracked s) (hlt : s.steps + 1 < 2 ^ 32) (hin : s.Gap.GapIn = true)
    (below : Bool) :
    ∃ m ∈ lastEntry s.edges, m ≤ s.steps ∧
      u32 ((s.printing.head.gapCount below).Gap.StepsCount - s.Gap.StepsGapPos) =
        s.steps + 1 - m := by
  obtain ⟨m, hm⟩ : ∃ m, lastEntry s.edges = some m := by
    have hentry := h.GapIn
    rw [hin] at hentry
    revert hentry
    match s.edges with
    | [] => nofun
    | .exit _ :: _ => nofun
    | .entry m _ _ _ :: _ => exact fun _ => ⟨m, rfl⟩
  have hle : m ≤ s.steps := h.le m hm
  have hpos := h.StepsGapPos
  rw [hm, Option.getD_some, Nat.mod_eq_of_lt (by omega)] at hpos
  have hcount := (h.gapCount below).2
  rw [Nat.mod_eq_of_lt hlt] at hcount
  refine ⟨m, hm, hle, ?_⟩
  rw [hcount, hpos, u32]
  omega

/-- Where a gap comes, nothing is counted yet. -/
theorem Alarmed.comes (ha : Alarmed s) (hcomes : s.printing.head.Comes (s.below adc)) :
    Alarmed (s.next (.gap adc)) := by
  have hhead : (s.next (.gap adc)).printing.head = s.printing.head.gapStep (s.below adc) := rfl
  have hedges : (s.next (.gap adc)).edges = _ := recognise_comes hcomes
  have hout : s.Gap.GapIn = false := hcomes.2
  obtain ⟨hcount, hlock, hsame⟩ := Head.gapStep_comes_alarm hcomes
  refine ⟨fun _ m hm => ?_, ?_⟩
  · rw [hedges] at hm
    obtain rfl : s.steps + 1 = m := Option.some.inj hm
    rw [Gap, hhead, hcount, hlock]
    show 1 = s.steps + 1 - (s.steps + 1) + 1 ∧ (_ ↔ 270 ≤ s.steps + 1 - (s.steps + 1))
    simp
  · rw [hhead, hsame, ha.error, hout, hedges]
    show _ ↔ TooLong s.edges ∨ _ ∧ ∃ m ∈ some (s.steps + 1), 270 ≤ s.steps + 1 - m
    simp

/-- On a label, nothing is counted. -/
theorem Alarmed.outside (ha : Alarmed s) (hcomes : ¬ s.printing.head.Comes (s.below adc))
    (hout : s.Gap.GapIn = false) : Alarmed (s.next (.gap adc)) := by
  have hhead : (s.next (.gap adc)).printing.head = s.printing.head.gapStep (s.below adc) := rfl
  have hleaves : ¬ s.printing.head.Leaves (s.below adc) := fun hleaves => by
    have hin : s.Gap.GapIn = true := hleaves.2
    rw [hout] at hin
    cases hin
  have hedges : (s.next (.gap adc)).edges = s.edges := recognise_otherwise hcomes hleaves
  have hout' : (s.next (.gap adc)).Gap.GapIn = false :=
    (congrArg (fun fields => fields.2.1) (Head.gapStep_otherwise hcomes hleaves)).trans hout
  refine ⟨fun hin' => ?_, ?_⟩
  · rw [hout'] at hin'
    cases hin'
  · rw [hhead, Head.gapStep_eq_outside hout hcomes, hedges, hout']
    show s.printing.head.Page.SensorError = true ↔ _
    rw [ha.error, hout]
    simp

/-- Where a gap leaves, it was too long or not. -/
theorem Alarmed.leaves (ha : Alarmed s) (h : Tracked s) (hlt : s.steps + 1 < 2 ^ 32)
    (hleaves : s.printing.head.Leaves (s.below adc)) : Alarmed (s.next (.gap adc)) := by
  have hhead : (s.next (.gap adc)).printing.head = s.printing.head.gapStep (s.below adc) := rfl
  have hin : s.Gap.GapIn = true := hleaves.2
  obtain ⟨m, hm, hle, hlength⟩ := h.inside hlt hin (s.below adc)
  have herror := ha.error
  have hedges : (s.next (.gap adc)).edges = _ := recognise_leaves hleaves
  have hout : (s.next (.gap adc)).Gap.GapIn = false :=
    congrArg (fun fields => fields.2.1) (Head.gapStep_leaves hleaves)
  have hlong := Head.gapStep_leaves_error hleaves
  rw [show s.printing.head.Gap = s.Gap from rfl, hlength] at hlong
  refine ⟨fun hin' => ?_, ?_⟩
  · rw [hout] at hin'
    cases hin'
  · rw [hm] at herror
    rw [hhead, hlong, herror, hout, hedges, TooLong, hm]
    simp only [hin, Option.mem_some_iff, exists_eq_left', true_and]
    constructor
    · rintro ((htoo | hlate) | hnow)
      · exact .inl (.inr htoo)
      · exact .inl (.inl (by omega))
      · exact .inl (.inl hnow)
    · rintro ((hnow | htoo) | ⟨⟨⟩, -⟩)
      · exact .inr hnow
      · exact .inl (.inl htoo)

/-- In a gap, the steps are counted. -/
theorem Alarmed.inside (ha : Alarmed s) (h : Tracked s) (hlt : s.steps + 1 < 2 ^ 32 - 1)
    (hin : s.Gap.GapIn = true) (hleaves : ¬ s.printing.head.Leaves (s.below adc)) :
    Alarmed (s.next (.gap adc)) := by
  have hhead : (s.next (.gap adc)).printing.head = s.printing.head.gapStep (s.below adc) := rfl
  have hcomes : ¬ s.printing.head.Comes (s.below adc) := fun hcomes => by
    have hout : s.Gap.GapIn = false := hcomes.2
    rw [hin] at hout
    cases hout
  obtain ⟨m, hm, hle, hlength⟩ := h.inside (by omega) hin (s.below adc)
  obtain ⟨hcount, hlock⟩ := ha.counts hin m hm
  have herror := ha.error
  rw [hm] at herror
  simp only [hin, Option.mem_some_iff, exists_eq_left', true_and] at herror
  have hedges : (s.next (.gap adc)).edges = s.edges := recognise_otherwise hcomes hleaves
  have hin' : (s.next (.gap adc)).Gap.GapIn = true :=
    (congrArg (fun fields => fields.2.1) (Head.gapStep_otherwise hcomes hleaves)).trans hin
  have hsteps : (s.next (.gap adc)).steps = s.steps + 1 := rfl
  obtain ⟨hcount', hlock', herror'⟩ := Head.handleLast_alarm
    (h := s.printing.head.gapCount (s.below adc)) (k := s.steps - m + 1) (by omega) hcount
    fun hlate => by
      rw [show (s.printing.head.gapCount (s.below adc)).Gap.StepsGapPos = s.Gap.StepsGapPos
        from rfl, hlength]
      omega
  rw [← Head.gapStep_eq_inside hin hleaves, ← hhead] at hcount' hlock' herror'
  rw [show (s.printing.head.gapCount (s.below adc)).Gap.LockPage = s.Gap.LockPage from rfl]
    at hlock' herror'
  rw [show (s.printing.head.gapCount (s.below adc)).Page.SensorError =
    s.printing.head.Page.SensorError from rfl] at herror'
  have hfree : s.Gap.LockPage = false ↔ ¬ 270 ≤ s.steps - m := by
    rw [← hlock]
    simp
  refine ⟨fun _ m' hm' => ?_, ?_⟩
  · rw [hedges, hm] at hm'
    obtain rfl := Option.some.inj hm'
    rw [hcount', hlock', hlock, hsteps]
    omega
  · rw [herror', herror, hfree, hedges, hm, hsteps]
    simp only [hin', Option.mem_some_iff, exists_eq_left', true_and]
    constructor
    · rintro ((htoo | hlate) | ⟨-, hlate⟩)
      · exact .inl htoo
      · exact .inr (by omega)
      · exact .inr (by omega)
    · rintro (htoo | hlate)
      · exact .inl (.inl htoo)
      · by_cases hold : 270 ≤ s.steps - m
        · exact .inl (.inr hold)
        · exact .inr ⟨hold, by omega⟩

/-- **One sample** keeps the alarm right. -/
theorem Alarmed.gap (ha : Alarmed s) (h : Tracked s) (hlt : s.steps + 1 < 2 ^ 32 - 1) :
    Alarmed (s.next (.gap adc)) := by
  by_cases hcomes : s.printing.head.Comes (s.below adc)
  · exact ha.comes hcomes
  · by_cases hleaves : s.printing.head.Leaves (s.below adc)
    · exact ha.leaves h (by omega) hleaves
    · cases hin : s.Gap.GapIn with
      | true => exact ha.inside h hlt hin hleaves
      | false => exact ha.outside hcomes hin

/-- A step of the label leaves the alarm alone. -/
theorem Alarmed.motor (ha : Alarmed s) : Alarmed (s.next .motor) := by
  have herror : (s.next .motor).printing.head.Page.SensorError =
    s.printing.head.Page.SensorError := Head.sensorError_PageDataCalculation
  obtain ⟨CountLable, hgap⟩ :
      ∃ CountLable, (s.next .motor).Gap = { s.Gap with CountLable := CountLable } := by
    obtain ⟨_, _, CountLable, _, _, hstep⟩ :=
      Head.stepped_PageDataCalculation (h := s.printing.head)
    exact ⟨CountLable, congrArg Head.Gap hstep⟩
  refine ⟨?_, ?_⟩
  · rw [hgap]
    exact ha.counts
  · rw [herror, hgap]
    exact ha.error

/-- **A run** keeps the alarm right. -/
theorem Alarmed.run (ha : Alarmed s) (h : Tracked s) (hops : ∀ op ∈ ops, Moves op)
    (hlt : s.steps + (s.lows ops).length < 2 ^ 32 - 1) : Alarmed (ops.foldl next s) := by
  induction ops generalizing s with
  | nil => exact ha
  | cons op ops ih =>
    obtain ⟨hop, hrest⟩ := List.forall_mem_cons.1 hops
    cases op with
    | start | findGap | tasks => cases hop
    | motor => exact ih ha.motor (h.next .motor) hrest hlt
    | gap adc =>
      rw [lows, List.length_cons] at hlt
      refine ih (ha.gap h (by omega)) (h.next (.gap adc)) hrest ?_
      show s.steps + 1 + _ < _
      omega

/-- A run begins without an error. -/
theorem alarmed_start (CurrentSMP : StepMP) (hstopped : s.printing.head.SMP.Status ≠ .Running) :
    Alarmed (s.next (.start CurrentSMP)) := by
  have hnext : s.next (.start CurrentSMP) =
      { printing := s.printing.next (.start CurrentSMP), steps := 0, edges := [] } :=
    if_neg hstopped
  have hhead : (s.printing.next (.start CurrentSMP)).head.Page.SensorError = false ∧
      (s.printing.next (.start CurrentSMP)).head.Gap.GapIn = false := by
    simp only [Printing.next, Head.StepMotorStart, if_neg hstopped, and_self]
  rw [hnext]
  refine ⟨fun _ m hm => absurd hm (Option.not_mem_none m), ?_⟩
  show (s.printing.next (.start CurrentSMP)).head.Page.SensorError = true ↔
    TooLong [] ∨ (s.printing.next (.start CurrentSMP)).head.Gap.GapIn = true ∧ _
  rw [hhead.1, hhead.2, TooLong]
  simp

end Sensing

/-- A roll has a gap that is found too long exactly if one has more than 76 steps. -/
theorem tooLong_rollEdges {roll : List (Nat × Nat)} (pitch : Option Nat) (t : Nat)
    (edges : List Edge) (hclear : ∀ p ∈ roll, Clear 8 3 p) :
    TooLong ((rollEdges pitch t roll).reverse ++ edges) ↔
      TooLong edges ∨ ∃ p ∈ roll, 76 < p.1 := by
  induction roll generalizing pitch t edges with
  | nil => simp [rollEdges]
  | cons p roll ih =>
    obtain ⟨gap, label⟩ := p
    obtain ⟨hp, hrest⟩ := List.forall_mem_cons.1 hclear
    have hgap : 3 ≤ gap := hp.1
    rw [rollEdges, List.reverse_cons, List.reverse_cons, List.append_assoc, List.append_assoc,
      ih _ _ _ hrest]
    show ((∃ m ∈ some (t + 3), 80 < t + gap + (min gap 8 - 1) - m) ∨ TooLong edges) ∨ _ ↔ _
    have hlong : 80 < t + gap + (min gap 8 - 1) - (t + 3) ↔ 76 < gap := by omega
    simp only [Option.mem_some_iff, exists_eq_left', hlong, List.mem_cons, exists_eq_or_imp]
    constructor
    · rintro ((hnow | htoo) | hlater)
      · exact .inr (.inl hnow)
      · exact .inl htoo
      · exact .inr (.inr hlater)
    · rintro (htoo | hnow | hlater)
      · exact .inl (.inr htoo)
      · exact .inl (.inl hnow)
      · exact .inr hlater

open Sensing in
/-- **The labels are measured.** In every run from boot, where a roll passes the sensor, each gap is
found three steps after it begins and is left behind seven steps after it ends, and from the second
one on the length recorded is that of a gap and a label. -/
theorem gaps_measured (done ops : List Printing.Operation) (CurrentSMP : StepMP) (lead : Nat)
    (roll : List (Nat × Nat)) (hp : Passes (done.foldl next init) CurrentSMP ops lead roll) :
    (ops.foldl next ((done.foldl next init).next (.start CurrentSMP))).edges =
      (rollEdges none lead roll).reverse :=
  (hp.run (Tracked.init.run done)).1

/-- Two gaps pass, the second one too short for the counter to fill. -/
def twoGaps : List Printing.Operation :=
  [.gap 1000, .motor, .gap 1000] ++ List.replicate 9 (.gap 0) ++ List.replicate 20 (.gap 1000) ++
    [.gap 0, .motor, .gap 0, .gap 0] ++ List.replicate 5 (.gap 1000)

open Sensing in
theorem gaps_measured_two :
    (twoGaps.foldl next (init.next (.start Head.SMPCurrent))).edges =
      [.exit 36, .entry 34 true (some 29) 0, .exit 18, .entry 5 true none 0] :=
  gaps_measured [] twoGaps Head.SMPCurrent 2 [(9, 20), (3, 5)]
    ⟨by decide +kernel, by decide +kernel, by decide +kernel, by decide +kernel,
      by decide +kernel, by decide⟩

open Sensing in
/-- **The sensor's error.** In every run from boot, where a roll passes the sensor, the error is
recorded exactly if one of its gaps has more than 76 steps. -/
theorem sensorError_iff_gap (done ops : List Printing.Operation) (CurrentSMP : StepMP) (lead : Nat)
    (roll : List (Nat × Nat)) (hp : Passes (done.foldl next init) CurrentSMP ops lead roll) :
    (ops.foldl next
        ((done.foldl next init).next (.start CurrentSMP))).printing.head.Page.SensorError = true ↔
      ∃ p ∈ roll, 76 < p.1 := by
  have htracked := Tracked.init.run done
  obtain ⟨hedges, hout⟩ := hp.run htracked
  have halarm := (alarmed_start CurrentSMP hp.stopped).run
    (htracked.next (.start CurrentSMP)) hp.moves (by
      have hlt := hp.length_lt
      rw [show (done.foldl next init).next (.start CurrentSMP) =
        { printing := (done.foldl next init).printing.next (.start CurrentSMP), steps := 0
          edges := [] } from if_neg hp.stopped] at hlt ⊢
      show 0 + _ < _
      omega)
  have htoo := tooLong_rollEdges none lead [] hp.clear
  rw [List.append_nil] at htoo
  rw [halarm.error, hedges, hout, htoo, TooLong]
  simp

/-- A gap of 77 steps passes. -/
def longGap : List Printing.Operation :=
  .gap 0x3FF :: List.replicate 77 (.gap 0) ++ List.replicate 8 (.gap 0x3FF)

open Sensing in
theorem sensorError_iff_gap_long :
    (longGap.foldl next (init.next (.start Head.SMPCurrent))).printing.head.Page.SensorError =
        true ↔ ∃ p ∈ [(77, 8)], 76 < p.1 := by
  have herror := sensorError_iff_gap [] longGap Head.SMPCurrent 1 [(77, 8)]
    ⟨by decide +kernel, by decide +kernel, by decide +kernel, by decide +kernel,
      by decide +kernel, by decide⟩
  rwa [List.foldl_nil] at herror

end ThermalPrinter
