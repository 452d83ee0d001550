import ThermalPrinter.Lib.Cyclic
import ThermalPrinter.Paper.Gap
import ThermalPrinter.Paper.Labels

/-!
# Gap compensation

When a gap leaves the sensor, the countdown of the label under the print head is known: the print
head is 105 steps behind the sensor. `PageCompensationByGap` moves the countdown to the label
boundary it takes for the nearest. The lemmas of the first section say what each case of it does;
with them, the countdown is never taken further from a label boundary, except on labels of 98 to
104 steps (`compensation_aligned_iff`).
-/

namespace ThermalPrinter

namespace Head

variable {h : Head} {i k L E : Nat} {is : List Nat}

/-! ## The estimate -/

/-- The countdown is a positive `int`, and the distance is as initialised. -/
structure Counting (h : Head) : Prop where
  PrintPosAndGapValue : h.PrintPosAndGapValue = 105
  pos : 1 ≤ h.Page.RemainderSteps
  int : h.Page.RemainderSteps < 2 ^ 31

/-- The comparison of the countdown with an estimate, without the conversions. -/
theorem Counting.near_iff (hc : h.Counting) (hE : E < 2 ^ 31) :
    Near E h.Page.RemainderSteps ↔
      h.Page.RemainderSteps < E + 40 ∧ (E : Int) < h.Page.RemainderSteps + 40 := by
  have hpos := hc.pos
  have hint := hc.int
  unfold Near u32
  omega

theorem atLeastOne_of_ne (hne : h.Page.RemainderSteps ≠ 0) : h.atLeastOne = h := by
  unfold atLeastOne
  rw [if_neg hne]

/-- The boundary lies before the sensor, and the countdown is far from it. -/
theorem estimate_next (hE : i * L < 98) (hfar : ¬ Near (98 - i * L) h.Page.RemainderSteps) :
    estimate 98 L (i :: is) h = estimate 98 L is h := by
  rw [estimate, if_pos (by rw [u32_mul (by omega)]; exact hE)]
  simp only [u32_sub_mul hE.le (by omega : 98 < 2 ^ 32)]
  rw [if_neg hfar]

/-- The boundary lies before the sensor, and the countdown is near it: it is moved there, but in
the margin only downwards. -/
theorem estimate_at (hc : h.Counting) (hE : i * L < 98)
    (hnear : Near (98 - i * L) h.Page.RemainderSteps) :
    estimate 98 L (i :: is) h =
      (h.setRemainderSteps (if h.Page.RemainderSteps < 20 then
        min h.Page.RemainderSteps (98 - i * L) else 98 - i * L), false) := by
  have hpos := hc.pos
  have hu : (u32 h.Page.RemainderSteps : Int) = h.Page.RemainderSteps :=
    u32_of_range (by omega) (by have := hc.int; omega)
  have hi : i32 (98 - i * L : Nat) = 98 - i * L := by
    rw [i32_of_range (by omega) (by omega), Nat.cast_sub hE.le, Nat.cast_mul]
    rfl
  have hlt : (i * L : Int) < 98 := by exact_mod_cast hE
  have hmoved : (h.setRemainderSteps (98 - i * L)).atLeastOne = h.setRemainderSteps (98 - i * L) :=
    atLeastOne_of_ne (by simp only [setRemainderSteps]; omega)
  rw [estimate, if_pos (by rw [u32_mul (by omega)]; exact hE)]
  simp only [u32_sub_mul hE.le (by omega : 98 < 2 ^ 32)]
  rw [if_pos hnear, hi, hmoved]
  by_cases hmargin : h.Page.RemainderSteps < 20
  · rw [if_pos hmargin, if_pos hmargin]
    by_cases hgt : u32 h.Page.RemainderSteps > 98 - i * L
    · rw [if_pos hgt, min_eq_right (by rw [← hu]; omega)]
    · rw [if_neg hgt, min_eq_left (by rw [← hu]; omega), atLeastOne_of_ne (by omega)]
      rfl
  · rw [if_neg hmargin, if_neg hmargin]

/-- The boundary lies behind the sensor, and the countdown is far from it. -/
theorem estimate_far (hE : 98 ≤ i * L) (hint : i * L < 2 ^ 32)
    (hfar : ¬ Near (i * L - 98) h.Page.RemainderSteps) :
    estimate 98 L (i :: is) h = (h, true) := by
  rw [estimate, if_neg (by rw [u32_mul hint]; omega)]
  simp only [u32_mul_sub hE hint]
  rw [if_neg hfar]

/-- The boundary lies behind the sensor, and the countdown is near it and at its end: the label is
cut short and the page turned. -/
theorem estimate_turn (hc : h.Counting) (hE : 98 ≤ i * L) (hint : i * L < 2 ^ 32)
    (hnear : Near (i * L - 98) h.Page.RemainderSteps)
    (hlt : h.Page.RemainderSteps < h.Gap.LabelLength) (hmargin : h.Page.RemainderSteps < 20)
    (hlen : h.Gap.LabelLength < 2 ^ 31) :
    estimate 98 L (i :: is) h =
      ({ h with
        Gap := { h.Gap with
          LabelLength := u32 (h.Gap.LabelLength - h.Page.RemainderSteps)
          CountLable := u32 (h.Gap.CountLable + 1) }
        Page := { h.Page with
          PageNum := h.Page.PageNum + 1
          RemainderSteps := h.Gap.LabelLength - h.Page.RemainderSteps } }, false) := by
  have hpos := hc.pos
  have hu : (u32 h.Page.RemainderSteps : Int) = h.Page.RemainderSteps :=
    u32_of_range (by omega) (by omega)
  have hcut : (u32 (h.Gap.LabelLength - h.Page.RemainderSteps) : Int) =
      h.Gap.LabelLength - h.Page.RemainderSteps := u32_of_range (by omega) (by omega)
  rw [estimate, if_neg (by rw [u32_mul hint]; omega)]
  simp only [u32_mul_sub hE hint]
  rw [if_pos hnear, if_pos ⟨by omega, hmargin⟩, AuthenticPageMangement_turn (by rfl)]
  have hne : u32 (h.Gap.LabelLength - h.Page.RemainderSteps) ≠ 0 := by omega
  simp only [setRemainderSteps, ne_eq, hne, not_false_eq_true, if_true]
  rw [hcut, i32_of_range (by omega) (by omega), atLeastOne_of_ne]
  simp only
  omega

/-- The boundary lies behind the sensor, and the countdown is near it but not at its end. -/
theorem estimate_past (hc : h.Counting) (hE : 98 ≤ i * L) (hint : i * L < 2 ^ 32)
    (hnear : Near (i * L - 98) h.Page.RemainderSteps)
    (hlong : ¬ (h.Page.RemainderSteps < h.Gap.LabelLength ∧ h.Page.RemainderSteps < 20)) :
    estimate 98 L (i :: is) h = (h.setRemainderSteps 98, false) := by
  have hpos := hc.pos
  have hu : (u32 h.Page.RemainderSteps : Int) = h.Page.RemainderSteps :=
    u32_of_range (by omega) (by have := hc.int; omega)
  rw [estimate, if_neg (by rw [u32_mul hint]; omega)]
  simp only [u32_mul_sub hE hint]
  rw [if_pos hnear, if_neg (by omega), i32_of_range (by decide) (by decide), atLeastOne_of_ne]
  · rfl
  · simp [setRemainderSteps]

/-- On labels of more than 98 steps, the drag case ends the label. -/
theorem drag_one (h₁ : 98 < h.Gap.LabelLength) (h₂ : h.Gap.LabelLength < 2 ^ 32) :
    (drag 98 [1, 2, 3, 4] h).atLeastOne = h.setRemainderSteps 1 := by
  have hu : 98 < u32 ((1 : Nat) * h.Gap.LabelLength) := by
    rw [u32_mul (by omega)]
    omega
  rw [drag, if_pos hu, if_pos rfl, atLeastOne_of_ne]
  simp [setRemainderSteps]

/-- On labels of 50 to 98 steps, it moves the countdown to the boundary before the sensor. -/
theorem drag_two (h₁ : h.Gap.LabelLength ≤ 98) (h₂ : 98 < 2 * h.Gap.LabelLength) :
    (drag 98 [1, 2, 3, 4] h).atLeastOne =
      h.setRemainderSteps (max 1 (98 - h.Gap.LabelLength)) := by
  have hu₁ : ¬ 98 < u32 ((1 : Nat) * h.Gap.LabelLength) := by
    rw [u32_mul (by omega)]
    omega
  have hu₂ : 98 < u32 ((2 : Nat) * h.Gap.LabelLength) := by
    rw [u32_mul (by omega)]
    omega
  have hi : i32 ((98 : Nat) - ((2 : Nat) - 1) * h.Gap.LabelLength) = 98 - h.Gap.LabelLength := by
    rw [i32_of_range (by omega) (by omega)]
    omega
  rw [drag, if_neg hu₁, drag, if_pos hu₂, if_neg (by decide), hi]
  by_cases h0 : (98 : Int) - h.Gap.LabelLength = 0
  · rw [h0, max_eq_left (by decide)]
    rfl
  · rw [atLeastOne_of_ne h0, max_eq_right (by omega)]

/-- The compensation on a label that is shorter than the distance, where no label was dragged. -/
theorem compensation_of_estimate {h' : Head} (hc : h.Counting) (h₀ : 0 < h.Gap.LabelLength)
    (h₁ : h.Gap.LabelLength < 105)
    (hest : estimate 98 h.Gap.LabelLength [1, 2, 3, 4] h = (h', false)) :
    h.PageCompensationByGap = h' := by
  have hT : u32 (h.PrintPosAndGapValue - 7) = 98 := by
    rw [hc.PrintPosAndGapValue]
    rfl
  rw [PageCompensationByGap, if_pos ⟨by rw [hc.PrintPosAndGapValue]; exact h₁, h₀.ne'⟩]
  simp only [hT, hest]
  rfl

/-- The same where one was. -/
theorem compensation_of_drag {h' : Head} (hc : h.Counting) (h₀ : 0 < h.Gap.LabelLength)
    (h₁ : h.Gap.LabelLength < 105)
    (hest : estimate 98 h.Gap.LabelLength [1, 2, 3, 4] h = (h', true)) :
    h.PageCompensationByGap = (drag 98 [1, 2, 3, 4] h').atLeastOne := by
  have hT : u32 (h.PrintPosAndGapValue - 7) = 98 := by
    rw [hc.PrintPosAndGapValue]
    rfl
  rw [PageCompensationByGap, if_pos ⟨by rw [hc.PrintPosAndGapValue]; exact h₁, h₀.ne'⟩]
  simp only [hT, hest]
  rfl

/-- On longer labels the countdown is set where it is more than half the distance. -/
theorem compensation_long (hc : h.Counting) (h₁ : 105 ≤ h.Gap.LabelLength) :
    h.PageCompensationByGap =
      if 52 < h.Page.RemainderSteps then h.setRemainderSteps 105 else h := by
  have hpos := hc.pos
  have hu : (u32 h.Page.RemainderSteps : Int) = h.Page.RemainderSteps :=
    u32_of_range (by omega) (by have := hc.int; omega)
  rw [PageCompensationByGap, hc.PrintPosAndGapValue, if_neg (by omega), if_pos (by omega),
    i32_of_range (by decide) (by decide)]
  by_cases h52 : 52 < h.Page.RemainderSteps
  · rw [if_pos h52, if_pos (by omega)]
    rfl
  · rw [if_neg h52, if_neg (by omega)]

/-! ## Alignment -/

/-- The distance from the print head to a label boundary that the code assumes when a gap leaves
the sensor. -/
def boundary (LabelLength : Nat) : Int := if LabelLength < 105 then 98 else 105

/-- The compensation leaves an aligned countdown alone, and never takes another one further from a
boundary, nor over more than one page. -/
def Compensates (h : Head) : Prop :=
  (h.Page.RemainderSteps ≡ boundary h.Gap.LabelLength [ZMOD h.Gap.LabelLength] →
    h.PageCompensationByGap.Page.RemainderSteps = h.Page.RemainderSteps ∧
      h.PageCompensationByGap.Page.PageNum = h.Page.PageNum ∧
      h.PageCompensationByGap.Gap.LabelLength = h.Gap.LabelLength) ∧
  (¬ h.Page.RemainderSteps ≡ boundary h.Gap.LabelLength [ZMOD h.Gap.LabelLength] →
    Cyclic.dist h.Gap.LabelLength h.PageCompensationByGap.Page.RemainderSteps
        (boundary h.Gap.LabelLength) ≤
      Cyclic.dist h.Gap.LabelLength h.Page.RemainderSteps (boundary h.Gap.LabelLength) ∧
    (h.PageCompensationByGap.Page.PageNum = h.Page.PageNum ∨
      h.PageCompensationByGap.Page.PageNum = h.Page.PageNum + 1))

/-- It changes nothing. -/
theorem compensates_of_eq (h₁ : h.PageCompensationByGap = h) : h.Compensates := by
  rw [Compensates, h₁]
  exact ⟨fun _ => ⟨rfl, rfl, rfl⟩, fun _ => ⟨le_rfl, .inl rfl⟩⟩

/-- It moves the countdown to a boundary. -/
theorem compensates_of_boundary {r : Int} (hL : 0 < h.Gap.LabelLength)
    (h₁ : h.PageCompensationByGap = h.setRemainderSteps r)
    (hr : r ≡ boundary h.Gap.LabelLength [ZMOD h.Gap.LabelLength])
    (hsame : h.Page.RemainderSteps ≡ boundary h.Gap.LabelLength [ZMOD h.Gap.LabelLength] →
      r = h.Page.RemainderSteps) : h.Compensates := by
  have hL' : (0 : Int) < h.Gap.LabelLength := by exact_mod_cast hL
  rw [Compensates, h₁]
  refine ⟨fun h => ⟨hsame h, rfl, rfl⟩, fun _ => ⟨?_, .inl rfl⟩⟩
  rw [show (h.setRemainderSteps r).Page.RemainderSteps = r from rfl,
    (Cyclic.dist_eq_zero hL').2 hr]
  exact Cyclic.dist_nonneg hL'

/-- The distance from the boundary that lies `k` labels before the sensor. -/
theorem dist_boundary {r : Int} (k : Nat) (hL : L < 105) (h₁ : r + k * L - 98 ≤ L)
    (h₂ : 98 - (r + k * L) ≤ L) :
    Cyclic.dist L r (boundary L) =
      min (max (r + k * L - 98) (98 - (r + k * L)))
        (L - max (r + k * L - 98) (98 - (r + k * L))) := by
  have hd : boundary L = (98 - k * L) + (k : Int) * L := by
    rw [boundary, if_pos hL]
    omega
  rw [hd, Cyclic.dist_add_mul_self, Cyclic.dist_of_le (by omega) (by omega)]
  omega

/-- A countdown that stands at the boundary `k` labels before the sensor. -/
theorem modEq_boundary {r : Int} (k : Nat) (h₀ : 0 < L) (hL : L < 105)
    (h₁ : r + k * L - 98 ≤ L) (h₂ : 98 - (r + k * L) ≤ L) :
    r ≡ boundary L [ZMOD L] ↔ r + k * L = 98 ∨ r + k * L = 98 + L ∨ r + k * L + L = 98 := by
  rw [← Cyclic.dist_eq_zero (by exact_mod_cast h₀), dist_boundary k hL h₁ h₂]
  omega

/-- The boundary `i` labels before the sensor is near: the countdown is moved to it or stays. -/
theorem compensates_at (hc : h.Counting) (hL : 40 ≤ h.Gap.LabelLength) (hi : 0 < i)
    (hE : i * h.Gap.LabelLength < 98)
    (hnear : Near (98 - i * h.Gap.LabelLength) h.Page.RemainderSteps)
    (hest : estimate 98 h.Gap.LabelLength [1, 2, 3, 4] h =
      estimate 98 h.Gap.LabelLength (i :: is) h) : h.Compensates := by
  have hpos := hc.pos
  have hshort : h.Gap.LabelLength < 105 := by
    have := Nat.le_mul_of_pos_left h.Gap.LabelLength hi
    omega
  rw [estimate_at hc hE hnear] at hest
  have hcomp := compensation_of_estimate hc (by omega) hshort hest
  rw [hc.near_iff (by omega)] at hnear
  have hE' : ((98 - i * h.Gap.LabelLength : Nat) : Int) = 98 - i * h.Gap.LabelLength := by
    push_cast [hE.le]
    rfl
  rw [hE'] at hnear
  by_cases hstay : h.Page.RemainderSteps < 20 ∧ h.Page.RemainderSteps ≤ 98 - i * h.Gap.LabelLength
  · rw [if_pos hstay.1, min_eq_left hstay.2] at hcomp
    exact compensates_of_eq hcomp
  · have hmoved : (if h.Page.RemainderSteps < 20 then
        min h.Page.RemainderSteps (98 - i * h.Gap.LabelLength) else 98 - i * h.Gap.LabelLength) =
        98 - i * h.Gap.LabelLength := by
      split <;> omega
    rw [hmoved] at hcomp
    refine compensates_of_boundary (by omega) hcomp ?_ ?_
    · exact (modEq_boundary i (by omega) hshort (by omega) (by omega)).2 (.inl (by omega))
    · intro hal
      rw [modEq_boundary i (by omega) hshort (by omega) (by omega)] at hal
      omega

/-- The boundary behind the sensor is near and the label at its end: the page turns, and the
countdown goes on with what is left of the label. -/
theorem compensates_turn (hc : h.Counting) (hL : 40 ≤ h.Gap.LabelLength)
    (hshort : h.Gap.LabelLength < 105) (hk : k * h.Gap.LabelLength < 98)
    (hE : 98 ≤ (k + 1) * h.Gap.LabelLength)
    (hhalf : 2 * ((k + 1) * h.Gap.LabelLength - 98) ≤ h.Gap.LabelLength)
    (hnear : Near ((k + 1) * h.Gap.LabelLength - 98) h.Page.RemainderSteps)
    (hmargin : h.Page.RemainderSteps < 20)
    (hest : estimate 98 h.Gap.LabelLength [1, 2, 3, 4] h =
      estimate 98 h.Gap.LabelLength ((k + 1) :: is) h) : h.Compensates := by
  have hpos := hc.pos
  have hmul : (k + 1) * h.Gap.LabelLength = k * h.Gap.LabelLength + h.Gap.LabelLength :=
    Nat.succ_mul _ _
  rw [estimate_turn hc hE (by omega) hnear (by omega) hmargin (by omega)] at hest
  have hcomp := compensation_of_estimate hc (by omega) hshort hest
  have hk' : (k * h.Gap.LabelLength : Int) < 98 := by exact_mod_cast hk
  have hE' : (98 : Int) ≤ k * h.Gap.LabelLength + h.Gap.LabelLength := by
    rw [hmul] at hE
    exact_mod_cast hE
  have hhalf' : 2 * (k * h.Gap.LabelLength + h.Gap.LabelLength - 98 : Int) ≤
      h.Gap.LabelLength := by
    rw [hmul] at hhalf
    omega
  have hother : ¬ h.Page.RemainderSteps ≡ boundary h.Gap.LabelLength [ZMOD h.Gap.LabelLength] := by
    rw [modEq_boundary k (by omega) hshort (by omega) (by omega)]
    omega
  rw [Compensates, hcomp]
  refine ⟨fun hal => absurd hal hother, fun _ => ⟨?_, .inr rfl⟩⟩
  rw [dist_boundary k hshort (by simp only; omega) (by simp only; omega),
    dist_boundary k hshort (by omega) (by omega)]
  simp only
  omega

/-- The boundary behind the sensor is near and the label not at its end: the countdown is moved to
the next boundary. -/
theorem compensates_past (hc : h.Counting) (hL : 40 ≤ h.Gap.LabelLength)
    (hle : h.Page.RemainderSteps ≤ h.Gap.LabelLength) (hshort : h.Gap.LabelLength < 105)
    (hk : k * h.Gap.LabelLength < 98) (hE : 98 ≤ (k + 1) * h.Gap.LabelLength)
    (hne : h.Page.RemainderSteps + k * h.Gap.LabelLength ≠ 98)
    (hnear : Near ((k + 1) * h.Gap.LabelLength - 98) h.Page.RemainderSteps)
    (hmargin : ¬ h.Page.RemainderSteps < 20)
    (hest : estimate 98 h.Gap.LabelLength [1, 2, 3, 4] h =
      estimate 98 h.Gap.LabelLength ((k + 1) :: is) h) : h.Compensates := by
  have hmul : (k + 1) * h.Gap.LabelLength = k * h.Gap.LabelLength + h.Gap.LabelLength :=
    Nat.succ_mul _ _
  rw [estimate_past hc hE (by omega) hnear (by omega)] at hest
  have hcomp := compensation_of_estimate hc (by omega) hshort hest
  have hk' : (k * h.Gap.LabelLength : Int) < 98 := by exact_mod_cast hk
  have hE' : (98 : Int) ≤ k * h.Gap.LabelLength + h.Gap.LabelLength := by
    rw [hmul] at hE
    exact_mod_cast hE
  refine compensates_of_boundary (by omega) hcomp ?_ ?_
  · rw [boundary, if_pos hshort]
  · intro hal
    rw [modEq_boundary k (by omega) hshort (by omega) (by omega)] at hal
    omega

/-- Labels of 40 to 97 steps. -/
theorem compensates_of_le_97 (hc : h.Counting) (hL : 40 ≤ h.Gap.LabelLength)
    (hle : h.Page.RemainderSteps ≤ h.Gap.LabelLength) (h97 : h.Gap.LabelLength ≤ 97) :
    h.Compensates := by
  have hpos := hc.pos
  by_cases hnear₁ : Near (98 - 1 * h.Gap.LabelLength) h.Page.RemainderSteps
  · exact compensates_at hc hL (by decide) (by omega) hnear₁ rfl
  have hnext : estimate 98 h.Gap.LabelLength [1, 2, 3, 4] h =
      estimate 98 h.Gap.LabelLength [2, 3, 4] h := estimate_next (by omega) hnear₁
  rw [hc.near_iff (by omega)] at hnear₁
  by_cases h48 : h.Gap.LabelLength ≤ 48
  · -- the second boundary lies before the sensor, and it is near
    have hnear₂ : Near (98 - 2 * h.Gap.LabelLength) h.Page.RemainderSteps := by
      rw [hc.near_iff (by omega)]
      omega
    exact compensates_at hc hL (by decide) (by omega) hnear₂ hnext
  by_cases hnear₂ : Near (2 * h.Gap.LabelLength - 98) h.Page.RemainderSteps
  · by_cases hmargin : h.Page.RemainderSteps < 20
    · have hhalf : 2 * ((1 + 1) * h.Gap.LabelLength - 98) ≤ h.Gap.LabelLength := by omega
      exact compensates_turn hc hL (by omega) (by omega) (by omega) hhalf hnear₂ hmargin hnext
    · exact compensates_past hc hL hle (by omega) (by omega) (by omega) (by omega) hnear₂ hmargin
        hnext
  · rw [estimate_far (by omega) (by omega) hnear₂] at hnext
    have hcomp := compensation_of_drag hc (by omega) (by omega) hnext
    rw [hc.near_iff (by omega)] at hnear₂
    have hmax : max 1 (98 - (h.Gap.LabelLength : Int)) = 98 - h.Gap.LabelLength :=
      max_eq_right (by omega)
    rw [drag_two (by omega) (by omega), hmax] at hcomp
    refine compensates_of_boundary (by omega) hcomp ?_ ?_
    · exact (modEq_boundary 1 (by omega) (by omega) (by omega) (by omega)).2 (.inl (by omega))
    · intro hal
      rw [modEq_boundary 1 (by omega) (by omega) (by omega) (by omega)] at hal
      omega

/-- Labels of 98 to 104 steps: the countdown is near the boundary behind the sensor at its start
only, and later on the label counts as dragged and is ended. -/
theorem compensates_of_le_104 (hc : h.Counting) (hle : h.Page.RemainderSteps ≤ h.Gap.LabelLength)
    (h98 : 98 ≤ h.Gap.LabelLength) (h104 : h.Gap.LabelLength ≤ 104) :
    h.Compensates ↔ ¬ 196 ≤ h.Gap.LabelLength + h.Page.RemainderSteps := by
  have hpos := hc.pos
  by_cases hnear : Near (1 * h.Gap.LabelLength - 98) h.Page.RemainderSteps
  · have hnear' := (hc.near_iff (by omega)).1 hnear
    refine ⟨fun _ => by omega, ?_⟩
    intro _
    by_cases hmargin : h.Page.RemainderSteps < 20
    · have hhalf : 2 * ((0 + 1) * h.Gap.LabelLength - 98) ≤ h.Gap.LabelLength := by omega
      exact compensates_turn hc (by omega) (by omega) (by omega) (by omega) hhalf hnear hmargin rfl
    · exact compensates_past hc (by omega) hle (by omega) (by omega) (by omega) (by omega) hnear
        hmargin rfl
  · have hest : estimate 98 h.Gap.LabelLength [1, 2, 3, 4] h = (h, true) :=
      estimate_far (by omega) (by omega) hnear
    have hcomp := compensation_of_drag hc (by omega) (by omega) hest
    have hend : h.PageCompensationByGap = h.setRemainderSteps 1 := by
      rw [hcomp]
      by_cases heq : h.Gap.LabelLength = 98
      · rw [drag_two (by omega) (by omega), heq]
        rfl
      · exact drag_one (by omega) (by omega)
    rw [hc.near_iff (by omega)] at hnear
    have hal := modEq_boundary (L := h.Gap.LabelLength) (r := h.Page.RemainderSteps) 0 (by omega)
      (by omega) (by omega) (by omega)
    have hdist := dist_boundary (L := h.Gap.LabelLength) (r := h.Page.RemainderSteps) 0 (by omega)
      (by omega) (by omega)
    have hdist₁ := dist_boundary (L := h.Gap.LabelLength) (r := 1) 0 (by omega) (by omega)
      (by omega)
    rw [Compensates, hend, show (h.setRemainderSteps 1).Page.RemainderSteps = 1 from rfl, hdist,
      hdist₁, hal]
    constructor
    · rintro ⟨hsame, hother⟩ hge
      by_cases h98' : h.Page.RemainderSteps + (0 : Nat) * h.Gap.LabelLength = 98
      · have := (hsame (.inl h98')).1
        omega
      · have := (hother (by omega)).1
        omega
    · intro hlt
      exact ⟨fun _ => by omega, fun _ => ⟨by omega, .inl rfl⟩⟩

/-- Labels that are longer than the distance. -/
theorem compensates_of_ge_105 (hc : h.Counting) (hle : h.Page.RemainderSteps ≤ h.Gap.LabelLength)
    (h105 : 105 ≤ h.Gap.LabelLength) : h.Compensates := by
  have hcomp := compensation_long hc h105
  have hb : boundary h.Gap.LabelLength = 105 := by rw [boundary, if_neg (by omega)]
  by_cases h52 : 52 < h.Page.RemainderSteps
  · rw [if_pos h52] at hcomp
    refine compensates_of_boundary (by omega) hcomp (by rw [hb]) ?_
    intro hal
    rw [hb, ← Cyclic.dist_eq_zero (by omega), Cyclic.dist_of_le (by omega) (by omega)] at hal
    omega
  · rw [if_neg h52] at hcomp
    exact compensates_of_eq hcomp

/-- **When the compensation keeps the labels aligned.** For labels of at least 40 steps, it leaves
an aligned countdown alone and never takes another one further from a boundary, exactly when the
label is not one of 98 to 104 steps that has `196 - L` steps or more left: this label counts as
dragged, and is ended a step later, though the sensor's boundary is the one it began with. -/
theorem compensation_aligned_iff (hP : h.PrintPosAndGapValue = 105) (hL : 40 ≤ h.Gap.LabelLength)
    (hpos : 1 ≤ h.Page.RemainderSteps) (hle : h.Page.RemainderSteps ≤ h.Gap.LabelLength)
    (hint : h.Page.RemainderSteps < 2 ^ 31) :
    h.Compensates ↔
      ¬ (h.Gap.LabelLength < 105 ∧ 196 ≤ h.Gap.LabelLength + h.Page.RemainderSteps) := by
  have hc : h.Counting := ⟨hP, hpos, hint⟩
  by_cases h105 : h.Gap.LabelLength < 105
  · by_cases h97 : h.Gap.LabelLength ≤ 97
    · exact ⟨fun _ => by omega, fun _ => compensates_of_le_97 hc hL hle h97⟩
    · rw [compensates_of_le_104 hc hle (by omega) (by omega)]
      exact not_congr (and_iff_right h105).symm
  · exact ⟨fun _ => by omega, fun _ => compensates_of_ge_105 hc hle (by omega)⟩

/-- A label of 60 steps with 30 left. -/
theorem compensation_aligned_iff_60 :
    let h := { init with
      Gap := { init.Gap with LabelLength := 60 }, Page := { init.Page with RemainderSteps := 30 } }
    h.Compensates ↔ ¬ (h.Gap.LabelLength < 105 ∧
      (196 : Int) ≤ h.Gap.LabelLength + h.Page.RemainderSteps) :=
  compensation_aligned_iff rfl (by decide) (by decide) (by decide) (by decide)

/-- **The countdown of a label of 98 steps that is aligned is ended.** The gap that leaves the
sensor is the one before this label, of which all 98 steps are left. -/
theorem aligned_label_ended :
    let h := { init with
      Gap := { init.Gap with LabelLength := 98 }, Page := { init.Page with RemainderSteps := 98 } }
    h.Page.RemainderSteps ≡ boundary h.Gap.LabelLength [ZMOD h.Gap.LabelLength] ∧
      h.PageCompensationByGap.Page.RemainderSteps = 1 ∧ ¬ h.Compensates := by
  intro h
  have hend : h.PageCompensationByGap.Page.RemainderSteps = 1 := by decide +kernel
  have hal : h.Page.RemainderSteps ≡ boundary h.Gap.LabelLength [ZMOD h.Gap.LabelLength] := rfl
  refine ⟨hal, hend, ?_⟩
  intro hcomp
  have := (hcomp.1 hal).1
  rw [hend] at this
  exact absurd this (by decide)

end Head

end ThermalPrinter
