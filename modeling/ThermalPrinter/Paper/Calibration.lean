import ThermalPrinter.Lib.Ring
import ThermalPrinter.Lib.Runs
import ThermalPrinter.Paper.Gap
import Mathlib.Algebra.Order.BigOperators.Group.List
import Mathlib.Algebra.Order.Ring.Nat

/-!
# The calibration of the gap sensor

After boot, and after the cover was opened, `GapCalculate` sorts the samples below and above the
threshold into two arrays, and once it has 16 of each takes the mean of the middle ones for the new
threshold. `insertSorted` rebuilds a side's array from a ring buffer of the latest samples, but both
sides write to the same ring, with the same index. The sides stay apart only if the samples of one
side come first, in whole turns of the ring, and then those of the other.
-/

namespace ThermalPrinter

open List

/-- A side of the threshold: its latest samples, sorted, their sum and their number. -/
structure Side where
  arr : List Nat
  sum : Nat
  count : Nat
  deriving DecidableEq, Repr

/-- The order of a side's array. -/
def Ordered (lowSide : Bool) (a b : Nat) : Prop := if lowSide then a ≤ b else b ≤ a

/-- A side holds the last `min 16 n` of its `n` samples, sorted, and their sum. -/
structure Side.Right (lowSide : Bool) (side : Side) (samples : List Nat) : Prop where
  count : side.count = min 16 samples.length
  sorted : (side.arr.take side.count).Pairwise (Ordered lowSide)
  perm : side.arr.take side.count ~ samples.rtake 16
  sum : side.sum = (samples.rtake 16).sum

namespace Sensor

/-- The statics of a side. -/
def side (lowSide : Bool) (s : Sensor) : Side :=
  if lowSide then ⟨s.d16min, s.sumLow, s.minCount⟩ else ⟨s.d16max, s.sumHigh, s.maxCount⟩

/-- The statics after a step of the calibration has recorded its sample, before it chooses the
threshold. -/
def recorded (adc : Nat) (s : Sensor) : Sensor := s.InitSharedGapArrays.record adc

/-- A sample goes to its own side. -/
def ownSide (adc : Nat) (s : Sensor) : Bool := adc < s.threshold

/-- The threshold was chosen from entries of their own sides, and lies between the smallest of the
last 16 low samples and the largest of the last 16 high ones. -/
structure Chosen (s : Sensor) (samples : Bool → List Nat) : Prop where
  low : ∀ x ∈ (s.d16min.drop 3).take 12, x ∈ (samples true).rtake 16
  high : ∀ x ∈ (s.d16max.drop 3).take 12, x ∈ (samples false).rtake 16
  ge : ∃ x ∈ (samples true).rtake 16, x ≤ s.calibrate.threshold
  le : ∃ x ∈ (samples false).rtake 16, s.calibrate.threshold ≤ x

end Sensor

/-- The sensor, and the valid samples of the calibration so far: the low ones (`true`) and the high
ones. -/
structure Calibration where
  sensor : Sensor
  samples : Bool → List Nat

namespace Calibration

/-- What happens: a step of `GapCalculate` with its sample, and `gapCalculated=false` after the
cover was opened. -/
inductive Event
  | sample (adc : Nat)
  | coverOpened

/-- The samples with the one that a step takes. -/
def taken (adc : Nat) (c : Calibration) : Bool → List Nat :=
  if adc < 0x3FF then
    Function.update c.samples (c.sensor.ownSide adc) (c.samples (c.sensor.ownSide adc) ++ [adc])
  else c.samples

/-- The state after an event. A calibration that ends leaves no samples to the next. -/
def next (c : Calibration) : Event → Calibration
  | .sample adc =>
    { sensor := c.sensor.sample adc
      samples :=
        if c.sensor.gapCalculated then c.samples
        else if (c.sensor.sample adc).gapCalculated then fun _ => []
        else c.taken adc }
  | .coverOpened => { c with sensor := { c.sensor with gapCalculated := false } }

/-- The state at boot. -/
def init : Calibration := { sensor := Sensor.init, samples := fun _ => [] }

/-- What a step of the calibration should do: both sides hold their own last samples, and a
threshold that is chosen is chosen from them. -/
structure Apart (c : Calibration) (adc : Nat) : Prop where
  side (lowSide : Bool) : ((c.sensor.recorded adc).side lowSide).Right lowSide (c.taken adc lowSide)
  chosen : 16 ≤ (c.sensor.recorded adc).minCount → 16 ≤ (c.sensor.recorded adc).maxCount →
    (c.sensor.recorded adc).Chosen (c.taken adc)

/-- The next sample of a side does not mix the sides: the side is not full and the ring is at its
place, or it is full and the other one is empty. -/
def Fits (s : Sensor) (b : Bool) : Prop :=
  if (s.side b).count < 16 then s.rawIndex = (s.side b).count else (s.side (!b)).count = 0

/-- What every step of a calibration should do. -/
def ApartAt (c : Calibration) : Event → Prop
  | .sample adc => c.sensor.gapCalculated = false → Apart c adc
  | .coverOpened => True

/-- A valid sample of a calibration does not mix the sides. -/
def Sound (c : Calibration) : Event → Prop
  | .sample adc => c.sensor.gapCalculated = false → adc < 0x3FF →
      Fits c.sensor.InitSharedGapArrays (c.sensor.ownSide adc)
  | .coverOpened => True

end Calibration

/-! ## One sample -/

namespace Sensor

variable {s : Sensor} {adc k : Nat} {lowSide : Bool} {samples : List Nat}

/-- The side after `insertSorted`. -/
def inserted (adc : Nat) (lowSide : Bool) (s : Sensor) : Side :=
  let r :=
    s.insertSorted (s.side lowSide).arr (s.side lowSide).sum (s.side lowSide).count adc lowSide
  ⟨r.1, r.2.1, r.2.2.1⟩

/-- What a valid sample changes: its own side, and the ring. -/
structure Records (adc : Nat) (s t : Sensor) : Prop where
  own : t.side (s.ownSide adc) = s.inserted adc (s.ownSide adc)
  other : t.side (!s.ownSide adc) = s.side (!s.ownSide adc)
  rawBuf : t.rawBuf = s.rawBuf.set s.rawIndex adc
  rawIndex : t.rawIndex = (s.rawIndex + 1) % 16
  threshold : t.threshold = s.threshold
  inited : t.inited = s.inited
  gapCalculated : t.gapCalculated = s.gapCalculated

theorem records (hvalid : adc < 0x3FF) : Records adc s (s.record adc) := by
  rw [record, if_pos hvalid]
  by_cases hlow : adc < s.threshold
  · have hside : s.ownSide adc = true := decide_eq_true hlow
    rw [if_pos hlow]
    exact ⟨by rw [hside]; rfl, by rw [hside]; rfl, rfl, rfl, rfl, rfl, rfl⟩
  · have hside : s.ownSide adc = false := decide_eq_false hlow
    rw [if_neg hlow]
    exact ⟨by rw [hside]; rfl, by rw [hside]; rfl, rfl, rfl, rfl, rfl, rfl⟩

/-- The number of a side's samples goes up to 16. -/
theorem inserted_count (adc : Nat) (h : (s.side lowSide).Right lowSide samples) :
    (s.inserted adc lowSide).count = min 16 (samples.length + 1) := by
  show (if (s.side lowSide).count = 16 then (s.side lowSide).count
    else (s.side lowSide).count + 1) = _
  rw [h.count]
  split <;> omega

/-- The array of a side is rebuilt from the first samples of the ring. -/
theorem inserted_take (adc : Nat) (lowSide : Bool) (hlen : s.rawBuf.length = 16)
    (hcount : (s.inserted adc lowSide).count ≤ 16) :
    ((s.inserted adc lowSide).arr.take (s.inserted adc lowSide).count).Pairwise (Ordered lowSide) ∧
      (s.inserted adc lowSide).arr.take (s.inserted adc lowSide).count ~
        (s.rawBuf.set s.rawIndex adc).take (s.inserted adc lowSide).count := by
  obtain ⟨count, hc⟩ : ∃ count, (s.inserted adc lowSide).count = count := ⟨_, rfl⟩
  rw [hc] at hcount ⊢
  have hraw : ((s.rawBuf.set s.rawIndex adc).take count).length = count := by
    rw [length_take, length_set, hlen]
    omega
  cases lowSide with
  | true =>
    have harr : (s.inserted adc true).arr.take count =
        ((s.rawBuf.set s.rawIndex adc).take count).insertionSort (· ≤ ·) := by
      subst hc
      exact take_left' ((length_insertionSort _ _).trans hraw)
    rw [harr]
    exact ⟨pairwise_insertionSort (· ≤ ·) _, perm_insertionSort _ _⟩
  | false =>
    have harr : (s.inserted adc false).arr.take count =
        ((s.rawBuf.set s.rawIndex adc).take count).insertionSort (· ≥ ·) := by
      subst hc
      exact take_left' ((length_insertionSort _ _).trans hraw)
    rw [harr]
    exact ⟨pairwise_insertionSort (· ≥ ·) _, perm_insertionSort _ _⟩

/-- The last 16 of valid samples sum up to less than `2 ^ 16`. -/
theorem sum_rtake_lt (hvalid : ∀ x ∈ samples, x < 0x3FF) : (samples.rtake 16).sum < 2 ^ 16 := by
  have hle := sum_le_card_nsmul (samples.rtake 16) 0x3FE
    fun x hx => Nat.le_of_lt_succ (hvalid x (mem_of_mem_drop hx))
  have hlen : (samples.rtake 16).length ≤ 16 := by
    rw [rtake, length_drop]
    omega
  have hmul : (samples.rtake 16).length • 0x3FE = (samples.rtake 16).length * 0x3FE := rfl
  omega

/-- The last 16 of a longer history are the oldest of them and the 15 after it. -/
theorem rtake_eq_cons (hfull : 16 ≤ samples.length) :
    ∃ x, samples[samples.length - 16]? = some x ∧ samples.rtake 16 = x :: samples.rtake 15 := by
  have hlt : samples.length - 16 < samples.length := by omega
  refine ⟨samples[samples.length - 16], getElem?_eq_getElem hlt, ?_⟩
  rw [rtake, rtake, drop_eq_getElem_cons hlt]
  congr 2
  omega

/-- The sum of a side follows its last samples. -/
theorem inserted_sum (h : (s.side lowSide).Right lowSide samples)
    (hring : Ring.Holds 16 s.rawBuf samples) (hindex : s.rawIndex = samples.length % 16)
    (hvalid : ∀ x ∈ samples ++ [adc], x < 0x3FF) :
    (s.inserted adc lowSide).sum = ((samples ++ [adc]).rtake 16).sum := by
  have hbound := sum_rtake_lt hvalid
  have hold := sum_rtake_lt fun x hx => hvalid x (mem_append_left _ hx)
  have hsum : (s.inserted adc lowSide).sum =
      ((if (s.side lowSide).count = 16 then
        ((s.side lowSide).sum + 2 ^ 16 - s.rawBuf.getD s.rawIndex 0) % 2 ^ 16
        else (s.side lowSide).sum) + adc) % 2 ^ 16 := rfl
  rw [rtake_concat_succ, sum_append, sum_singleton] at hbound ⊢
  rw [hsum, h.count, h.sum]
  obtain hlt | hfull := Nat.lt_or_ge samples.length 16
  · have hall : samples.rtake 16 = samples.rtake 15 := by
      rw [rtake, rtake]
      congr 1
      omega
    rw [if_neg (by omega), hall, Nat.mod_eq_of_lt hbound]
  · obtain ⟨x, hx, hlast⟩ := rtake_eq_cons hfull
    have hget : s.rawBuf.getD s.rawIndex 0 = x := by
      rw [getD_eq_getElem?_getD, hindex, hring.oldest (by decide) hfull, hx, Option.getD_some]
    rw [if_pos (by omega), hget, hlast, sum_cons]
    rw [hlast, sum_cons] at hold
    omega

/-- A sample that the ring takes at its side's place leaves the side right. -/
theorem inserted_right (h : (s.side lowSide).Right lowSide samples)
    (hring : Ring.Holds 16 s.rawBuf samples) (hindex : s.rawIndex = samples.length % 16)
    (hvalid : ∀ x ∈ samples ++ [adc], x < 0x3FF) :
    (s.inserted adc lowSide).Right lowSide (samples ++ [adc]) := by
  have hcount := inserted_count adc h
  have hperm := (hring.write adc).take_perm
  rw [← hindex, length_append, length_singleton, ← hcount] at hperm
  obtain ⟨hsorted, htake⟩ := inserted_take adc lowSide hring.length
    (by rw [hcount]; exact Nat.min_le_left _ _)
  exact ⟨by rw [hcount, length_append, length_singleton], hsorted, htake.trans hperm,
    inserted_sum h hring hindex hvalid⟩

/-- A sample that the ring takes at another place, while its first place holds a sample of the other
side, does not. -/
theorem inserted_wrong {x : Nat} (hlen : s.rawBuf.length = 16)
    (h : (s.side lowSide).Right lowSide samples) (hindex : s.rawIndex ≠ 0)
    (hx : s.rawBuf[0]? = some x) (hother : x ∉ samples ++ [adc]) :
    ¬ (s.inserted adc lowSide).Right lowSide (samples ++ [adc]) := by
  intro hright
  have hcount := inserted_count adc h
  obtain ⟨-, htake⟩ := inserted_take adc lowSide hlen
    (by rw [hcount]; exact Nat.min_le_left _ _)
  have hmem : x ∈ (s.rawBuf.set s.rawIndex adc).take (s.inserted adc lowSide).count := by
    refine mem_iff_getElem?.2 ⟨0, ?_⟩
    rw [getElem?_take_of_lt (by rw [hcount]; omega), getElem?_set_ne hindex, hx]
  exact hother (mem_of_mem_drop (hright.perm.subset (htake.symm.subset hmem)))

end Sensor

/-! ## The calibration -/

/-- The sides are apart: each holds its own last samples, and the ring those of the side that
recorded last. The other side was full before that side began. -/
structure Calibration.Good (s : Sensor) (samples : Bool → List Nat) : Prop where
  right (b : Bool) : (s.side b).Right b (samples b)
  valid (b : Bool) : ∀ x ∈ samples b, x < 0x3FF
  own (b : Bool) : ∀ x ∈ samples b, s.ownSide x = b
  ring : ∃ last, Ring.Holds 16 s.rawBuf (samples last) ∧ s.rawIndex = (samples last).length % 16 ∧
    (samples (!last) = [] ∨
      16 ≤ (samples !last).length ∧ samples last ≠ [] ∧ (samples last).length ≤ 16)

namespace Calibration

variable {s : Sensor} {samples : Bool → List Nat} {adc : Nat} {b : Bool}

/-- The calibration goes on while a side is not full. -/
def Open (s : Sensor) : Prop := ¬ (16 ≤ s.minCount ∧ 16 ≤ s.maxCount)

/-- Not both sides are full. -/
theorem Good.lt_of_open (h : Good s samples) (hopen : Open s) (hfull : 16 ≤ (samples !b).length) :
    (samples b).length < 16 := by
  have hlow : s.minCount = min 16 (samples true).length := (h.right true).count
  have hhigh : s.maxCount = min 16 (samples false).length := (h.right false).count
  rw [Open, hlow, hhigh] at hopen
  cases b with
  | true =>
    rw [Bool.not_true] at hfull
    omega
  | false =>
    rw [Bool.not_false] at hfull
    omega

/-- The counts tell whether a sample fits. -/
theorem Good.fits_iff (h : Good s samples) :
    Fits s b ↔ (samples b).length < 16 ∧ s.rawIndex = (samples b).length ∨
      16 ≤ (samples b).length ∧ samples (!b) = [] := by
  rw [Fits, (h.right b).count, (h.right !b).count, ← length_eq_zero_iff]
  split <;> omega

/-- A fitting sample finds the ring with the samples of its side, and the other side empty, or full
before. -/
theorem Good.ring_of_fits (h : Good s samples) (hopen : Open s) (hfits : Fits s b) :
    Ring.Holds 16 s.rawBuf (samples b) ∧ s.rawIndex = (samples b).length % 16 ∧
      (samples (!b) = [] ∨ 16 ≤ (samples !b).length ∧ (samples b).length < 16) := by
  obtain ⟨last, hring, hindex, hother⟩ := h.ring
  obtain rfl | rfl := Bool.eq_or_eq_not last b
  · exact ⟨hring, hindex, hother.imp_right fun hfull => ⟨hfull.1, h.lt_of_open hopen hfull.1⟩⟩
  · rw [Bool.not_not] at hother
    obtain ⟨-, hplace⟩ | ⟨hfull, hempty⟩ := h.fits_iff.1 hfits
    · obtain hempty | ⟨hfull, hne, -⟩ := hother
      · rw [hempty] at hplace ⊢
        refine ⟨.nil hring.length, hplace, ?_⟩
        obtain hnil | hne := eq_or_ne (samples !b) []
        · exact .inl hnil
        · have := length_pos_iff.2 hne
          rw [length_nil] at hplace
          refine .inr ⟨?_, Nat.succ_pos _⟩
          omega
      · omega
    · obtain hempty' | ⟨-, hne, -⟩ := hother
      · rw [hempty', length_nil] at hfull
        omega
      · exact absurd hempty hne

/-- A sample that does not fit finds a sample of the other side in the first place of the ring. -/
theorem Good.first_of_not_fits (h : Good s samples) (hopen : Open s) (hfits : ¬ Fits s b) :
    s.rawIndex ≠ 0 ∧ ∃ x ∈ samples (!b), s.rawBuf[0]? = some x := by
  obtain ⟨last, hring, hindex, hother⟩ := h.ring
  rw [h.fits_iff] at hfits
  obtain rfl | rfl := Bool.eq_or_eq_not last b
  · have hlt : (samples last).length < 16 := by
      obtain hempty | ⟨hfull, -⟩ := hother
      · exact Nat.lt_of_not_ge fun hfull => hfits (.inr ⟨hfull, hempty⟩)
      · exact h.lt_of_open hopen hfull
    exact absurd (.inl ⟨hlt, hindex.trans (Nat.mod_eq_of_lt hlt)⟩) hfits
  · rw [Bool.not_not] at hother
    have hne : s.rawIndex ≠ 0 := by
      obtain hempty | ⟨hfull, hne, -⟩ := hother
      · rw [hempty] at hfits
        exact fun hzero => hfits (.inl ⟨Nat.succ_pos _, hzero⟩)
      · have hlt : (samples !b).length < 16 := h.lt_of_open hopen (by rwa [Bool.not_not])
        have := length_pos_iff.2 hne
        omega
    refine ⟨hne, hring.first (by decide) ?_⟩
    intro hnil
    rw [hnil] at hindex
    exact hne hindex

/-- The samples with one more of its side. -/
def add (samples : Bool → List Nat) (b : Bool) (adc : Nat) : Bool → List Nat :=
  Function.update samples b (samples b ++ [adc])

@[simp] theorem add_self : add samples b adc b = samples b ++ [adc] := Function.update_self ..

@[simp] theorem add_not : add samples b adc (!b) = samples (!b) :=
  Function.update_of_ne (Bool.not_ne_self b) ..

/-- **A fitting sample** keeps the sides apart. -/
theorem Good.record (h : Good s samples) (hopen : Open s) (hvalid : adc < 0x3FF)
    (hfits : Fits s (s.ownSide adc)) : Good (s.record adc) (add samples (s.ownSide adc) adc) := by
  have hrec := Sensor.records (s := s) hvalid
  obtain ⟨b, hb⟩ : ∃ b, s.ownSide adc = b := ⟨_, rfl⟩
  obtain ⟨hring, hindex, hother⟩ := h.ring_of_fits hopen hfits
  have hown (x : Nat) : (s.record adc).ownSide x = s.ownSide x := by
    rw [Sensor.ownSide, hrec.threshold, Sensor.ownSide]
  have hmem (b' : Bool) (x : Nat) (hx : x ∈ add samples b adc b') :
      x ∈ samples b' ∨ x = adc ∧ b' = b := by
    obtain rfl | rfl := Bool.eq_or_eq_not b' b
    · rw [add_self] at hx
      simpa using hx
    · rw [add_not] at hx
      exact .inl hx
  have hall : ∀ x ∈ samples b ++ [adc], x < 0x3FF := by
    intro x hx
    obtain hx | hx := mem_append.1 hx
    · exact h.valid b x hx
    · rwa [mem_singleton.1 hx]
  have hwrite := hring.write adc
  rw [hb] at hindex hring hother hwrite ⊢
  refine ⟨?_, ?_, ?_, ⟨b, ?_, ?_, ?_⟩⟩
  · intro b'
    obtain rfl | rfl := Bool.eq_or_eq_not b' b
    · rw [← hb, hrec.own, hb, add_self]
      exact Sensor.inserted_right (h.right b') hring hindex hall
    · rw [← hb, hrec.other, hb, add_not]
      exact h.right _
  · intro b' x hx
    obtain hx | ⟨rfl, -⟩ := hmem b' x hx
    · exact h.valid b' x hx
    · exact hvalid
  · intro b' x hx
    rw [hown]
    obtain hx | ⟨rfl, rfl⟩ := hmem b' x hx
    · exact h.own b' x hx
    · exact hb
  · rwa [add_self, hrec.rawBuf, hindex]
  · rw [add_self, hrec.rawIndex, hindex, length_append, length_singleton]
    omega
  · rw [add_self, add_not]
    refine hother.imp_right fun hfull => ⟨hfull.1, by simp, ?_⟩
    rw [length_append, length_singleton]
    exact hfull.2

/-- **A sample that does not fit** mixes them. -/
theorem Good.record_wrong (h : Good s samples) (hopen : Open s) (hvalid : adc < 0x3FF)
    (hfits : ¬ Fits s (s.ownSide adc)) :
    ¬ ((s.record adc).side (s.ownSide adc)).Right (s.ownSide adc)
      (add samples (s.ownSide adc) adc (s.ownSide adc)) := by
  obtain ⟨last, hring, -⟩ := h.ring
  obtain ⟨hindex, x, hx, hfirst⟩ := h.first_of_not_fits hopen hfits
  rw [(Sensor.records hvalid).own, add_self]
  refine Sensor.inserted_wrong hring.length (h.right _) hindex hfirst ?_
  intro hmem
  have hside : s.ownSide x = s.ownSide adc := by
    obtain hx | hx := mem_append.1 hmem
    · exact h.own _ x hx
    · rw [mem_singleton.1 hx]
  rw [h.own _ x hx] at hside
  exact Bool.not_ne_self _ hside

/-- The entries of a full side that count for the threshold are among its last 16 samples. -/
theorem middle_of_right {side : Side} {hist : List Nat} (h : side.Right b hist)
    (hfull : 16 ≤ side.count) :
    (∀ x ∈ (side.arr.drop 3).take 12, x ∈ hist.rtake 16) ∧
      ((side.arr.drop 3).take 12).length = 12 ∧ (hist.rtake 16).length = 16 := by
  have hcount : side.count = 16 := by
    have := h.count
    omega
  have hperm := h.perm
  rw [hcount] at hperm
  have hlen : (hist.rtake 16).length = 16 := by
    have := h.count
    rw [rtake, length_drop]
    omega
  have harr : 16 ≤ side.arr.length := by
    have := hperm.length_eq
    rw [length_take, hlen] at this
    omega
  refine ⟨?_, ?_, hlen⟩
  · intro x hx
    rw [take_drop] at hx
    exact hperm.subset ((take_prefix_take_left (by decide)).subset (mem_of_mem_drop hx))
  · rw [length_take, length_drop]
    omega

/-- **The threshold** of full sides that are apart lies between them. -/
theorem Good.chosen (h : Good s samples) (hlow : 16 ≤ s.minCount) (hhigh : 16 ≤ s.maxCount) :
    s.Chosen samples := by
  obtain ⟨hmin, hmin12, hmin16⟩ := middle_of_right (h.right true) hlow
  obtain ⟨hmax, hmax12, hmax16⟩ := middle_of_right (h.right false) hhigh
  have hthreshold : s.calibrate.threshold =
      (((s.d16min.drop 3).take 12).sum + ((s.d16max.drop 3).take 12).sum) / 24 := by
    rw [Sensor.calibrate, if_pos ⟨hlow, hhigh⟩]
    rfl
  obtain ⟨l, hl, hleast⟩ : ∃ l ∈ (samples true).rtake 16, ∀ x ∈ (samples true).rtake 16, l ≤ x :=
    ⟨_, min_mem (length_pos_iff.1 (by rw [hmin16]; decide)), fun _ hx => min_le_of_mem hx⟩
  obtain ⟨g, hg, hgreatest⟩ :
      ∃ g ∈ (samples false).rtake 16, ∀ x ∈ (samples false).rtake 16, x ≤ g :=
    ⟨_, max_mem (length_pos_iff.1 (by rw [hmax16]; decide)), fun _ hx => le_max_of_mem hx⟩
  have hbelow (x : Nat) (hx : x ∈ (samples true).rtake 16) : x < s.threshold :=
    of_decide_eq_true (h.own true x (mem_of_mem_drop hx))
  have habove (x : Nat) (hx : x ∈ (samples false).rtake 16) : s.threshold ≤ x :=
    Nat.le_of_not_lt (of_decide_eq_false (h.own false x (mem_of_mem_drop hx)))
  refine ⟨hmin, hmax, ⟨l, hl, ?_⟩, ⟨g, hg, ?_⟩⟩
  · have h₁ := card_nsmul_le_sum _ l fun x hx => hleast x (hmin x hx)
    have h₂ := card_nsmul_le_sum _ l fun x hx =>
      (hbelow l hl).le.trans (habove x (hmax x hx))
    rw [hmin12, nsmul_eq_mul, Nat.cast_ofNat] at h₁
    rw [hmax12, nsmul_eq_mul, Nat.cast_ofNat] at h₂
    rw [hthreshold, Nat.le_div_iff_mul_le (by decide)]
    exact (Nat.le_of_eq (by omega)).trans (Nat.add_le_add h₁ h₂)
  · have h₁ := sum_le_card_nsmul _ g fun x hx =>
      (hbelow x (hmin x hx)).le.trans (habove g hg)
    have h₂ := sum_le_card_nsmul _ g fun x hx => hgreatest x (hmax x hx)
    rw [hmin12, nsmul_eq_mul, Nat.cast_ofNat] at h₁
    rw [hmax12, nsmul_eq_mul, Nat.cast_ofNat] at h₂
    rw [hthreshold]
    exact Nat.div_le_of_le_mul ((Nat.add_le_add h₁ h₂).trans (Nat.le_of_eq (by omega)))

/-! ## Runs -/

/-- Between two samples the sides are apart, and one of them is not full. -/
structure Invariant (c : Calibration) : Prop where
  good : Good c.sensor.InitSharedGapArrays c.samples
  notFull : Open c.sensor.InitSharedGapArrays

/-- Sides without samples are apart if the ring is at its first place. -/
theorem Good.empty (hside : ∀ b, (s.side b).sum = 0 ∧ (s.side b).count = 0)
    (hlen : s.rawBuf.length = 16) (hindex : s.rawIndex = 0) : Good s fun _ => [] := by
  refine ⟨?_, fun _ => nofun, fun _ => nofun, true, .nil hlen, hindex, .inl rfl⟩
  intro b
  obtain ⟨hsum, hcount⟩ := hside b
  refine ⟨hcount, ?_, ?_, hsum⟩
  · rw [hcount]
    exact .nil
  · rw [hcount]
    exact .nil

/-- `InitSharedGapArrays` does nothing to arrays that are initialised, as it leaves them. -/
theorem init_of_inited (h : s.inited = true) : s.InitSharedGapArrays = s := by
  rw [Sensor.InitSharedGapArrays, if_neg (by rw [h]; nofun)]

theorem init_inited : s.InitSharedGapArrays.inited = true := by
  rw [Sensor.InitSharedGapArrays]
  split
  · rfl
  · next h => exact Bool.eq_true_of_not_eq_false h

theorem init_gapCalculated : s.InitSharedGapArrays.gapCalculated = s.gapCalculated := by
  rw [Sensor.InitSharedGapArrays]
  split <;> rfl

theorem init_ownSide : s.InitSharedGapArrays.ownSide adc = s.ownSide adc := by
  rw [Sensor.InitSharedGapArrays]
  split <;> rfl

/-- A side that is not empty while the other one is full has come to the end of the ring when it is
full as well. -/
theorem Good.rawIndex_of_full (h : Good s samples) (hfull : ¬ Open s) : s.rawIndex = 0 := by
  obtain ⟨last, -, hindex, hother⟩ := h.ring
  obtain ⟨hlow, hhigh⟩ := not_not.1 hfull
  have hcount (b : Bool) : 16 ≤ (samples b).length := by
    have hmin := (h.right b).count
    cases b with
    | true =>
      have : 16 ≤ (s.side true).count := hlow
      omega
    | false =>
      have : 16 ≤ (s.side false).count := hhigh
      omega
  have hlast := hcount last
  obtain hempty | ⟨-, -, hle⟩ := hother
  · have := hcount !last
    rw [hempty, length_nil] at this
    omega
  · omega

variable {c : Calibration}

/-- **One sample of a calibration**: the sides are apart after it exactly if it fits. -/
theorem Invariant.apart_iff (h : Invariant c) (e : Event) : ApartAt c e ↔ Sound c e := by
  cases e with
  | coverOpened => exact Iff.rfl
  | sample adc =>
    refine forall_congr' fun _ => ?_
    rw [← init_ownSide]
    by_cases hvalid : adc < 0x3FF
    · have htaken : c.taken adc = add c.samples (c.sensor.InitSharedGapArrays.ownSide adc) adc := by
        rw [init_ownSide]
        exact if_pos hvalid
      constructor
      · intro hapart _
        by_contra hfits
        refine h.good.record_wrong h.notFull hvalid hfits ?_
        rw [← htaken]
        exact hapart.side _
      · intro hfits
        have hgood := h.good.record h.notFull hvalid (hfits hvalid)
        rw [← htaken] at hgood
        exact ⟨hgood.right, hgood.chosen⟩
    · have htaken : c.taken adc = c.samples := if_neg hvalid
      have hrecorded : c.sensor.recorded adc = c.sensor.InitSharedGapArrays := if_neg hvalid
      refine ⟨fun _ h => absurd h hvalid, fun _ => ⟨?_, fun hlow hhigh => ?_⟩⟩
      · rw [hrecorded, htaken]
        exact h.good.right
      · rw [hrecorded] at hlow hhigh
        exact absurd ⟨hlow, hhigh⟩ h.notFull

/-- What a step of the calibration records, if its sample fits. -/
theorem Invariant.recorded (h : Invariant c) (hfits : adc < 0x3FF →
    Fits c.sensor.InitSharedGapArrays (c.sensor.ownSide adc)) :
    Good (c.sensor.recorded adc) (c.taken adc) ∧ (c.sensor.recorded adc).inited = true ∧
      (c.sensor.recorded adc).gapCalculated = c.sensor.gapCalculated := by
  by_cases hvalid : adc < 0x3FF
  · have hrec := Sensor.records (s := c.sensor.InitSharedGapArrays) hvalid
    have hgood := h.good.record h.notFull hvalid (by rw [init_ownSide]; exact hfits hvalid)
    rw [init_ownSide] at hgood
    rw [taken, if_pos hvalid]
    exact ⟨hgood, hrec.inited.trans init_inited, hrec.gapCalculated.trans init_gapCalculated⟩
  · have hrecorded : c.sensor.recorded adc = c.sensor.InitSharedGapArrays := if_neg hvalid
    rw [taken, if_neg hvalid, hrecorded]
    exact ⟨h.good, init_inited, init_gapCalculated⟩

/-- **One event** keeps the sides apart, if a sample of the calibration fits. -/
theorem Invariant.next (h : Invariant c) (e : Event) (hsound : Sound c e) :
    Invariant (c.next e) := by
  cases e with
  | coverOpened =>
    have hinit : Sensor.InitSharedGapArrays { c.sensor with gapCalculated := false } =
        { c.sensor.InitSharedGapArrays with gapCalculated := false } := by
      simp only [Sensor.InitSharedGapArrays]
      split <;> rfl
    have hgood := h.good
    refine ⟨?_, ?_⟩
    · rw [Calibration.next, hinit]
      exact ⟨hgood.right, hgood.valid, hgood.own, hgood.ring⟩
    · rw [Calibration.next, hinit]
      exact h.notFull
  | sample adc =>
    cases hcalculated : c.sensor.gapCalculated with
    | true =>
      have hsample : c.sensor.sample adc = c.sensor.InitSharedGapArrays := by
        rw [Sensor.sample, if_neg (by rw [init_gapCalculated, hcalculated]; nofun)]
      rw [Calibration.next, hsample, hcalculated, if_pos rfl]
      refine ⟨?_, ?_⟩
      · rw [init_of_inited init_inited]
        exact h.good
      · rw [init_of_inited init_inited]
        exact h.notFull
    | false =>
      obtain ⟨hgood, hinited, hgap⟩ := h.recorded (hsound hcalculated)
      have hsample : c.sensor.sample adc = (c.sensor.recorded adc).calibrate := by
        rw [Sensor.sample, if_pos (init_gapCalculated.trans hcalculated)]
        rfl
      rw [Calibration.next, hsample, hcalculated, if_neg nofun]
      by_cases hopen : Open (c.sensor.recorded adc)
      · have hsame : (c.sensor.recorded adc).calibrate = c.sensor.recorded adc := if_neg hopen
        rw [hsame, hgap, hcalculated, if_neg nofun]
        refine ⟨?_, ?_⟩
        · rw [init_of_inited hinited]
          exact hgood
        · rw [init_of_inited hinited]
          exact hopen
      · have hindex := hgood.rawIndex_of_full hopen
        obtain ⟨last, hring, -⟩ := hgood.ring
        rw [Sensor.calibrate, if_pos (not_not.1 hopen)]
        refine ⟨?_, ?_⟩
        · refine .empty ?_ hring.length hindex
          intro b
          cases b <;> exact ⟨rfl, rfl⟩
        · exact fun hfull => Nat.not_succ_le_zero 15 hfull.1

theorem Invariant.init : Invariant init where
  good := .empty (fun b => by cases b <;> exact ⟨rfl, rfl⟩) rfl rfl
  notFull := fun hfull => absurd hfull.1 (by decide)

end Calibration

/-- **Gap calibration.** In every run from boot, with any samples and cover openings, every step of
a calibration leaves each side with its own last samples, and chooses a threshold from these alone,
exactly if no sample of the run mixes the sides. -/
theorem calibration_apart_iff (events : List Calibration.Event) :
    (∀ done e, done ++ [e] <+: events → (done.foldl .next .init : Calibration).ApartAt e) ↔
      ∀ done e, done ++ [e] <+: events → (done.foldl .next .init : Calibration).Sound e :=
  Runs.foldl_iff (I := Calibration.Invariant) (fun _ e h => h.apart_iff e)
    (fun _ e h hsound => h.next e hsound) .init events

/-- A low sample, and a high one after it. -/
def interleaved : List Calibration.Event := [.sample 100, .sample 800]

/-- The high side is left with the low sample. -/
theorem interleaved_mixed :
    ¬ ((interleaved.take 1).foldl .next .init : Calibration).ApartAt (.sample 800) := by
  intro h
  have hright := (h rfl).side false
  have hperm := hright.perm
  exact absurd (hperm.subset (mem_singleton.2 rfl : 100 ∈ [100])) (by decide)

end ThermalPrinter
