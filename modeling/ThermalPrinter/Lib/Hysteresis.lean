import Mathlib.Algebra.Ring.Nat
import Mathlib.Data.List.Basic
import Mathlib.Tactic.Common

/-!
# A counter with two thresholds

A noisy signal is followed by a counter that goes up at a sample that is on and down at one that is
off, between 0 and `cap`. It switches on where the counter comes to `rise`, and off where the
counter comes to `fall`. So it switches at fixed distances from the ends of a pulse (`makes_pulse`),
and a signal made of pulses that are long enough is followed pulse by pulse (`makes_pulses`).
-/

namespace Hysteresis

/-- The counter, and whether it is switched on. -/
structure Counter where
  count : Nat
  on : Bool
  deriving DecidableEq, Repr

/-- A switch: the number of its sample, the sample, and whether it is switched on. -/
structure Switch where
  time : Nat
  sample : Bool
  on : Bool
  deriving DecidableEq, Repr

section

variable (cap rise fall : Nat)

/-- A sample. -/
def next (s : Counter) (b : Bool) : Counter :=
  let count := if b then min (s.count + 1) cap else s.count - 1
  { count := count, on := if s.on then count ≠ fall else count = rise }

/-- The counter after some samples. -/
def run (s : Counter) (samples : List Bool) : Counter := samples.foldl (next cap rise fall) s

/-- The switches at some samples, of which the first one has number `t + 1`. -/
def switches (s : Counter) (t : Nat) : List Bool → List Switch
  | [] => []
  | b :: samples =>
    (if (next cap rise fall s b).on ≠ s.on then [⟨t + 1, b, (next cap rise fall s b).on⟩]
      else []) ++ switches (next cap rise fall s b) (t + 1) samples

/-- The samples of a pulse: `on` ones and `off` others. -/
def pulse (p : Nat × Nat) : List Bool := List.replicate p.1 true ++ List.replicate p.2 false

/-- A pulse is long enough to be switched on, and its pause to empty the counter. -/
def Clear (p : Nat × Nat) : Prop := rise ≤ p.1 ∧ min p.1 cap ≤ p.2

instance : DecidablePred (Clear cap rise) := fun p =>
  inferInstanceAs (Decidable (rise ≤ p.1 ∧ min p.1 cap ≤ p.2))

/-- Where pulses are switched on and off. -/
def switchesOf (t : Nat) : List (Nat × Nat) → List Switch
  | [] => []
  | p :: pulses =>
    ⟨t + rise, true, true⟩ :: ⟨t + p.1 + (min p.1 cap - fall), false, false⟩ ::
      switchesOf (t + (p.1 + p.2)) pulses

end

section

variable {cap rise fall : Nat} {s : Counter} {t n count : Nat} {b on : Bool}
  {samples samples' : List Bool}

/-- The samples make the switches, and leave the counter in a state. -/
def Makes (cap rise fall : Nat) (s : Counter) (t : Nat) (samples : List Bool)
    (made : List Switch) (s' : Counter) : Prop :=
  switches cap rise fall s t samples = made ∧ run cap rise fall s samples = s'

theorem Makes.append {s₁ s' : Counter} {made made' : List Switch} {n : Nat}
    (h : Makes cap rise fall s t samples made s₁) (hn : samples.length = n)
    (h' : Makes cap rise fall s₁ (t + n) samples' made' s') :
    Makes cap rise fall s t (samples ++ samples') (made ++ made') s' := by
  obtain ⟨rfl, rfl⟩ := h
  obtain ⟨rfl, rfl⟩ := h'
  subst hn
  refine ⟨?_, List.foldl_append⟩
  induction samples generalizing s t with
  | nil => rfl
  | cons b samples ih =>
    rw [List.cons_append, switches, switches, ih, List.append_assoc, List.length_cons, run, run,
      List.foldl_cons, Nat.add_assoc, Nat.add_comm 1]

/-- The counter after some equal samples. -/
def level (cap : Nat) (b : Bool) (count n : Nat) : Nat :=
  if b then min (count + n) cap else count - n

/-- The count at which the counter is switched over. -/
def threshold (rise fall : Nat) (on : Bool) : Nat := if on then fall else rise

theorem level_add (i j : Nat) :
    level cap b (level cap b count i) j = level cap b count (i + j) := by
  cases b with
  | false => exact Nat.sub_sub ..
  | true => simp only [level, if_true]; omega

theorem level_le (hcap : count ≤ cap) (i : Nat) : level cap b count i ≤ cap := by
  cases b with
  | false => exact Nat.le_trans (Nat.sub_le ..) hcap
  | true => exact Nat.min_le_right ..

/-- A sample brings the counter to its next level, and switches it over at the threshold. -/
theorem next_eq : next cap rise fall ⟨count, on⟩ b =
    ⟨level cap b count 1, if level cap b count 1 = threshold rise fall on then !on else on⟩ := by
  cases on <;> cases b <;> simp only [next, level, threshold] <;> split <;> simp_all

end

section

variable {cap rise fall count : Nat} (t : Nat) {n : Nat} {b : Bool} {on : Bool}

/-- Equal samples on which the counter does not come to its threshold leave the switch alone. -/
theorem quiet (hcap : count ≤ cap)
    (h : ∀ i, 1 ≤ i → i ≤ n → level cap b count i ≠ threshold rise fall on) :
    Makes cap rise fall ⟨count, on⟩ t (List.replicate n b) [] ⟨level cap b count n, on⟩ := by
  induction n generalizing count t with
  | zero =>
    refine ⟨rfl, ?_⟩
    cases b <;> simp [run, level, hcap]
  | succ n ih =>
    have hnext : next cap rise fall ⟨count, on⟩ b = ⟨level cap b count 1, on⟩ := by
      rw [next_eq, if_neg (h 1 (Nat.le_refl _) (Nat.succ_pos n))]
    obtain ⟨hswitches, hrun⟩ := ih (t + 1) (level_le hcap 1) fun i h₁ hn => by
      rw [level_add]
      exact h (1 + i) (by omega) (by omega)
    unfold Makes
    rw [List.replicate_succ, switches, hnext, hswitches, run, List.foldl_cons, hnext]
    exact ⟨by simp, hrun.trans (by rw [level_add, Nat.add_comm])⟩

/-- The sample on which the counter comes to its threshold switches it over. -/
theorem switch (h : level cap b count 1 = threshold rise fall on) :
    Makes cap rise fall ⟨count, on⟩ t [b] [⟨t + 1, b, !on⟩] ⟨level cap b count 1, !on⟩ := by
  have hnext : next cap rise fall ⟨count, on⟩ b = ⟨level cap b count 1, !on⟩ := by
    rw [next_eq, if_pos h]
  unfold Makes
  rw [switches, hnext, switches, run, List.foldl_cons, hnext]
  exact ⟨by cases on <;> rfl, rfl⟩

/-- Equal samples on which the counter comes to its threshold once, at the `i`-th one, and does not
come to the other threshold after that. -/
theorem crosses {i : Nat} (hcap : count ≤ cap) (hi : 1 ≤ i) (hn : i ≤ n)
    (hbefore : ∀ j, 1 ≤ j → j < i → level cap b count j ≠ threshold rise fall on)
    (hthere : level cap b count i = threshold rise fall on)
    (hafter : ∀ j, i < j → j ≤ n → level cap b count j ≠ threshold rise fall (!on)) :
    Makes cap rise fall ⟨count, on⟩ t (List.replicate n b) [⟨t + i, b, !on⟩]
      ⟨level cap b count n, !on⟩ := by
  obtain ⟨i, rfl⟩ : ∃ i', i = i' + 1 := ⟨i - 1, by omega⟩
  have hquiet : Makes cap rise fall ⟨count, on⟩ t (List.replicate i b) []
      ⟨level cap b count i, on⟩ := quiet t hcap fun j h₁ hj => hbefore j h₁ (by omega)
  have hswitch : Makes cap rise fall ⟨level cap b count i, on⟩ (t + i) [b] [⟨t + i + 1, b, !on⟩]
      ⟨level cap b count (i + 1), !on⟩ := by
    rw [← level_add i 1]
    exact switch (t + i) (by rwa [level_add])
  have hrest : Makes cap rise fall ⟨level cap b count (i + 1), !on⟩ (t + i + 1)
      (List.replicate (n - (i + 1)) b) []
      ⟨level cap b (level cap b count (i + 1)) (n - (i + 1)), !on⟩ := by
    refine quiet (t + i + 1) (level_le hcap (i + 1)) fun j h₁ hj => ?_
    rw [level_add]
    exact hafter (i + 1 + j) (by omega) (by omega)
  rw [level_add, Nat.add_sub_cancel' hn] at hrest
  have hmade := hquiet.append List.length_replicate (hswitch.append rfl hrest)
  rwa [← List.replicate_one, List.replicate_append_replicate, List.replicate_append_replicate,
    show i + (1 + (n - (i + 1))) = n by omega] at hmade

/-- **A pulse is switched on `rise` samples after its beginning**, and off where the counter comes
down to `fall`. -/
theorem makes_pulse {p : Nat × Nat} (hfall : 0 < fall) (hrise : fall < rise) (hcap : rise ≤ cap)
    (hp : Clear cap rise p) :
    Makes cap rise fall ⟨0, false⟩ t (pulse p)
      [⟨t + rise, true, true⟩, ⟨t + p.1 + (min p.1 cap - fall), false, false⟩] ⟨0, false⟩ := by
  obtain ⟨g, l⟩ := p
  obtain ⟨hg, hl⟩ : rise ≤ g ∧ min g cap ≤ l := hp
  have hup : Makes cap rise fall ⟨0, false⟩ t (List.replicate g true) [⟨t + rise, true, true⟩]
      ⟨level cap true 0 g, true⟩ := by
    refine crosses t (Nat.zero_le cap) (by omega) hg (fun j h₁ hj => ?_) ?_ fun j hj hn => ?_ <;>
      simp [level, threshold] <;> omega
  have hdown : Makes cap rise fall ⟨level cap true 0 g, true⟩ (t + g) (List.replicate l false)
      [⟨t + g + (min g cap - fall), false, false⟩]
      ⟨level cap false (level cap true 0 g) l, false⟩ := by
    refine crosses (t + g) (level_le (Nat.zero_le cap) g) (by omega) (by omega)
      (fun j h₁ hj => ?_) ?_ fun j hj hn => ?_ <;>
      simp [level, threshold] <;> omega
  rw [show level cap false (level cap true 0 g) l = 0 by simp [level]; omega] at hdown
  exact hup.append List.length_replicate hdown

/-- **Pulses are followed one by one.** -/
theorem makes_pulses {pulses : List (Nat × Nat)} (hfall : 0 < fall) (hrise : fall < rise)
    (hcap : rise ≤ cap) (hpulses : ∀ p ∈ pulses, Clear cap rise p) :
    Makes cap rise fall ⟨0, false⟩ t (pulses.flatMap pulse) (switchesOf cap rise fall t pulses)
      ⟨0, false⟩ := by
  induction pulses generalizing t with
  | nil => exact ⟨rfl, rfl⟩
  | cons p pulses ih =>
    obtain ⟨hp, hrest⟩ := List.forall_mem_cons.1 hpulses
    have hlen : (pulse p).length = p.1 + p.2 := by simp [pulse]
    rw [List.flatMap_cons, switchesOf]
    exact (makes_pulse t hfall hrise hcap hp).append hlen (ih _ hrest)

/-- Samples that are off leave the empty counter alone. -/
theorem makes_rest (hrise : 0 < rise) (n : Nat) :
    Makes cap rise fall ⟨0, false⟩ t (List.replicate n false) [] ⟨0, false⟩ := by
  have hquiet : Makes cap rise fall ⟨0, false⟩ t (List.replicate n false) []
      ⟨level cap false 0 n, false⟩ := by
    refine quiet t (Nat.zero_le cap) fun i _ _ => ?_
    simp [level, threshold]
    omega
  rwa [show level cap false 0 n = 0 by simp [level]] at hquiet

theorem length_pulses (pulses : List (Nat × Nat)) :
    (pulses.flatMap pulse).length = (pulses.map fun p => p.1 + p.2).sum := by
  simp [List.length_flatMap, pulse]

end

end Hysteresis
