import Mathlib.Data.List.TakeDrop
import Mathlib.Tactic.Common

/-!
# A shift register with a latch

A serial receiver has a clock pin, a data pin and a latch pin. At a rising edge of the clock the
data is shifted in, and while the latch is low the outputs follow the register. A waveform is the
levels of the pins after each change.

Words that are shifted in behind a raised latch, each before a pulse of the latch, come out one
after another, and at no moment does anything else come out (`Transfers.shown`).
-/

namespace ShiftRegister

variable {α : Type*}

/-- Each entry of the first list is repeated in the second, once or more. -/
inductive Stretches : List α → List α → Prop
  | nil : Stretches [] []
  | next {x : α} {xs ys : List α} : Stretches xs ys → Stretches (x :: xs) (x :: ys)
  | stay {x : α} {xs ys : List α} : Stretches (x :: xs) ys → Stretches (x :: xs) (x :: ys)

theorem Stretches.replicate {x : α} {xs ys : List α} (h : Stretches (x :: xs) (x :: ys)) (n : Nat) :
    Stretches (x :: xs) (x :: (List.replicate n x ++ ys)) := by
  induction n with
  | zero => exact h
  | succ n ih => exact .stay ih

/-- The levels of the three pins. -/
structure Pins where
  latch : Bool
  clk : Bool
  data : Bool
  deriving DecidableEq, Repr

/-- The bits in the register, the oldest one first, and the outputs. -/
structure Register where
  bits : List Bool
  outputs : List Bool
  deriving DecidableEq, Repr

/-- The clock rises. -/
def Rises (p p' : Pins) : Prop := p.clk = false ∧ p'.clk = true

instance (p p' : Pins) : Decidable (Rises p p') := by unfold Rises; infer_instance

theorem not_rises {p : Pins} : ¬ Rises p p := by
  rintro ⟨hlow, hhigh⟩
  rw [hlow] at hhigh
  exact Bool.false_ne_true hhigh

namespace Register

/-- The bits after some more have been shifted in. -/
def shift (r : Register) (bits : List Bool) : List Bool := (r.bits ++ bits).drop bits.length

/-- The pins change. -/
def see (r : Register) (p p' : Pins) : Register :=
  let bits := if Rises p p' then r.shift [p'.data] else r.bits
  { bits := bits, outputs := if p'.latch then r.outputs else bits }

/-- The register after a waveform. -/
def run (r : Register) (p : Pins) : List Pins → Register
  | [] => r
  | p' :: wave => (r.see p p').run p' wave

/-- The outputs after each change of the pins. -/
def shown (r : Register) (p : Pins) : List Pins → List (List Bool)
  | [] => []
  | p' :: wave => (r.see p p').outputs :: (r.see p p').shown p' wave

end Register

variable {r : Register} {p p' p₁ : Pins} {wave wave₁ : List Pins} {bits : List Bool}
  {words : List (List Bool)}

/-- A waveform shifts bits in behind a raised latch. -/
inductive Shifts : Pins → List Pins → List Bool → Pins → Prop
  | nil {p : Pins} : Shifts p [] [] p
  | still {p p₁ p' : Pins} {wave : List Pins} {bits : List Bool} : p₁.latch = true →
      ¬ Rises p p₁ → Shifts p₁ wave bits p' → Shifts p (p₁ :: wave) bits p'
  | edge {p p₁ p' : Pins} {wave : List Pins} {bits : List Bool} : p₁.latch = true →
      Rises p p₁ → Shifts p₁ wave bits p' → Shifts p (p₁ :: wave) (p₁.data :: bits) p'

/-- The clock does not rise during a waveform; `low` says whether the latch is low at some
moment. -/
inductive Rests : Pins → List Pins → Bool → Pins → Prop
  | nil {p : Pins} : Rests p [] false p
  | high {p p₁ p' : Pins} {wave : List Pins} {low : Bool} : p₁.latch = true →
      ¬ Rises p p₁ → Rests p₁ wave low p' → Rests p (p₁ :: wave) low p'
  | low {p p₁ p' : Pins} {wave : List Pins} {low : Bool} : p₁.latch = false →
      ¬ Rises p p₁ → Rests p₁ wave low p' → Rests p (p₁ :: wave) true p'

/-- A word is shifted in, and then the latch is pulsed. -/
def Transfer (p : Pins) (wave : List Pins) (bits : List Bool) (p' : Pins) : Prop :=
  ∃ p₁ wave₁ wave₂, wave = wave₁ ++ wave₂ ∧ Shifts p wave₁ bits p₁ ∧ Rests p₁ wave₂ true p'

/-- Words are transferred one after another, and then nothing is shifted in. -/
inductive Transfers : Pins → List Pins → List (List Bool) → Pins → Prop
  | nil {p p' : Pins} {wave : List Pins} : Shifts p wave [] p' → Transfers p wave [] p'
  | cons {p p₁ p' : Pins} {wave wave₁ : List Pins} {bits : List Bool} {words : List (List Bool)} :
      Transfer p wave bits p₁ → Transfers p₁ wave₁ words p' →
      Transfers p (wave ++ wave₁) (bits :: words) p'

/-! ## What the register sees -/

namespace Register

theorem length_shift : (r.shift bits).length = r.bits.length := by simp [shift]

/-- A register of as many bits as the word holds the word; of more bits, its last ones. -/
theorem shift_eq (h : r.bits.length ≤ bits.length) :
    r.shift bits = bits.drop (bits.length - r.bits.length) := by
  rw [shift, List.drop_append, List.drop_eq_nil_of_le h, List.nil_append]

theorem shift_cons {b : Bool} {outputs : List Bool} :
    Register.shift ⟨r.shift [b], outputs⟩ bits = r.shift (b :: bits) := by
  have hlen : 1 ≤ (r.bits ++ [b]).length := by simp
  simp only [shift, List.length_cons, List.length_nil]
  rw [Nat.zero_add, ← List.drop_append_of_le_length hlen, List.drop_drop, List.append_assoc,
    List.singleton_append, Nat.add_comm]

theorem see_of_not_rises (h : ¬ Rises p p') :
    r.see p p' = { r with outputs := if p'.latch then r.outputs else r.bits } := by
  rw [see, if_neg h]

end Register

/-- Bits are shifted in unseen. -/
theorem Shifts.run (h : Shifts p wave bits p') :
    r.run p wave = { r with bits := r.shift bits } ∧
      r.shown p wave = List.replicate wave.length r.outputs := by
  induction h generalizing r with
  | nil => exact ⟨by simp [Register.run, Register.shift], rfl⟩
  | still hlatch hrise _ ih =>
    obtain ⟨hrun, hshown⟩ := ih (r := r)
    simp only [Register.run, Register.shown, Register.see_of_not_rises hrise, hlatch, if_true]
    exact ⟨hrun, by rw [hshown]; rfl⟩
  | @edge p p₁ p' wave bits hlatch hrise _ ih =>
    have hsee : r.see p p₁ = { r with bits := r.shift [p₁.data] } := by
      rw [Register.see, if_pos hrise, hlatch, if_pos rfl]
    obtain ⟨hrun, hshown⟩ := ih (r := r.see p p₁)
    rw [hsee] at hrun hshown
    simp only [Register.run, Register.shown, hsee]
    exact ⟨by rw [hrun, Register.shift_cons], by rw [hshown]; rfl⟩

/-- While the clock rests the register keeps its bits, and a low latch shows them. -/
theorem Rests.run {low : Bool} (h : Rests p wave low p') :
    r.run p wave = { r with outputs := if low then r.bits else r.outputs } ∧
      ∃ m n, r.shown p wave = List.replicate m r.outputs ++ List.replicate n r.bits ∧
        (low = true → 0 < n) := by
  induction h generalizing r with
  | nil => exact ⟨rfl, 0, 0, rfl, nofun⟩
  | high hlatch hrise _ ih =>
    obtain ⟨hrun, m, n, hshown, hn⟩ := ih (r := r)
    simp only [Register.run, Register.shown, Register.see_of_not_rises hrise, hlatch, if_true]
    exact ⟨hrun, m + 1, n, by rw [hshown]; rfl, hn⟩
  | @low p p₁ p' wave low hlatch hrise _ ih =>
    have hsee : r.see p p₁ = { r with outputs := r.bits } := by
      rw [Register.see_of_not_rises hrise, hlatch, if_neg Bool.false_ne_true]
    obtain ⟨hrun, m, n, hshown, -⟩ := ih (r := { r with outputs := r.bits })
    simp only [Register.run, Register.shown, hsee]
    refine ⟨by rw [hrun]; simp, 0, m + n + 1, ?_, fun _ => Nat.succ_pos _⟩
    rw [hshown, List.replicate_append_replicate]
    rfl

theorem run_append : r.run p (wave ++ wave₁) = (r.run p wave).run (wave.getLastD p) wave₁ := by
  induction wave generalizing r p with
  | nil => rfl
  | cons p₁ wave ih =>
    rw [List.cons_append, Register.run, ih, Register.run, List.getLastD_cons]

theorem shown_append : r.shown p (wave ++ wave₁) =
    r.shown p wave ++ (r.run p wave).shown (wave.getLastD p) wave₁ := by
  induction wave generalizing r p with
  | nil => rfl
  | cons p₁ wave ih =>
    rw [List.cons_append, Register.shown, ih, Register.shown, Register.run, List.getLastD_cons,
      List.cons_append]

theorem Shifts.last (h : Shifts p wave bits p') : wave.getLastD p = p' := by
  induction h with
  | nil => rfl
  | still _ _ _ ih | edge _ _ _ ih => rw [List.getLastD_cons, ih]

theorem Rests.last {low : Bool} (h : Rests p wave low p') : wave.getLastD p = p' := by
  induction h with
  | nil => rfl
  | high _ _ _ ih | low _ _ _ ih => rw [List.getLastD_cons, ih]

theorem getLastD_append : (wave ++ wave₁).getLastD p = wave₁.getLastD (wave.getLastD p) := by
  induction wave generalizing p with
  | nil => rfl
  | cons p₁ wave ih => rw [List.cons_append, List.getLastD_cons, ih, List.getLastD_cons]

/-- A transferred word comes out, and nothing else does. -/
theorem Transfer.run (h : Transfer p wave bits p') :
    wave.getLastD p = p' ∧ r.run p wave = ⟨r.shift bits, r.shift bits⟩ ∧
      ∃ m n, r.shown p wave =
        List.replicate m r.outputs ++ List.replicate (n + 1) (r.shift bits) := by
  obtain ⟨p₁, wave₁, wave₂, rfl, hshifts, hrests⟩ := h
  obtain ⟨hrun₁, hshown₁⟩ := hshifts.run (r := r)
  obtain ⟨hrun₂, m, n, hshown₂, hn⟩ := hrests.run (r := { r with bits := r.shift bits })
  refine ⟨by rw [getLastD_append, hshifts.last, hrests.last], ?_, wave₁.length + m, n - 1, ?_⟩
  · rw [run_append, hshifts.last, hrun₁, hrun₂, if_pos rfl]
  · rw [shown_append, hshifts.last, hrun₁, hshown₁, hshown₂, ← List.append_assoc,
      List.replicate_append_replicate, Nat.sub_add_cancel (hn rfl)]

/-- **The transferred words come out in order, and nothing else does.** -/
theorem Transfers.shown {n : Nat} (h : Transfers p wave words p')
    (hwords : ∀ bits ∈ words, n ≤ bits.length) (hlen : r.bits.length = n) :
    Stretches (r.outputs :: words.map fun bits => bits.drop (bits.length - n))
      (r.outputs :: r.shown p wave) := by
  induction h generalizing r with
  | nil hshifts =>
    rw [hshifts.run.2, ← List.append_nil (List.replicate _ _)]
    exact .replicate (.next .nil) _
  | @cons p p₁ p' wave wave₁ bits words htransfer _ ih =>
    obtain ⟨hlast, hrun, m, k, hshown⟩ := htransfer.run (r := r)
    have hword : r.shift bits = bits.drop (bits.length - n) := by
      rw [Register.shift_eq (hlen ▸ hwords bits (List.mem_cons_self ..)), hlen]
    have hrest := ih (r := ⟨r.shift bits, r.shift bits⟩)
      (fun bits hm => hwords bits (List.mem_cons_of_mem _ hm)) (Register.length_shift.trans hlen)
    rw [shown_append, hlast, hrun, hshown, List.map_cons, ← hword, List.append_assoc,
      List.replicate_succ, List.cons_append]
    exact .replicate (.next (hrest.replicate k)) m

end ShiftRegister
