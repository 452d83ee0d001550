import Mathlib.Data.List.GetD
import Mathlib.Tactic.IntervalCases

/-!
# Bitmaps as lists of bytes

A row of dots is stored eight to a byte, the leftmost dot in the highest bit. `dot` reads a dot,
`set` sets one, and `pack` makes the bytes of given dots. Two bitmaps of one length with the same
dots are the same (`ext_dot`).
-/

namespace Bitmap

variable {m m' : List UInt8} {i j k n : Nat} {dots : List Bool}

/-- The byte of eight dots, the first one in its highest bit. -/
def byte (f : Nat → Bool) : UInt8 :=
  ⟨(BitVec.ofBoolListBE ((List.range 8).map f)).cast (by simp)⟩

/-- Dot `i` of a bitmap; no dot is set outside it. -/
def dot (m : List UInt8) (i : Nat) : Bool := (m.getD (i / 8) 0).toBitVec.getMsbD (i % 8)

/-- The bitmap with dot `i` set. -/
def set (m : List UInt8) (i : Nat) : List UInt8 :=
  m.modify (i / 8) (· ||| byte fun k => k == i % 8)

/-- The `n` bytes of the given dots; those that are not given are not set. -/
def pack (n : Nat) (dots : List Bool) : List UInt8 :=
  (List.range n).map fun i => byte fun k => dots.getD (8 * i + k) false

/-- All the dots of a bitmap. -/
def allDots (m : List UInt8) : List Bool := (List.range (8 * m.length)).map (dot m)

theorem getMsbD_byte (f : Nat → Bool) (hk : k < 8) : (byte f).toBitVec.getMsbD k = f k := by
  unfold byte
  rw [BitVec.getMsbD_cast, BitVec.getMsbD_ofBoolListBE, List.getD_eq_getElem?_getD,
    List.getElem?_map, List.getElem?_range hk, Option.map_some, Option.getD_some]

@[simp] theorem length_set : (set m i).length = m.length := List.length_modify ..

@[simp] theorem length_pack : (pack n dots).length = n := by simp [pack]

/-- Or-ing a byte into the bitmap sets its dots and leaves the others alone. -/
theorem dot_modify_or {v : UInt8} (hi : i < m.length) :
    dot (m.modify i (· ||| v)) j = (dot m j || (j / 8 == i && v.toBitVec.getMsbD (j % 8))) := by
  unfold dot
  rw [List.getD_eq_getElem?_getD, List.getElem?_modify, List.getD_eq_getElem?_getD]
  by_cases hsame : i = j / 8
  · subst hsame
    simp only [if_true]
    rw [List.getElem?_eq_getElem hi]
    simp only [Option.map_eq_map, Option.map_some, Option.getD_some, UInt8.toBitVec_or,
      BitVec.getMsbD_or, beq_self_eq_true, Bool.true_and]
  · have hne : (j / 8 == i) = false := beq_eq_false_iff_ne.2 fun h => hsame h.symm
    simp [if_neg hsame, hne]

/-- Setting a dot leaves the others alone. -/
theorem dot_set (hi : i < 8 * m.length) : dot (set m i) j = (j == i || dot m j) := by
  have hdot : (j / 8 == i / 8 && j % 8 == i % 8) = (j == i) := by
    rw [Bool.eq_iff_iff, Bool.and_eq_true, beq_iff_eq, beq_iff_eq, beq_iff_eq]
    omega
  rw [set, dot_modify_or (by omega), getMsbD_byte _ (Nat.mod_lt _ (by decide)), hdot, Bool.or_comm]

theorem dot_pack (hi : i < 8 * n) : dot (pack n dots) i = dots.getD i false := by
  have hbyte : i / 8 < n := by omega
  unfold dot pack
  rw [List.getD_eq_getElem?_getD, List.getElem?_map, List.getElem?_range hbyte, Option.map_some,
    Option.getD_some, getMsbD_byte _ (Nat.mod_lt _ (by decide)), Nat.div_add_mod]

theorem dot_take (hi : i < 8 * n) : dot (m.take n) i = dot m i := by
  unfold dot
  rw [List.getD_eq_getElem?_getD, List.getElem?_take_of_lt (by omega),
    List.getD_eq_getElem?_getD]

theorem dot_drop : dot (m.drop i) j = dot m (8 * i + j) := by
  unfold dot
  rw [List.getD_eq_getElem?_getD, List.getD_eq_getElem?_getD, List.getElem?_drop,
    Nat.mul_add_div (by decide), Nat.mul_add_mod]

/-- The dots of a byte come before those of the others. -/
theorem allDots_cons (v : UInt8) :
    allDots (v :: m) = (List.range 8).map v.toBitVec.getMsbD ++ allDots m := by
  unfold allDots
  rw [List.length_cons, Nat.mul_succ, Nat.add_comm, List.range_add, List.map_append, List.map_map]
  refine congrArg₂ _ (List.map_congr_left fun i hi => ?_) (List.map_congr_left fun i _ => ?_)
  · have hlt := List.mem_range.1 hi
    rw [dot, Nat.div_eq_of_lt hlt, Nat.mod_eq_of_lt hlt]
    rfl
  · rw [Function.comp_apply, ← Nat.mul_one 8, ← dot_drop, List.drop_one, List.tail_cons]

theorem dot_replicate_append (hi : i < 8 * n) : dot (List.replicate n 0 ++ m) i = false := by
  have hbyte : i / 8 < n := by omega
  unfold dot
  rw [List.getD_append _ _ _ _ (by rwa [List.length_replicate]), List.getD_replicate _ hbyte]
  exact BitVec.getMsbD_zero

/-- **Two bitmaps with the same dots are the same.** -/
theorem ext_dot (hlen : m.length = m'.length) (h : ∀ i < 8 * m.length, dot m i = dot m' i) :
    m = m' := by
  refine List.ext_getElem hlen ?_
  intro i h₁ h₂
  refine UInt8.toBitVec_inj.1 (BitVec.eq_of_getMsbD_eq ?_)
  intro k hk
  have hdot := h (8 * i + k) (by omega)
  unfold dot at hdot
  rw [Nat.mul_add_div (by decide), Nat.div_eq_of_lt hk, Nat.add_zero, Nat.mul_add_mod,
    Nat.mod_eq_of_lt hk, List.getD_eq_getElem _ _ h₁, List.getD_eq_getElem _ _ h₂] at hdot
  exact hdot

/-! ## Nibbles -/

/-- The nibble `v` as the four dots from dot `4 * q` on. -/
def nibble (q : Nat) (v : UInt8) : UInt8 := if q % 2 = 0 then v <<< 4 else v &&& 0x0f

/-- The bitmap with a nibble or-ed into it. -/
def orNibble (m : List UInt8) (q : Nat) (v : UInt8) : List UInt8 :=
  m.modify (q / 2) (· ||| nibble q v)

@[simp] theorem length_orNibble {q : Nat} {v : UInt8} : (orNibble m q v).length = m.length :=
  List.length_modify ..

theorem getMsbD_nibble {q : Nat} {v : UInt8} (hk : k < 8) :
    (nibble q v).toBitVec.getMsbD k = (k / 4 == q % 2 && v.toBitVec.getMsbD (4 + k % 4)) := by
  have hhalf : k / 4 = 0 ∧ 4 + k % 4 = k + 4 ∨ k / 4 = 1 ∧ 4 + k % 4 = k := by omega
  unfold nibble
  obtain heven | hodd := Nat.mod_two_eq_zero_or_one q
  · have hshift : (v <<< 4).toBitVec.getMsbD k = v.toBitVec.getMsbD (k + 4) :=
      BitVec.getMsbD_shiftLeft v.toBitVec 4
    rw [if_pos heven, heven, hshift]
    obtain ⟨hhigh, hdot⟩ | ⟨hlow, -⟩ := hhalf
    · rw [hhigh, hdot, beq_self_eq_true, Bool.true_and]
    · rw [hlow, BitVec.getMsbD_of_ge _ _ (by omega)]
      rfl
  · have hmask : (0x0f : UInt8).toBitVec.getMsbD k = (k / 4 == 1) := by interval_cases k <;> rfl
    rw [if_neg (by omega), hodd, UInt8.toBitVec_and, BitVec.getMsbD_and, hmask, Bool.and_comm]
    obtain ⟨hhigh, -⟩ | ⟨-, hdot⟩ := hhalf
    · rw [hhigh]
      rfl
    · rw [hdot]

/-- Or-ing a nibble into the bitmap sets its dots and leaves the others alone. -/
theorem dot_orNibble {q : Nat} {v : UInt8} (hq : q < 2 * m.length) :
    dot (orNibble m q v) j =
      (dot m j || (j / 4 == q && v.toBitVec.getMsbD (4 + j % 4))) := by
  have hplace : (j / 8 == q / 2 && j % 8 / 4 == q % 2) = (j / 4 == q) := by
    rw [Bool.eq_iff_iff, Bool.and_eq_true, beq_iff_eq, beq_iff_eq, beq_iff_eq]
    omega
  rw [orNibble, dot_modify_or (by omega), getMsbD_nibble (Nat.mod_lt _ (by decide)),
    ← Bool.and_assoc, hplace, Nat.mod_mod_of_dvd _ (by decide)]

/-! ## Drawing -/

/-- The second bitmap is the first one with the dots of `ink` set as well. -/
structure Inked (m m' : List UInt8) (ink : Nat → Bool) : Prop where
  length : m'.length = m.length
  dot : ∀ j, dot m' j = (dot m j || ink j)

variable {m'' : List UInt8} {ink ink' : Nat → Bool}

theorem Inked.trans (h : Inked m m' ink) (h' : Inked m' m'' ink') :
    Inked m m'' fun j => ink j || ink' j :=
  ⟨h'.length.trans h.length, fun j => by rw [h'.dot, h.dot, Bool.or_assoc]⟩

/-- Only the dots that are set count. -/
theorem Inked.congr (h : Inked m m' ink) (heq : ∀ j, ink j = ink' j) : Inked m m' ink' :=
  ⟨h.length, fun j => by rw [h.dot, heq]⟩

theorem inked_orNibble {q : Nat} {v : UInt8} (hq : q < 2 * m.length) :
    Inked m (orNibble m q v) fun j => j / 4 == q && v.toBitVec.getMsbD (4 + j % 4) :=
  ⟨length_orNibble, fun _ => dot_orNibble hq⟩

/-- What is drawn piece by piece. -/
theorem Inked.foldl {σ α : Type*} (bitmap : σ → List UInt8) {f : σ → α → σ}
    {ink : α → Nat → Bool} {as : List α} {s : σ}
    (hf : ∀ t, (bitmap t).length = (bitmap s).length → ∀ a ∈ as,
      Inked (bitmap t) (bitmap (f t a)) (ink a)) :
    Inked (bitmap s) (bitmap (as.foldl f s)) fun j => as.any (ink · j) := by
  suffices h : ∀ (bs : List α) (t : σ), (∀ a ∈ bs, a ∈ as) →
      (bitmap t).length = (bitmap s).length →
      Inked (bitmap t) (bitmap (bs.foldl f t)) fun j => bs.any (ink · j) from
    h as s (fun _ => id) rfl
  intro bs
  induction bs with
  | nil => exact fun t _ _ => ⟨rfl, fun j => (Bool.or_false _).symm⟩
  | cons a bs ih =>
    intro t hmem hlen
    have hfirst := hf t hlen a (hmem a (.head _))
    have hrest := ih (f t a) (fun b hb => hmem b (.tail _ hb)) (hfirst.length.trans hlen)
    exact (hfirst.trans hrest).congr fun j => by rw [List.any_cons]

end Bitmap
