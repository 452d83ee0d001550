import Mathlib.Data.List.Basic
import Mathlib.Order.CompletePartialOrder
import Mathlib.Order.Interval.Set.Disjoint

/-!
# Pools

A pool gives out blocks of memory one behind the other, each at the next aligned place, and takes
them back all at once. A request that does not fit behind the blocks given out is refused. The
blocks of a pool are aligned, inside it, and disjoint (`Packed.alloc`).
-/

namespace Pool

variable {align limit free n m : Nat} {blocks : List (Nat × Nat)}

/-- A block: where it begins and how many bytes it has. -/
structure Block where
  start : Nat
  length : Nat
  deriving DecidableEq, Repr

/-- The places of a block. -/
def Block.bytes (b : Block) : Set Nat := Set.Ico b.start (b.start + b.length)

/-- Two blocks one behind the other are disjoint. -/
theorem Block.disjoint_of_le {b b' : Block} (h : b.start + b.length ≤ b'.start) :
    Disjoint b.bytes b'.bytes :=
  Set.Ico_disjoint_Ico.2 (by omega)

/-- The next aligned place. -/
def roundUp (align n : Nat) : Nat := (n + (align - 1)) / align * align

theorem dvd_roundUp (align n : Nat) : align ∣ roundUp align n := Nat.dvd_mul_left ..

theorem le_roundUp (halign : 0 < align) : n ≤ roundUp align n := by
  have hdiv := Nat.div_add_mod (n + (align - 1)) align
  have hmod := Nat.mod_lt (n + (align - 1)) halign
  rw [roundUp, Nat.mul_comm]
  omega

/-- No aligned place lies between. -/
theorem roundUp_le (halign : 0 < align) (hdvd : align ∣ m) (hle : n ≤ m) : roundUp align n ≤ m := by
  obtain ⟨k, rfl⟩ := hdvd
  rw [roundUp, Nat.mul_comm]
  refine Nat.mul_le_mul_left align (Nat.lt_succ_iff.1 ?_)
  rw [Nat.div_lt_iff_lt_mul halign, Nat.succ_mul, Nat.mul_comm k]
  omega

/-- A request for `n` bytes of a pool that is free from a place on: the block, if it fits, and the
place from which the pool is then free. -/
def alloc (align limit free n : Nat) : Option Block × Nat :=
  if roundUp align free + n ≤ limit then
    (some ⟨roundUp align free, n⟩, roundUp align free + n)
  else (none, roundUp align free)

/-- The blocks given out of a pool that is free from a place on. -/
structure Packed (align limit free : Nat) (blocks : List Block) : Prop where
  free_le : free ≤ limit
  aligned : ∀ b ∈ blocks, align ∣ b.start
  below : ∀ b ∈ blocks, b.start + b.length ≤ free
  disjoint : blocks.Pairwise fun b b' => Disjoint b.bytes b'.bytes

/-- Nothing is given out of a pool that is free from its beginning. -/
theorem Packed.nil : Packed align limit 0 [] := ⟨Nat.zero_le _, nofun, nofun, .nil⟩

/-- **A request keeps the blocks aligned, inside the pool and disjoint.** -/
theorem Packed.alloc {blocks : List Block} (h : Packed align limit free blocks) (halign : 0 < align)
    (hlimit : align ∣ limit) (n : Nat) :
    Packed align limit (alloc align limit free n).2
      ((Pool.alloc align limit free n).1.toList ++ blocks) := by
  have hround : free ≤ roundUp align free := le_roundUp halign
  have hbelow (b : Block) (hb : b ∈ blocks) : b.start + b.length ≤ roundUp align free :=
    (h.below b hb).trans hround
  unfold Pool.alloc
  split
  next hfits =>
    rw [Option.toList_some, List.singleton_append]
    refine ⟨hfits, ?_, ?_, List.pairwise_cons.2 ⟨?_, h.disjoint⟩⟩
    · exact List.forall_mem_cons.2 ⟨dvd_roundUp align free, h.aligned⟩
    · refine List.forall_mem_cons.2 ⟨Nat.le_refl _, fun b hb => ?_⟩
      exact (hbelow b hb).trans (Nat.le_add_right ..)
    · exact fun b hb => (Block.disjoint_of_le (hbelow b hb)).symm
  next =>
    rw [Option.toList_none, List.nil_append]
    exact ⟨roundUp_le halign hlimit h.free_le, h.aligned, hbelow, h.disjoint⟩

end Pool
