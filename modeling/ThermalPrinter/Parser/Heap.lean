import ThermalPrinter.Lib.Pool
import ThermalPrinter.Lib.Runs

/-!
# The heap of zlib

`ZipDecode` gives zlib a pool of its own, the array `zip_heap`, which it empties before every block.
`zip_alloc` computes the size of a block and its end in 32 bits. As long as the end of no request
wraps round to a place inside the array, it is the pool of `Pool.alloc` in exact arithmetic
(`zip_alloc_eq`), and its blocks are sound; a request whose end does wrap is granted a block that is
not there (`zip_alloc_sound_iff`).
-/

namespace ThermalPrinter

/-- `ZIP_HEAP_SIZE`. -/
def ZIP_HEAP_SIZE : UInt32 := 20000

/-- Where the array `zip_heap` lies; it is declared with `aligned(4)`. -/
structure ZipHeap where
  address : Nat
  aligned : 4 ∣ address

/-- `zip_alloc`: the place in `zip_heap` of the block, or NULL, and the `zip_heap_offset` it
leaves. -/
def zip_alloc (items size zip_heap_offset : UInt32) : Option UInt32 × UInt32 :=
  let bytes := items * size
  let zip_heap_offset := (zip_heap_offset + 3) &&& ~~~(3 : UInt32)
  if zip_heap_offset + bytes > ZIP_HEAP_SIZE then (none, zip_heap_offset)
  else (some zip_heap_offset, zip_heap_offset + bytes)

/-- A block that `zip_alloc` returned, with the request. -/
structure ZipBlock where
  p : UInt32
  items : UInt32
  size : UInt32
  deriving DecidableEq, Repr

/-- The memory that the block is asked to have, in exact arithmetic. -/
def ZipBlock.block (b : ZipBlock) : Pool.Block := ⟨b.p.toNat, b.items.toNat * b.size.toNat⟩

/-- `zip_heap_offset`, and the blocks returned since the heap was last emptied, the latest first. -/
structure ZipPool where
  zip_heap_offset : UInt32
  blocks : List ZipBlock
  deriving DecidableEq, Repr

/-- A call of the allocator; `zip_free` does nothing. -/
inductive HeapCall
  | zip_alloc (items size : UInt32)
  | zip_reset_heap
  deriving DecidableEq, Repr

namespace ZipPool

/-- The heap at boot. -/
def init : ZipPool := { zip_heap_offset := 0, blocks := [] }

/-- The heap after a call. -/
def next (s : ZipPool) : HeapCall → ZipPool
  | .zip_alloc items size =>
    let (p, zip_heap_offset) := ThermalPrinter.zip_alloc items size s.zip_heap_offset
    { zip_heap_offset := zip_heap_offset
      blocks := (p.map fun p => { p := p, items := items, size := size }).toList ++ s.blocks }
  | .zip_reset_heap => init

/-- Where a request would end, in exact arithmetic. -/
def requestEnd (s : ZipPool) (items size : UInt32) : Nat :=
  Pool.roundUp 4 s.zip_heap_offset.toNat + items.toNat * size.toNat

/-- The blocks are inside the array, aligned, as large as they were asked to be, and disjoint. -/
structure Sound (heap : ZipHeap) (s : ZipPool) : Prop where
  inside : ∀ b ∈ s.blocks, b.block.start + b.block.length ≤ ZIP_HEAP_SIZE.toNat
  aligned : ∀ b ∈ s.blocks, 4 ∣ heap.address + b.block.start
  disjoint : s.blocks.Pairwise fun b b' => Disjoint b.block.bytes b'.block.bytes

/-- What is asked of a call: it leaves the blocks sound, and a request is refused exactly if it does
not fit, and then leaves the blocks as they are. -/
def Right (heap : ZipHeap) (s : ZipPool) (call : HeapCall) : Prop :=
  (s.next call).Sound heap ∧
    match call with
    | .zip_alloc items size =>
      ((ThermalPrinter.zip_alloc items size s.zip_heap_offset).1 = none ↔
          ZIP_HEAP_SIZE.toNat < s.requestEnd items size) ∧
        (ZIP_HEAP_SIZE.toNat < s.requestEnd items size → (s.next call).blocks = s.blocks)
    | .zip_reset_heap => True

/-- The end of the request lies outside the array, but its lower 32 bits do not. -/
def Wraps (s : ZipPool) : HeapCall → Prop
  | .zip_alloc items size =>
    ZIP_HEAP_SIZE.toNat < s.requestEnd items size ∧
      s.requestEnd items size % 2 ^ 32 ≤ ZIP_HEAP_SIZE.toNat
  | .zip_reset_heap => False

variable {heap : ZipHeap} {s : ZipPool} {items size offset : UInt32} {call : HeapCall}

/-- What the calls keep, as long as none wraps: the blocks are those of a pool. -/
def Packed (s : ZipPool) : Prop :=
  Pool.Packed 4 ZIP_HEAP_SIZE.toNat s.zip_heap_offset.toNat (s.blocks.map ZipBlock.block)

/-- `& ~3` clears the lower two bits. -/
theorem toNat_and_not_three (x : UInt32) : (x &&& ~~~(3 : UInt32)).toNat = x.toNat / 4 * 4 := by
  have hmask : (~~~(3 : UInt32)).toNat = (2 ^ 30 - 1) <<< 2 := by decide
  have hclear : x.toNat / 4 * 4 = (x.toNat >>> 2) <<< 2 := by
    rw [Nat.shiftLeft_eq, Nat.shiftRight_eq_div_pow]
  rw [UInt32.toNat_and, hmask, hclear]
  refine Nat.eq_of_testBit_eq fun i => ?_
  rw [Nat.testBit_and, Nat.testBit_shiftLeft, Nat.testBit_shiftLeft, Nat.testBit_shiftRight,
    Nat.testBit_two_pow_sub_one]
  rcases Nat.lt_or_ge i 2 with hlow | hhigh
  · simp [show ¬ 2 ≤ i by omega]
  · rcases Nat.lt_or_ge i 32 with hin | hout
    · simp [hhigh, show i - 2 < 30 by omega]
    · have hbit : x.toNat.testBit i = false :=
        Nat.testBit_lt_two_pow (x.toNat_lt.trans_le (Nat.pow_le_pow_right (by decide) hout))
      simp [hhigh, hbit]

/-- The place at which `zip_alloc` looks for room. -/
def place (s : ZipPool) : UInt32 := (s.zip_heap_offset + 3) &&& ~~~(3 : UInt32)

/-- Inside the array the offset is aligned without wrapping. -/
theorem toNat_place (hs : s.Packed) : s.place.toNat = Pool.roundUp 4 s.zip_heap_offset.toNat := by
  have hle : s.zip_heap_offset.toNat ≤ 20000 := hs.free_le
  have hthree : (s.zip_heap_offset + 3).toNat = s.zip_heap_offset.toNat + 3 := by
    rw [UInt32.toNat_add]
    exact Nat.mod_eq_of_lt (by rw [show (3 : UInt32).toNat = 3 from rfl]; omega)
  rw [place, toNat_and_not_three, hthree]
  rfl

/-- The end of a request as the code computes it. -/
theorem toNat_place_add (hs : s.Packed) (items size : UInt32) :
    (s.place + items * size).toNat = s.requestEnd items size % 2 ^ 32 := by
  rw [UInt32.toNat_add, UInt32.toNat_mul, toNat_place hs, Nat.add_mod_mod]
  rfl

/-- `zip_alloc` goes by the lower 32 bits of the end. -/
theorem zip_alloc_cases (hs : s.Packed) (items size : UInt32) :
    s.requestEnd items size % 2 ^ 32 ≤ ZIP_HEAP_SIZE.toNat ∧
        ThermalPrinter.zip_alloc items size s.zip_heap_offset =
          (some s.place, s.place + items * size) ∨
      ZIP_HEAP_SIZE.toNat < s.requestEnd items size % 2 ^ 32 ∧
        ThermalPrinter.zip_alloc items size s.zip_heap_offset = (none, s.place) := by
  have hend := toNat_place_add hs items size
  rcases Nat.lt_or_ge ZIP_HEAP_SIZE.toNat (s.requestEnd items size % 2 ^ 32) with hlt | hle
  · refine .inr ⟨hlt, if_pos (UInt32.lt_iff_toNat_lt.2 ?_)⟩
    exact hlt.trans_eq hend.symm
  · refine .inl ⟨hle, if_neg (UInt32.not_lt.2 (UInt32.le_iff_toNat_le.2 ?_))⟩
    exact hend.trans_le hle

/-- **A request whose end does not wrap is that of a pool**: the block, if it fits, and the place
from which the heap is then free. -/
theorem zip_alloc_eq (hs : s.Packed) (hw : ¬ s.Wraps (.zip_alloc items size)) :
    (((ThermalPrinter.zip_alloc items size s.zip_heap_offset).1.map fun p =>
          (⟨p, items, size⟩ : ZipBlock).block),
        (ThermalPrinter.zip_alloc items size s.zip_heap_offset).2.toNat) =
      Pool.alloc 4 ZIP_HEAP_SIZE.toNat s.zip_heap_offset.toNat (items.toNat * size.toNat) := by
  have hend := toNat_place_add hs items size
  have hrequest : s.requestEnd items size =
    Pool.roundUp 4 s.zip_heap_offset.toNat + items.toNat * size.toNat := rfl
  unfold Pool.alloc
  rcases zip_alloc_cases hs items size with ⟨hle, heq⟩ | ⟨hlt, heq⟩
  · have hfits : s.requestEnd items size ≤ ZIP_HEAP_SIZE.toNat :=
      Nat.le_of_not_lt fun hout => hw ⟨hout, hle⟩
    have hexact : s.requestEnd items size % 2 ^ 32 = s.requestEnd items size :=
      Nat.mod_eq_of_lt (hfits.trans_lt (by decide))
    rw [heq, if_pos (hrequest ▸ hfits), Option.map_some, ZipBlock.block, hend, hexact,
      toNat_place hs, hrequest]
  · have hout : ¬ s.requestEnd items size ≤ ZIP_HEAP_SIZE.toNat :=
      fun hfits => absurd hlt (Nat.not_lt.2 ((Nat.mod_le _ _).trans hfits))
    rw [heq, if_neg (hrequest ▸ hout), Option.map_none, toNat_place hs]

/-- The blocks of a pool are sound. -/
theorem Packed.sound (hs : s.Packed) (heap : ZipHeap) : s.Sound heap where
  inside b hb := (hs.below _ (List.mem_map_of_mem hb)).trans hs.free_le
  aligned b hb := Nat.dvd_add heap.aligned (hs.aligned _ (List.mem_map_of_mem hb))
  disjoint := by
    have hdisjoint := hs.disjoint
    rwa [List.pairwise_map] at hdisjoint

theorem packed_init : init.Packed := Pool.Packed.nil

/-- A call that does not wrap leaves the blocks those of a pool. -/
theorem Packed.next (hs : s.Packed) (hw : ¬ s.Wraps call) : (s.next call).Packed := by
  cases call with
  | zip_alloc items size =>
    have hpool := Pool.Packed.alloc hs (by decide) (by decide) (items.toNat * size.toNat)
    rw [← zip_alloc_eq hs hw] at hpool
    rw [Packed, ZipPool.next, List.map_append]
    refine Eq.mp (congrArg (Pool.Packed 4 _ _ <| · ++ _) ?_) hpool
    cases (ThermalPrinter.zip_alloc items size s.zip_heap_offset).1 <;> rfl
  | zip_reset_heap => exact packed_init

/-- **One call** does what is asked of it exactly if its end does not wrap. -/
theorem right_iff (heap : ZipHeap) (hs : s.Packed) (call : HeapCall) :
    s.Right heap call ↔ ¬ s.Wraps call := by
  refine ⟨fun hright hw => ?_, fun hw => ⟨(hs.next hw).sound heap, ?_⟩⟩
  · cases call with
    | zip_alloc items size =>
      obtain ⟨hout, hle⟩ := hw
      rcases zip_alloc_cases hs items size with ⟨-, heq⟩ | ⟨hlt, -⟩
      · have hnone := hright.2.1.2 hout
        rw [heq] at hnone
        cases hnone
      · exact absurd hle (Nat.not_le.2 hlt)
    | zip_reset_heap => exact hw
  · cases call with
    | zip_alloc items size =>
      have hnone : (ThermalPrinter.zip_alloc items size s.zip_heap_offset).1 = none ↔
          ZIP_HEAP_SIZE.toNat < s.requestEnd items size := by
        rcases zip_alloc_cases hs items size with ⟨hle, heq⟩ | ⟨hlt, heq⟩
        · rw [heq]
          exact iff_of_false nofun fun hout => hw ⟨hout, hle⟩
        · rw [heq]
          exact iff_of_true rfl (hlt.trans_le (Nat.mod_le _ _))
      refine ⟨hnone, fun hout => ?_⟩
      simp only [ZipPool.next, hnone.2 hout]
      rfl
    | zip_reset_heap => trivial

/-- **The allocator is sound exactly if no request wraps**: over every sequence of calls from boot,
every call leaves blocks that are inside the array, aligned, as large as they were asked to be and
disjoint, and a request is refused exactly if it does not fit, if and only if no request ends, in
exact arithmetic, outside the array but modulo `2 ^ 32` not. -/
theorem zip_alloc_sound_iff (heap : ZipHeap) (calls : List HeapCall) :
    (∀ done call, done ++ [call] <+: calls → (done.foldl next init).Right heap call) ↔
      ∀ done call, done ++ [call] <+: calls → ¬ (done.foldl next init).Wraps call :=
  Runs.foldl_iff (P := Right heap) (fun _ call hs => right_iff heap hs call)
    (fun _ _ hs hw => Packed.next hs hw) packed_init calls

/-- **A request for `2 ^ 32` bytes is granted** a block at the beginning of the heap, and a request
that ends at `2 ^ 32 + 8` a block that the next request is granted again. -/
theorem wrapped_request_granted :
    zip_alloc 0x10000 0x10000 0 = (some 0, 0) ∧
      ¬ init.Right ⟨0x1000, by decide⟩ (.zip_alloc 0x10000 0x10000) ∧
      ¬ Sound ⟨0x1000, by decide⟩ ([.zip_alloc 1 16, .zip_alloc 1 0xFFFFFFF8, .zip_alloc 1 8].foldl
        next init) := by
  refine ⟨rfl, fun h => ?_, fun h => ?_⟩
  · exact (right_iff _ packed_init _).1 h ⟨by decide, by decide⟩
  · exact absurd (h.inside ⟨16, 1, 0xFFFFFFF8⟩ (by decide)) (by decide)

end ZipPool

end ThermalPrinter
