import ThermalPrinter.Lib.Bitmap
import ThermalPrinter.Parser.SelfTest

/-!
# The text of the self test page

`SelfPrintWriteLines` draws a text into a buffer of 28 rows of 72 bytes. A character is 12 dots wide
and a row of its glyph is two bytes, of which the last four dots are left out. So a character takes
three nibbles of a row (`Write4Dots` counts them), and every second one begins in the middle of a
byte. Every write is that of one nibble (`Canvas.inked_write`), whatever the parity, and the rows
are the plain layout of the glyphs, cell by cell (`line_drawn`).

Every access to an array is recorded with its index. Those of a text are inside their arrays as long
as the font table has its characters; those of the dots test never are (`self_test_never_inside`).
-/

namespace ThermalPrinter

/-- `LineBytes`: the bytes of a row. -/
def LineBytes : Nat := 72

/-- `GapDots`: the rows of the gap between two lines. -/
def GapDots : Nat := 4

/-- The font table `AsciiLib[96][48]`: the 48 bytes at each index. What is at an index outside the
table is whatever lies there in memory. -/
structure Font where
  AsciiLib : Int → List UInt8
  length : ∀ i, (AsciiLib i).length = 48

/-- `AsciiLib[(ASCII - 32)]`. -/
def Font.glyph (font : Font) (ASCII : UInt8) : List UInt8 := font.AsciiLib (ASCII.toNat - 32)

/-- An access: to the font table, to the glyph in `DotsASCII`, to a byte of a row of `MatricDot`, or
to the row `Bytes` of the dots test. -/
inductive Access
  | AsciiLib (i : Int)
  | DotsASCII (i : Nat)
  | MatricDot (y i : Nat)
  | Bytes (i : Nat)
  deriving DecidableEq, Repr

/-- The access is inside its array, and inside its own row of `MatricDot`. -/
def Access.Inside : Access → Prop
  | AsciiLib i => 0 ≤ i ∧ i < 96
  | DotsASCII i => i < 48
  | MatricDot y i => y < 24 + GapDots ∧ i < LineBytes
  | Bytes i => i < 72

/-- The buffer `MatricDot`, and the accesses so far. -/
structure Canvas where
  MatricDot : List UInt8
  accesses : List Access

namespace Canvas

/-- `MatricDot[LineBytes*y+i]|=f(DotsASCII[y*2+x])`. -/
def write (DotsASCII : List UInt8) (x y i : Nat) (f : UInt8 → UInt8) (s : Canvas) : Canvas where
  MatricDot := s.MatricDot.modify (LineBytes * y + i) (· ||| f (DotsASCII.getD (y * 2 + x) 0))
  accesses := s.accesses ++ [.DotsASCII (y * 2 + x), .MatricDot y i]

/-- The body of the two loops over a glyph. -/
def writeDots (DotsASCII : List UInt8) (Write4Dots x y : Nat) (s : Canvas) : Canvas :=
  if Write4Dots % 2 = 0 then
    if x = 0 then
      (s.write DotsASCII x y (Write4Dots / 2) (· &&& 0xf0)).write DotsASCII x y
        ((Write4Dots + 1) / 2) (· &&& 0x0f)
    else s.write DotsASCII x y ((Write4Dots + 2) / 2) (· &&& 0xf0)
  else
    if x = 0 then
      (s.write DotsASCII x y (Write4Dots / 2) fun b => (b &&& 0xf0) >>> 4).write DotsASCII x y
        ((Write4Dots + 1) / 2) fun b => (b &&& 0x0f) <<< 4
    else s.write DotsASCII x y ((Write4Dots + 2) / 2) fun b => (b &&& 0xf0) >>> 4

/-- The two loops over a glyph. -/
def writeGlyph (DotsASCII : List UInt8) (Write4Dots : Nat) (s : Canvas) : Canvas :=
  (List.range 2).foldl (fun s x =>
    (List.range 24).foldl (fun s y => s.writeDots DotsASCII Write4Dots x y) s) s

/-- `GetASCIICode`: the glyph is fetched into `DotsASCII`. -/
def GetASCIICode (ASCII : UInt8) (s : Canvas) : Canvas :=
  { s with accesses := s.accesses ++ [.AsciiLib (ASCII.toNat - 32)] }

/-- The loop of `SelfPrintWriteLines`, over the characters that `BufferStr` still has. -/
def writeChars (font : Font) : List UInt8 → Nat → Canvas → Canvas
  | [], _, s => s
  | c :: BufferStr, Write4Dots, s =>
    if c ≠ 0 ∧ Write4Dots < LineBytes * 2 then
      let s := (s.GetASCIICode c).writeGlyph (font.glyph c) Write4Dots
      let Write4Dots := Write4Dots + 3
      if Write4Dots ≥ LineBytes * 2 then s else writeChars font BufferStr Write4Dots s
    else s

/-- The empty buffer. -/
def empty : Canvas where
  MatricDot := List.replicate ((24 + GapDots) * LineBytes) 0
  accesses := []

/-- The rows that `SelfPrintWriteLines` queues. -/
def rows (s : Canvas) : List (List UInt8) :=
  (List.range (24 + GapDots)).map fun y => (s.MatricDot.drop (y * LineBytes)).take LineBytes

end Canvas

/-- What `SelfPrintWriteLines` draws of a text. -/
def Font.drawLine (font : Font) (BufferStr : List UInt8) : Canvas :=
  Canvas.empty.writeChars font BufferStr 0

/-- `SelfPrintWriteLines`. -/
def Font.SelfPrintWriteLines (font : Font) (BufferStr : List UInt8) (s : Printer) : Printer :=
  (font.drawLine BufferStr).rows.foldl Printer.WritePrintLinkedListB s

namespace Canvas

variable {s : Canvas} {font : Font} {g BufferStr : List UInt8} {c : UInt8} {i j k n W x y : Nat}

/-! ## Nibbles -/

/-- The nibbles of a glyph's row, from its bytes: the low one of the first byte is the second. -/
def half (b : UInt8) (d : Nat) : UInt8 := if d = 1 then b &&& 0x0f else b >>> 4

/-- Shifted and masked, a byte is one of its nibbles. -/
theorem mask_eq (b : UInt8) :
    b &&& (0xf0 : UInt8) = (b >>> 4) <<< 4 ∧ (b &&& (0xf0 : UInt8)) >>> 4 = b >>> 4 &&& 0x0f ∧
      b &&& (0x0f : UInt8) = b &&& 0x0f &&& 0x0f := by
  have hbits : ∀ v : BitVec 8, v &&& 0xf0#8 = (v >>> 4) <<< 4 ∧
      (v &&& 0xf0#8) >>> 4 = v >>> 4 &&& 0x0f#8 ∧ v &&& 0x0f#8 = v &&& 0x0f#8 &&& 0x0f#8 := by
    decide
  obtain ⟨h₁, h₂, h₃⟩ := hbits b.toBitVec
  exact ⟨UInt8.toBitVec_inj.1 h₁, UInt8.toBitVec_inj.1 h₂, UInt8.toBitVec_inj.1 h₃⟩

/-- The high nibble of a byte, at nibble `q` of a row. -/
theorem nibble_high (q : Nat) (b : UInt8) :
    Bitmap.nibble q (b >>> 4) =
      if q % 2 = 0 then b &&& (0xf0 : UInt8) else (b &&& (0xf0 : UInt8)) >>> 4 := by
  rw [Bitmap.nibble, (mask_eq b).2.1, (mask_eq b).1]

/-- The low nibble of a byte, at nibble `q` of a row. -/
theorem nibble_low (q : Nat) (b : UInt8) :
    Bitmap.nibble q (b &&& 0x0f) =
      if q % 2 = 0 then (b &&& (0x0f : UInt8)) <<< 4 else b &&& (0x0f : UInt8) := by
  rw [Bitmap.nibble, ← (mask_eq b).2.2]

/-- The dots of a nibble of a glyph's row. -/
theorem getMsbD_half (g : List UInt8) (y : Nat) (hd : i < 3) (hk : k < 4) :
    (half (g.getD (y * 2 + i / 2) 0) i).toBitVec.getMsbD (4 + k) =
      Bitmap.dot g (16 * y + 4 * i + k) := by
  have hbyte : (16 * y + 4 * i + k) / 8 = y * 2 + i / 2 := by omega
  unfold Bitmap.dot half
  rw [hbyte]
  generalize g.getD (y * 2 + i / 2) 0 = b
  split
  next hone =>
    have hdot : (16 * y + 4 * i + k) % 8 = 4 + k := by omega
    have hmask : (0x0f : UInt8).toBitVec.getMsbD (4 + k) = true := by interval_cases k <;> rfl
    rw [hdot, UInt8.toBitVec_and, BitVec.getMsbD_and, hmask, Bool.and_true]
  next hone =>
    have hdot : (16 * y + 4 * i + k) % 8 = k := by omega
    have hshift : (b >>> 4).toBitVec.getMsbD (4 + k) = _ := BitVec.getMsbD_ushiftRight (n := 4)
    rw [hdot, hshift, Nat.add_sub_cancel_left]
    simp [show 4 + k < 8 by omega]

/-- **Every write is that of one nibble**: of nibble `d` of a row of the glyph, at nibble
`Write4Dots + d` of the row of the buffer. -/
theorem inked_write (d : Nat) (hd : d < 3) (hW : W + d < 2 * LineBytes) (hy : y < 24 + GapDots)
    (hlen : s.MatricDot.length = (24 + GapDots) * LineBytes) {f : UInt8 → UInt8}
    (hf : ∀ b, f b = Bitmap.nibble (W + d) (half b d)) :
    Bitmap.Inked s.MatricDot (s.write g (d / 2) y ((W + d) / 2) f).MatricDot fun j =>
      j / 4 == 2 * LineBytes * y + (W + d) && Bitmap.dot g (16 * y + 4 * d + j % 4) := by
  unfold LineBytes GapDots at *
  have hplace : 72 * y + (W + d) / 2 = (2 * 72 * y + (W + d)) / 2 := by omega
  have hparity : (2 * 72 * y + (W + d)) % 2 = (W + d) % 2 := by omega
  have heq : (s.write g (d / 2) y ((W + d) / 2) f).MatricDot =
      Bitmap.orNibble s.MatricDot (2 * 72 * y + (W + d)) (half (g.getD (y * 2 + d / 2) 0) d) := by
    rw [write, LineBytes, hplace, hf, Bitmap.orNibble, Bitmap.nibble, Bitmap.nibble, hparity]
  rw [heq]
  refine (Bitmap.inked_orNibble (by omega)).congr fun j => ?_
  rw [getMsbD_half g y hd (Nat.mod_lt _ (by decide))]

/-- The nibbles of a glyph's row that a turn of the inner loop writes. -/
def halves (x : Nat) : List Nat := if x = 0 then [0, 1] else [2]

/-- Nibble `d` of row `y` of a glyph that begins at nibble `W`. -/
def halfInk (g : List UInt8) (W y d j : Nat) : Bool :=
  j / 4 == 2 * LineBytes * y + (W + d) && Bitmap.dot g (16 * y + 4 * d + j % 4)

/-- The dots of a glyph, with its first 12 columns from nibble `W` of the rows on. -/
def glyphInk (g : List UInt8) (W j : Nat) : Bool :=
  j / 576 < 24 && W ≤ j % 576 / 4 && j % 576 / 4 < W + 3 &&
    Bitmap.dot g (16 * (j / 576) + (j % 576 - 4 * W))

/-- The first byte of a row of the glyph has two of its nibbles. -/
theorem inked_pair (hy : y < 24 + GapDots) (hW : W + 3 ≤ 2 * LineBytes)
    (hlen : s.MatricDot.length = (24 + GapDots) * LineBytes) {f f' : UInt8 → UInt8}
    (hf : ∀ b, f b = Bitmap.nibble (W + 0) (half b 0))
    (hf' : ∀ b, f' b = Bitmap.nibble (W + 1) (half b 1)) :
    Bitmap.Inked s.MatricDot
      ((s.write g 0 y (W / 2) f).write g 0 y ((W + 1) / 2) f').MatricDot fun j =>
        halfInk g W y 0 j || halfInk g W y 1 j := by
  have hfirst := inked_write (g := g) 0 (by decide) (by omega) hy hlen hf
  exact hfirst.trans (inked_write 1 (by decide) (by omega) hy (hfirst.length.trans hlen) hf')

/-- A turn of the loops with `x = 0` draws the first two nibbles of a row of the glyph. -/
theorem inked_writeDots_zero (hy : y < 24 + GapDots) (hW : W + 3 ≤ 2 * LineBytes)
    (hlen : s.MatricDot.length = (24 + GapDots) * LineBytes) :
    Bitmap.Inked s.MatricDot (s.writeDots g W 0 y).MatricDot fun j =>
      halfInk g W y 0 j || halfInk g W y 1 j := by
  have hhigh (b : UInt8) : half b 0 = b >>> 4 := if_neg (by decide)
  have hlow (b : UInt8) : half b 1 = b &&& 0x0f := if_pos rfl
  rw [writeDots, if_pos rfl, if_pos rfl]
  split
  next heven =>
    refine inked_pair hy hW hlen (fun b => ?_) fun b => ?_
    · rw [hhigh, nibble_high, if_pos (by omega)]
    · rw [hlow, nibble_low, if_neg (by omega)]
  next hodd =>
    refine inked_pair hy hW hlen (fun b => ?_) fun b => ?_
    · rw [hhigh, nibble_high, if_neg (by omega)]
    · rw [hlow, nibble_low, if_pos (by omega)]

/-- A turn of the loops with `x = 1` draws the third nibble. -/
theorem inked_writeDots_one (hy : y < 24 + GapDots) (hW : W + 3 ≤ 2 * LineBytes)
    (hlen : s.MatricDot.length = (24 + GapDots) * LineBytes) :
    Bitmap.Inked s.MatricDot (s.writeDots g W 1 y).MatricDot (halfInk g W y 2) := by
  have hhigh (b : UInt8) : half b 2 = b >>> 4 := if_neg (by decide)
  rw [writeDots, if_neg one_ne_zero, if_neg one_ne_zero]
  split
  next heven =>
    refine inked_write 2 (by decide) (by omega) hy hlen fun b => ?_
    rw [hhigh, nibble_high, if_pos (by omega)]
  next hodd =>
    refine inked_write 2 (by decide) (by omega) hy hlen fun b => ?_
    rw [hhigh, nibble_high, if_neg (by omega)]

/-- A turn of the loops draws its nibbles. -/
theorem inked_writeDots (hx : x < 2) (hy : y < 24) (hW : W + 3 ≤ 2 * LineBytes)
    (hlen : s.MatricDot.length = (24 + GapDots) * LineBytes) :
    Bitmap.Inked s.MatricDot (s.writeDots g W x y).MatricDot fun j =>
      (halves x).any (halfInk g W y · j) := by
  have hrow : y < 24 + GapDots := Nat.lt_add_right _ hy
  rcases (by omega : x = 0 ∨ x = 1) with rfl | rfl
  · exact (inked_writeDots_zero hrow hW hlen).congr fun j => by simp [halves]
  · exact (inked_writeDots_one hrow hW hlen).congr fun j => by simp [halves]

/-- **The two loops draw the glyph.** -/
theorem inked_writeGlyph (hW : W + 3 ≤ 2 * LineBytes)
    (hlen : s.MatricDot.length = (24 + GapDots) * LineBytes) :
    Bitmap.Inked s.MatricDot (s.writeGlyph g W).MatricDot (glyphInk g W) := by
  have hcolumn (t : Canvas) (ht : t.MatricDot.length = s.MatricDot.length) (x : Nat)
      (hx : x ∈ List.range 2) :
      Bitmap.Inked t.MatricDot
        ((List.range 24).foldl (fun t y => t.writeDots g W x y) t).MatricDot
        fun j => (List.range 24).any fun y => (halves x).any (halfInk g W y · j) :=
    Bitmap.Inked.foldl MatricDot fun u hu y hy =>
      inked_writeDots (List.mem_range.1 hx) (List.mem_range.1 hy) hW (hu.trans (ht.trans hlen))
  refine (Bitmap.Inked.foldl MatricDot hcolumn).congr fun j => ?_
  rw [Bool.eq_iff_iff]
  simp only [List.any_eq_true, List.mem_range, halfInk, glyphInk, Bool.and_eq_true, beq_iff_eq,
    decide_eq_true_eq, LineBytes] at hW ⊢
  constructor
  · rintro ⟨x, hx, y, hy, d, hd, hplace, hdot⟩
    have hd3 : d < 3 := by
      unfold halves at hd
      split at hd <;> simp at hd <;> omega
    have hrow : j / 576 = y := by omega
    refine ⟨⟨⟨by omega, by omega⟩, by omega⟩, ?_⟩
    rwa [show 16 * (j / 576) + (j % 576 - 4 * W) = 16 * y + 4 * d + j % 4 by omega]
  · rintro ⟨⟨⟨hrow, hleft⟩, hright⟩, hdot⟩
    obtain ⟨d, hd⟩ : ∃ d, j % 576 / 4 = W + d := Nat.exists_eq_add_of_le hleft
    refine ⟨d / 2, by omega, j / 576, hrow, d, ?_, by omega, ?_⟩
    · rcases (by omega : d = 0 ∨ d = 1 ∨ d = 2) with rfl | rfl | rfl
      all_goals decide
    · rwa [show 16 * (j / 576) + 4 * d + j % 4 = 16 * (j / 576) + (j % 576 - 4 * W) by omega]

/-! ## The line -/

/-- The dots of a text that begins at character cell `k` of the rows: dot `12 * k + d` of a row is
dot `d` of that row of the glyph of the character in cell `k`. -/
def lineInk (font : Font) (BufferStr : List UInt8) (k j : Nat) : Bool :=
  j / 576 < 24 && 12 * k ≤ j % 576 &&
    (BufferStr[j % 576 / 12 - k]?).any fun c =>
      Bitmap.dot (font.glyph c) (16 * (j / 576) + j % 576 % 12)

/-- A full line takes no more characters. -/
theorem writeChars_full (hW : ¬ W < LineBytes * 2) : s.writeChars font BufferStr W = s := by
  cases BufferStr with
  | nil => rfl
  | cons c BufferStr => rw [writeChars, if_neg (fun h => hW h.2)]

/-- A character of the line, then the rest of the text from the next cell on. -/
theorem writeChars_cons (hc : c ≠ 0) (hk : k < 48) :
    s.writeChars font (c :: BufferStr) (3 * k) =
      ((s.GetASCIICode c).writeGlyph (font.glyph c) (3 * k)).writeChars font BufferStr
        (3 * (k + 1)) := by
  have hroom : 3 * k < LineBytes * 2 := by unfold LineBytes; omega
  rw [writeChars, if_pos ⟨hc, hroom⟩]
  dsimp only
  split
  next hfull => rw [writeChars_full (by omega)]
  next => rfl

/-- The first character's dots and those of the rest. -/
theorem lineInk_cons :
    (glyphInk (font.glyph c) (3 * k) j || lineInk font BufferStr (k + 1) j) =
      lineInk font (c :: BufferStr) k j := by
  unfold glyphInk lineInk
  obtain hleft | hhere | hright : j % 576 / 12 < k ∨ j % 576 / 12 = k ∨ k < j % 576 / 12 := by
    omega
  · have hcell : ¬ 3 * k ≤ j % 576 / 4 := by omega
    have hcell' : ¬ 12 * k ≤ j % 576 := by omega
    have hnext : ¬ 12 * (k + 1) ≤ j % 576 := by omega
    simp [hcell, hcell', hnext]
  · have hcell : 3 * k ≤ j % 576 / 4 := by omega
    have hend : j % 576 / 4 < 3 * k + 3 := by omega
    have hcell' : 12 * k ≤ j % 576 := by omega
    have hnext : ¬ 12 * (k + 1) ≤ j % 576 := by omega
    have hdot : j % 576 - 4 * (3 * k) = j % 576 % 12 := by omega
    simp [hcell, hend, hcell', hnext, hdot, hhere]
  · have hend : ¬ j % 576 / 4 < 3 * k + 3 := by omega
    have hcell' : 12 * k ≤ j % 576 := by omega
    have hnext : 12 * (k + 1) ≤ j % 576 := by omega
    have hindex : j % 576 / 12 - k = j % 576 / 12 - (k + 1) + 1 := by omega
    simp [hend, hcell', hnext, hindex]

/-- **The loop draws the text**, as far as the line has room. -/
theorem inked_writeChars (hNUL : ∀ c ∈ BufferStr, c ≠ 0)
    (hlen : s.MatricDot.length = (24 + GapDots) * LineBytes) :
    Bitmap.Inked s.MatricDot (s.writeChars font BufferStr (3 * k)).MatricDot
      (lineInk font BufferStr k) := by
  induction BufferStr generalizing k s with
  | nil => exact ⟨rfl, fun j => by simp [lineInk, writeChars]⟩
  | cons c BufferStr ih =>
    by_cases hk : k < 48
    · rw [writeChars_cons (hNUL c (.head _)) hk]
      have hglyph := inked_writeGlyph (s := s.GetASCIICode c) (g := font.glyph c) (W := 3 * k)
        (by unfold LineBytes; omega) hlen
      have hrest := ih (k := k + 1) (fun c hc => hNUL c (.tail _ hc)) (hglyph.length.trans hlen)
      exact (hglyph.trans hrest).congr fun j => lineInk_cons
    · rw [writeChars_full (by unfold LineBytes; omega)]
      have hcell (j : Nat) : ¬ 12 * k ≤ j % 576 := by omega
      exact ⟨rfl, fun j => by simp [lineInk, hcell]⟩

/-! ## The accesses -/

/-- Every access so far was inside its array. -/
def AllInside (s : Canvas) : Prop := ∀ a ∈ s.accesses, a.Inside

theorem allInside_write {f : UInt8 → UInt8} (hx : x < 2) (hy : y < 24) (hi : i < LineBytes) :
    (s.write g x y i f).AllInside ↔ s.AllInside := by
  have hglyph : y * 2 + x < 48 := by omega
  have hrow : y < 24 + GapDots := Nat.lt_add_right _ hy
  simp [AllInside, write, Access.Inside, or_imp, forall_and, hglyph, hrow, hi]

theorem allInside_writeDots (hx : x < 2) (hy : y < 24) (hW : W + 3 ≤ 2 * LineBytes) :
    (s.writeDots g W x y).AllInside ↔ s.AllInside := by
  unfold writeDots
  split <;> split <;> simp only [allInside_write hx hy, show W / 2 < LineBytes by omega,
    show (W + 1) / 2 < LineBytes by omega, show (W + 2) / 2 < LineBytes by omega]

/-- The loops over a glyph stay inside the glyph and inside the rows. -/
theorem allInside_writeGlyph (hW : W + 3 ≤ 2 * LineBytes) :
    (s.writeGlyph g W).AllInside ↔ s.AllInside := by
  refine List.foldlRecOn (motive := fun t : Canvas => t.AllInside ↔ s.AllInside) _ _ Iff.rfl ?_
  intro t ht x hx
  refine List.foldlRecOn (motive := fun u : Canvas => u.AllInside ↔ s.AllInside) _ _ ht ?_
  intro u hu y hy
  rw [allInside_writeDots (List.mem_range.1 hx) (List.mem_range.1 hy) hW, hu]

theorem allInside_GetASCIICode :
    (s.GetASCIICode c).AllInside ↔ s.AllInside ∧ 32 ≤ c.toNat ∧ c.toNat ≤ 127 := by
  have hindex : (Access.AsciiLib (c.toNat - 32)).Inside ↔ 32 ≤ c.toNat ∧ c.toNat ≤ 127 := by
    unfold Access.Inside
    omega
  simp [AllInside, GetASCIICode, or_imp, forall_and, hindex]

/-- **The loop over the text** stays inside its arrays if and only if the table has every character
that is drawn. -/
theorem allInside_writeChars (font : Font) (BufferStr : List UInt8) (k : Nat) (s : Canvas) :
    (s.writeChars font BufferStr (3 * k)).AllInside ↔
      s.AllInside ∧ ∀ c ∈ (BufferStr.takeWhile (· ≠ 0)).take (48 - k),
        32 ≤ c.toNat ∧ c.toNat ≤ 127 := by
  induction BufferStr generalizing k s with
  | nil => simp [writeChars]
  | cons c BufferStr ih =>
    by_cases hdrawn : c ≠ 0 ∧ k < 48
    · obtain ⟨hc, hk⟩ := hdrawn
      have hroom : 48 - k = 48 - (k + 1) + 1 := by omega
      rw [writeChars_cons hc hk, ih, allInside_writeGlyph (W := 3 * k) (by unfold LineBytes; omega),
        allInside_GetASCIICode, List.takeWhile_cons_of_pos (by simpa using hc), hroom,
        List.take_succ_cons, List.forall_mem_cons, and_assoc]
    · have hstop : ¬ (c ≠ 0 ∧ 3 * k < LineBytes * 2) := by
        unfold LineBytes
        exact fun h => hdrawn ⟨h.1, by omega⟩
      have hnone : ((c :: BufferStr).takeWhile (· ≠ 0)).take (48 - k) = [] := by
        by_cases hc : c = 0
        · simp [hc]
        · have hfull : 48 - k = 0 := Nat.sub_eq_zero_of_le (not_lt.1 (not_and.1 hdrawn hc))
          rw [hfull, List.take_zero]
      rw [writeChars, if_neg hstop, hnone]
      simp

/-! ## The rows -/

@[simp] theorem length_rows : s.rows.length = 24 + GapDots := by simp [rows]

/-- The rows are those of the buffer. -/
theorem dot_rows (hy : y < 24 + GapDots) (hn : n < 576) :
    Bitmap.dot (s.rows.getD y []) n = Bitmap.dot s.MatricDot (576 * y + n) := by
  have hrow : s.rows[y]? = some ((s.MatricDot.drop (y * LineBytes)).take LineBytes) := by
    rw [rows, List.getElem?_map, List.getElem?_range hy, Option.map_some]
  have hplace : 8 * (y * LineBytes) = 576 * y := by unfold LineBytes; omega
  rw [List.getD_eq_getElem?_getD, hrow, Option.getD_some,
    Bitmap.dot_take (by unfold LineBytes; exact hn), Bitmap.dot_drop, hplace]

theorem length_of_mem_rows (hlen : s.MatricDot.length = (24 + GapDots) * LineBytes)
    {row : List UInt8} (hrow : row ∈ s.rows) : row.length = LineBytes := by
  obtain ⟨y, hy, rfl⟩ := List.mem_map.1 hrow
  have hy : y < 24 + GapDots := List.mem_range.1 hy
  unfold LineBytes GapDots at *
  rw [List.length_take, List.length_drop, hlen]
  omega

end Canvas

open Canvas

variable {font : Font} {BufferStr : List UInt8} {t : SelfTest} {s : Printer} {n y : Nat}

/-- What is drawn of a text, in the empty buffer. -/
theorem inked_drawLine (hNUL : ∀ c ∈ BufferStr, c ≠ 0) :
    Bitmap.Inked Canvas.empty.MatricDot (font.drawLine BufferStr).MatricDot
      (lineInk font BufferStr 0) :=
  inked_writeChars (k := 0) hNUL List.length_replicate

/-- The dots of a drawn text are those of the plain layout. -/
theorem dot_drawLine (hNUL : ∀ c ∈ BufferStr, c ≠ 0) (hy : y < 24 + GapDots) (hn : n < 576) :
    Bitmap.dot ((font.drawLine BufferStr).rows.getD y []) n =
      (decide (y < 24) && BufferStr[n / 12]?.any fun c =>
        Bitmap.dot (font.glyph c) (16 * y + n % 12)) := by
  have hempty : Bitmap.dot Canvas.empty.MatricDot (576 * y + n) = false := by
    rw [← List.append_nil Canvas.empty.MatricDot]
    unfold GapDots at hy
    exact Bitmap.dot_replicate_append (by unfold LineBytes GapDots; omega)
  have hrow : (576 * y + n) / 576 = y := by omega
  have hcolumn : (576 * y + n) % 576 = n := by omega
  rw [dot_rows hy hn, (inked_drawLine hNUL).dot, hempty, Bool.false_or, lineInk, hrow, hcolumn]
  simp

/-- **The text of a line.** For every text of characters 32 to 127, of any length, 28 rows of 72
bytes are queued. For each of the first 48 characters the 12 dots of its cell are the first 12 dots
of its glyph's rows, all other dots are blank, and every access is inside its array and its row. -/
theorem line_drawn (font : Font) (BufferStr : List UInt8)
    (hchars : ∀ c ∈ BufferStr, 32 ≤ c.toNat ∧ c.toNat ≤ 127) (s : Printer) :
    ∃ rows : List (List UInt8), font.SelfPrintWriteLines BufferStr s = s.drawn rows ∧
      rows.length = 28 ∧ (∀ row ∈ rows, row.length = 72) ∧
      (∀ k, ∀ h : k < BufferStr.length, k < 48 → ∀ y < 24, ∀ d < 12,
        Bitmap.dot (rows.getD y []) (12 * k + d) =
          Bitmap.dot (font.glyph BufferStr[k]) (16 * y + d)) ∧
      (∀ y < 28, ∀ n < 576, 24 ≤ y ∨ min BufferStr.length 48 ≤ n / 12 →
        Bitmap.dot (rows.getD y []) n = false) ∧
      ∀ a ∈ (font.drawLine BufferStr).accesses, a.Inside := by
  have hNUL : ∀ c ∈ BufferStr, c ≠ 0 := by
    rintro c hc rfl
    exact absurd (hchars 0 hc).1 (by decide)
  have hlen : (font.drawLine BufferStr).MatricDot.length = (24 + GapDots) * LineBytes :=
    (inked_drawLine hNUL).length.trans List.length_replicate
  refine ⟨(font.drawLine BufferStr).rows, Printer.foldl_WritePrintLinkedListB _ _, length_rows,
    fun row hrow => length_of_mem_rows hlen hrow, ?_, ?_, ?_⟩
  · intro k hk hcell y hy d hd
    have hindex : (12 * k + d) / 12 = k := by omega
    have hdot : (12 * k + d) % 12 = d := by omega
    rw [dot_drawLine hNUL (Nat.lt_add_right _ hy) (by omega), hindex, hdot,
      List.getElem?_eq_getElem hk]
    simp [hy]
  · intro y hy n hn hblank
    rw [dot_drawLine hNUL hy hn]
    rcases hblank with hgap | hbeyond
    · simp [not_lt.2 hgap]
    · have hnone : BufferStr.length ≤ n / 12 := by omega
      simp [List.getElem?_eq_none hnone]
  · refine (allInside_writeChars font BufferStr 0 _).2 ⟨List.forall_mem_nil _, ?_⟩
    exact fun c hc => hchars c ((List.takeWhile_sublist _).subset (List.mem_of_mem_take hc))

/-- A font of solid glyphs. -/
def Font.solid : Font := ⟨fun _ => List.replicate 48 0xff, fun _ => List.length_replicate⟩

/-- A text of two characters, the second one in the middle of a byte. -/
theorem line_drawn_solid : ∃ rows : List (List UInt8),
    Font.solid.SelfPrintWriteLines [0x4f, 0x4b] (Printer.init 1) = (Printer.init 1).drawn rows ∧
      rows.length = 28 ∧ Bitmap.dot (rows.getD 3 []) 23 = true ∧
      Bitmap.dot (rows.getD 3 []) 24 = false := by
  obtain ⟨rows, hqueued, hlen, -, hdots, hblank, -⟩ :=
    line_drawn Font.solid [0x4f, 0x4b] (by simp) (Printer.init 1)
  have hdot := hdots 1 (by decide) (by decide) 3 (by decide) 11 (by decide)
  have hsolid : Bitmap.dot (Font.solid.glyph 0x4b) (16 * 3 + 11) = true := by decide
  exact ⟨rows, hqueued, hlen, hdot.trans hsolid,
    hblank 3 (by decide) 24 (by decide) (.inr (by decide))⟩

/-! ## The page -/

/-- The bytes of a text, as a C string. -/
def bytes (line : String) : List UInt8 := line.toList.map fun c => .ofNat c.toNat

/-- Every sequence of bytes is that of a text. -/
theorem exists_bytes (BufferStr : List UInt8) : ∃ line, bytes line = BufferStr := by
  refine ⟨.ofList (BufferStr.map fun b => .ofNat b.toNat), ?_⟩
  have hbyte (b : UInt8) : UInt8.ofNat (Char.ofNat b.toNat).toNat = b := by
    have hvalid : b.toNat.isValidChar := .inl (by have := b.toNat_lt; omega)
    have hchar : (Char.ofNat b.toNat).toNat = b.toNat := by
      rw [Char.ofNat, dif_pos hvalid]
      rfl
    rw [hchar, UInt8.ofNat_toNat]
  rw [bytes, String.toList_ofList, List.map_map]
  exact (List.map_congr_left fun b _ => hbyte b).trans (List.map_id _)

/-- The rows that are drawn for a text with the font. -/
def Font.draw (font : Font) (line : String) (y : Nat) : List UInt8 :=
  (font.drawLine (bytes line)).rows.getD y []

/-- With the font, `SelfPrintWriteLines` is the code's. -/
theorem SelfPrintWriteLines_draw (line : String) :
    s.SelfPrintWriteLines font.draw line = font.SelfPrintWriteLines (bytes line) s := by
  unfold Printer.SelfPrintWriteLines Font.SelfPrintWriteLines
  refine congrArg (List.foldl Printer.WritePrintLinkedListB s) ?_
  refine List.ext_getElem (by simp [GapDots]) fun y h _ => ?_
  rw [List.getElem_map, List.getElem_range, Font.draw, List.getD_eq_getElem]

/-- A turn of the inner loop of `DotsCheck`, in the rows with every fourth dot from dot `p` on:
`if(j%4==p) Bytes[2+i]|=Jb[j]`. The row `Bytes`, and the accesses to it. -/
def checkDot (p i j : Nat) (s : List UInt8 × List Access) : List UInt8 × List Access :=
  if j % 4 = p then
    (s.1.modify (2 + i) (· ||| (0x80 : UInt8) >>> .ofNat j), s.2 ++ [.Bytes (2 + i)])
  else s

/-- The loops of `DotsCheck` over a row. -/
def checkRow (p : Nat) : List UInt8 × List Access :=
  (List.range 73).foldl (fun s i => (List.range 8).foldl (fun s j => checkDot p i j s) s)
    (List.replicate 72 0, [])

/-- The accesses of `DotsCheck`, 24 rows for each of the four phases. -/
def checkAccesses : List Access :=
  (List.range 4).flatMap fun p => (List.replicate 24 (checkRow p).2).flatten

/-- The accesses of `SelfPrintWriteLines` for lines of text. -/
def Font.textAccesses (font : Font) (lines : List String) : List Access :=
  lines.flatMap fun line => (font.drawLine (bytes line)).accesses

/-- The accesses of `SelfPrint`. -/
def SelfTest.accesses (font : Font) (t : SelfTest) : List Access :=
  font.textAccesses (firstPage ++ t.secondPage ++ t.thirdPage) ++ checkAccesses ++
    font.textAccesses [" Self page end!"]

/-- The loops over a row of the dots test make the row that is queued, with two writes to every
byte from the third on, and three bytes too far. -/
theorem checkRow_eq : ∀ p < 4, checkRow p =
    (SelfTest.dotsRow p, (List.range 73).flatMap fun i => [.Bytes (2 + i), .Bytes (2 + i)]) := by
  decide +kernel

/-- `DotsCheck` writes three bytes behind its row, in every row. -/
theorem mem_checkAccesses {a : Access} :
    a ∈ checkAccesses ∧ ¬ a.Inside ↔ a = .Bytes 72 ∨ a = .Bytes 73 ∨ a = .Bytes 74 := by
  have hmem : a ∈ checkAccesses ↔ ∃ i < 73, a = .Bytes (2 + i) := by
    unfold checkAccesses
    simp only [List.mem_flatMap, List.mem_range, List.mem_flatten, List.mem_replicate]
    constructor
    · rintro ⟨p, hp, _, ⟨-, rfl⟩, ha⟩
      rw [checkRow_eq p hp] at ha
      simpa using ha
    · intro ha
      refine ⟨0, by decide, _, ⟨by decide, rfl⟩, ?_⟩
      rw [checkRow_eq 0 (by decide)]
      simpa using ha
  rw [hmem]
  constructor
  · rintro ⟨⟨i, hi, rfl⟩, hout⟩
    simp only [Access.Inside] at hout
    simp only [Access.Bytes.injEq]
    omega
  · rintro (rfl | rfl | rfl)
    · exact ⟨⟨70, by decide, rfl⟩, by simp [Access.Inside]⟩
    · exact ⟨⟨71, by decide, rfl⟩, by simp [Access.Inside]⟩
    · exact ⟨⟨72, by decide, rfl⟩, by simp [Access.Inside]⟩

/-- The font table has every character of the text that the line has room for. -/
def Printable (line : String) : Prop :=
  ∀ c ∈ ((bytes line).takeWhile (· ≠ 0)).take 48, 32 ≤ c.toNat ∧ c.toNat ≤ 127

instance : DecidablePred Printable := fun _ => inferInstanceAs (Decidable (∀ _ ∈ _, _))

theorem textAccesses_inside_iff {lines : List String} :
    (∀ a ∈ font.textAccesses lines, a.Inside) ↔ ∀ line ∈ lines, Printable line := by
  rw [Font.textAccesses, List.forall_mem_flatMap]
  refine forall₂_congr fun line _ => ?_
  have h := allInside_writeChars font (bytes line) 0 Canvas.empty
  exact h.trans (and_iff_right (List.forall_mem_nil _))

/-- The texts of the page that do not depend on what is stored are printable. -/
theorem printable_firstPage :
    ∀ line ∈ SelfTest.firstPage ++ [" Self page end!"], Printable line := by
  decide +kernel

/-- **The texts of the page** are drawn inside their arrays if and only if all that is stored is
printable, as far as the lines have room. -/
theorem self_test_text_iff (font : Font) (t : SelfTest) :
    (∀ a ∈ font.textAccesses (SelfTest.firstPage ++ t.secondPage ++ t.thirdPage ++
      [" Self page end!"]), a.Inside) ↔ ∀ line ∈ t.secondPage ++ t.thirdPage, Printable line := by
  rw [textAccesses_inside_iff]
  have hfixed := printable_firstPage
  simp only [List.forall_mem_append] at hfixed ⊢
  exact ⟨fun ⟨⟨⟨_, hsecond⟩, hthird⟩, _⟩ => ⟨hsecond, hthird⟩,
    fun ⟨hsecond, hthird⟩ => ⟨⟨⟨hfixed.1, hsecond⟩, hthird⟩, hfixed.2⟩⟩

/-- Whatever is stored, `SelfPrint` writes to the byte behind the row of the dots test. -/
theorem mem_accesses (font : Font) (t : SelfTest) : .Bytes 72 ∈ t.accesses font := by
  obtain ⟨hmem, -⟩ := mem_checkAccesses.2 (.inl rfl)
  simp [SelfTest.accesses, hmem]

/-- **The self test page writes outside its buffers**, whatever is stored. -/
theorem self_test_never_inside (font : Font) (t : SelfTest) :
    ¬ ∀ a ∈ t.accesses font, a.Inside :=
  fun h => absurd (h _ (mem_accesses font t)) (by simp [Access.Inside])

/-- Already with printable names: a self test before anything was stored. -/
theorem self_test_outside : ¬ ∀ (font : Font) (t : SelfTest), ∀ a ∈ t.accesses font, a.Inside := by
  intro h
  have hnew := h Font.solid
    { draw := fun _ _ => [], gap_device_name := "wl80_ble_test", PID := "0001", VID := "4C4A",
      BLE_MAC := "00:00:00:00:00:00", EDR_MAC := "00:00:00:00:00:00",
      WiFiMAC := "00:00:00:00:00:00", SSIDSave := "", PASSWORDSave := "", IPAddress := "0.0.0.0",
      gap := none }
  exact absurd (hnew _ (mem_accesses _ _)) (by simp [Access.Inside])

end ThermalPrinter
