import ThermalPrinter.Lib.Bitmap
import Mathlib.Data.Nat.Bitwise
import ThermalPrinter.Lib.ShiftRegister
import ThermalPrinter.Paper.Head

/-!
# The serial interface of the head

`SoftSPI_Send` clocks a line into the head on three pins, the leftmost dot first, and `HeadLatchIn`
pulses the latch. The pins are bits of two ports of which the motor, the sensors and the LEDs have
others, so between two writes the ports may change, but for these three bits.

A head of 576 dots shows the latched lines one after another and at no moment anything else: while a
line is shifted in, the previous one stays (`lines_shown`). Each write of a pin is one action.
-/

namespace ThermalPrinter

open ShiftRegister

/-- `BIT`. -/
def BIT (n : Nat) : BitVec 32 := BitVec.twoPow 32 n

/-- `HeadLatchIOBit`. -/
def HeadLatchIOBit : BitVec 32 := BIT 1

/-- `HeadClkIOBit`. -/
def HeadClkIOBit : BitVec 32 := BIT 9

/-- `HeadDataIOBit`. -/
def HeadDataIOBit : BitVec 32 := BIT 8

/-- The output registers `JL_PORTA->OUT` and `JL_PORTC->OUT`. -/
structure Ports where
  A : BitVec 32
  C : BitVec 32
  deriving DecidableEq

/-- The writes of the head's pins, as `AppDriverGeneric.h` names them. -/
inductive PinWrite
  | HeadLatchHigh | HeadLatchLow | HeadClkHigh | HeadClkLow | HeadDataHigh | HeadDataLow
  deriving DecidableEq, Repr

/-- The ports after a write. -/
def PinWrite.write (ports : Ports) : PinWrite → Ports
  | .HeadLatchHigh => { ports with A := ports.A ||| HeadLatchIOBit }
  | .HeadLatchLow => { ports with A := ports.A &&& ~~~HeadLatchIOBit }
  | .HeadClkHigh => { ports with C := ports.C ||| HeadClkIOBit }
  | .HeadClkLow => { ports with C := ports.C &&& ~~~HeadClkIOBit }
  | .HeadDataHigh => { ports with C := ports.C ||| HeadDataIOBit }
  | .HeadDataLow => { ports with C := ports.C &&& ~~~HeadDataIOBit }

/-- `HeadLatchIn`. -/
def HeadLatchIn : List PinWrite := [.HeadLatchHigh, .HeadLatchLow, .HeadLatchLow, .HeadLatchHigh]

/-- The body of the inner loop of `SoftSPI_Send`: bit `j` of a byte. -/
def sendBit (v : UInt8) (j : Nat) : List PinWrite :=
  [.HeadClkLow, if v.toNat &&& 1 <<< j ≠ 0 then .HeadDataHigh else .HeadDataLow, .HeadClkHigh]

/-- The loop of `SoftSPI_Send` on the bytes. -/
def sendBytes (bytes : List UInt8) : List PinWrite :=
  bytes.flatMap fun v => [7, 6, 5, 4, 3, 2, 1, 0].flatMap (sendBit v)

/-- `SoftSPI_Send`: the writes, unless the loop reads outside the buffer. -/
def SoftSPI_Send (buf : List UInt8) (len : Nat) : Option (List PinWrite) :=
  let len := if len < 108 then 72 else len
  if len ≤ buf.length then
    some ([.HeadLatchHigh] ++ sendBytes (buf.take len) ++
      [.HeadLatchLow, .HeadLatchLow, .HeadLatchHigh])
  else none

/-- `PrinterDataIn` while the head prints, with the length of the line in an `unsigned char`. -/
def lineWrites (data : List UInt8) : Option (List PinWrite) :=
  (SoftSPI_Send data (data.length % 256)).map (· ++ HeadLatchIn)

namespace Ports

/-- The levels of the head's pins. -/
def pins (ports : Ports) : Pins where
  latch := ports.A.getLsbD 1
  clk := ports.C.getLsbD 9
  data := ports.C.getLsbD 8

/-- The writes are made one after another, and between them the other bits of the ports change. The
ports after each change are listed. -/
inductive Sends : Ports → List PinWrite → List Ports → Ports → Prop
  | done {ports : Ports} : Sends ports [] [] ports
  | write {ports ports' : Ports} {w : PinWrite} {ws : List PinWrite} {trace : List Ports} :
      Sends (w.write ports) ws trace ports' → Sends ports (w :: ws) (w.write ports :: trace) ports'
  | others {ports ports₁ ports' : Ports} {ws : List PinWrite} {trace : List Ports} :
      ports₁.pins = ports.pins → Sends ports₁ ws trace ports' →
      Sends ports ws (ports₁ :: trace) ports'

end Ports

/-! ## The levels that the writes give -/

/-- What a write does to the pins. -/
def PinWrite.level (p : Pins) : PinWrite → Pins
  | .HeadLatchHigh => { p with latch := true }
  | .HeadLatchLow => { p with latch := false }
  | .HeadClkHigh => { p with clk := true }
  | .HeadClkLow => { p with clk := false }
  | .HeadDataHigh => { p with data := true }
  | .HeadDataLow => { p with data := false }

/-- A write sets one pin. -/
theorem pins_write (w : PinWrite) (ports : Ports) : (w.write ports).pins = w.level ports.pins := by
  cases w <;> simp [PinWrite.write, PinWrite.level, Ports.pins, HeadLatchIOBit, HeadClkIOBit,
    HeadDataIOBit, BIT]

/-- The data levels at the rising edges. -/
def clocked (p : Pins) : List PinWrite → List Bool
  | [] => []
  | w :: ws =>
    (if Rises p (w.level p) then [(w.level p).data] else []) ++ clocked (w.level p) ws

namespace Ports.Sends

variable {ports ports' : Ports} {ws ws₁ ws₂ : List PinWrite} {trace : List Ports}

/-- The pins end at the levels that the writes give them. -/
theorem pins (h : Sends ports ws trace ports') :
    ports'.pins = ws.foldl PinWrite.level ports.pins := by
  induction h with
  | done => rfl
  | write _ ih => rw [ih, pins_write, List.foldl_cons]
  | others hpins _ ih => rw [ih, hpins]

/-- Writes are made in two parts. -/
theorem split (h : Sends ports (ws₁ ++ ws₂) trace ports') :
    ∃ trace₁ trace₂ mid, trace = trace₁ ++ trace₂ ∧ Sends ports ws₁ trace₁ mid ∧
      Sends mid ws₂ trace₂ ports' := by
  generalize hws : ws₁ ++ ws₂ = ws at h
  induction h generalizing ws₁ with
  | @done ports =>
    obtain ⟨rfl, rfl⟩ := List.append_eq_nil_iff.1 hws
    exact ⟨[], [], ports, rfl, .done, .done⟩
  | @write ports ports' w ws trace hrest ih =>
    cases ws₁ with
    | nil =>
      rw [List.nil_append] at hws
      exact ⟨[], _, ports, rfl, .done, hws ▸ .write hrest⟩
    | cons w₁ ws₁ =>
      obtain ⟨rfl, htail⟩ := List.cons.inj hws
      obtain ⟨trace₁, trace₂, mid, rfl, hfirst, hlast⟩ := ih htail
      exact ⟨_ :: trace₁, trace₂, mid, rfl, .write hfirst, hlast⟩
  | others hpins _ ih =>
    obtain ⟨trace₁, trace₂, mid, rfl, hfirst, hlast⟩ := ih hws
    exact ⟨_ :: trace₁, trace₂, mid, rfl, .others hpins hfirst, hlast⟩

/-- Behind a raised latch the clocked bits are shifted in. -/
theorem shifts (h : Sends ports ws trace ports') (hlatch : ports.pins.latch = true)
    (hws : PinWrite.HeadLatchLow ∉ ws) :
    Shifts ports.pins (trace.map Ports.pins) (clocked ports.pins ws) ports'.pins := by
  induction h with
  | done => exact .nil
  | @write ports ports' w ws trace _ ih =>
    have hhigh : (w.level ports.pins).latch = true := by
      cases w with
      | HeadLatchLow => exact absurd (List.mem_cons_self ..) hws
      | HeadLatchHigh => rfl
      | HeadClkHigh | HeadClkLow | HeadDataHigh | HeadDataLow => exact hlatch
    have hrest := ih (pins_write .. ▸ hhigh) fun hm => hws (List.mem_cons_of_mem _ hm)
    rw [pins_write] at hrest
    rw [List.map_cons, pins_write, clocked]
    split
    · next hrises => exact .edge hhigh hrises hrest
    · next hrises => exact .still hhigh hrises hrest
  | others hpins _ ih =>
    have hrest := ih (hpins ▸ hlatch) hws
    rw [List.map_cons, hpins]
    rw [hpins] at hrest
    exact .still hlatch not_rises hrest

/-- Without a write that raises the clock it rests, and a write that lowers the latch shows the
register. -/
theorem rests (h : Sends ports ws trace ports') (hws : PinWrite.HeadClkHigh ∉ ws) :
    ∃ low, Rests ports.pins (trace.map Ports.pins) low ports'.pins ∧
      (PinWrite.HeadLatchLow ∈ ws → low = true) := by
  have hcons {p p₁ p' : Pins} {wave : List Pins} {low : Bool} (hrises : ¬ Rises p p₁)
      (hrest : Rests p₁ wave low p') : ∃ low', Rests p (p₁ :: wave) low' p' ∧
        (p₁.latch = false → low' = true) ∧ (low = true → low' = true) := by
    cases hlatch : p₁.latch with
    | true => exact ⟨low, .high hlatch hrises hrest, nofun, id⟩
    | false => exact ⟨true, .low hlatch hrises hrest, fun _ => rfl, fun _ => rfl⟩
  induction h with
  | done => exact ⟨false, .nil, nofun⟩
  | @write ports ports' w ws trace _ ih =>
    obtain ⟨low, hrest, hlow⟩ := ih fun hm => hws (List.mem_cons_of_mem _ hm)
    rw [pins_write] at hrest
    have hrises : ¬ Rises ports.pins (w.level ports.pins) := by
      cases w with
      | HeadClkHigh => exact absurd (List.mem_cons_self ..) hws
      | HeadClkLow => exact fun h => Bool.false_ne_true h.2
      | HeadLatchHigh | HeadLatchLow | HeadDataHigh | HeadDataLow => exact not_rises
    obtain ⟨low', hrests, hnow, hlater⟩ := hcons hrises hrest
    rw [List.map_cons, pins_write]
    refine ⟨low', hrests, fun hm => ?_⟩
    rcases List.mem_cons.1 hm with rfl | hm
    · exact hnow rfl
    · exact hlater (hlow hm)
  | others hpins _ ih =>
    obtain ⟨low, hrest, hlow⟩ := ih hws
    rw [hpins] at hrest
    obtain ⟨low', hrests, -, hlater⟩ := hcons not_rises hrest
    rw [List.map_cons, hpins]
    exact ⟨low', hrests, fun hm => hlater (hlow hm)⟩

end Ports.Sends

/-! ## A line on the wire -/

/-- What the head shows of a line: a dot for each of its dots. -/
def lineDots (line : List UInt8) : List Bool := (List.range LineDecodeDots).map (Bitmap.dot line)

/-- A line that the firmware latches: a row, or the blank line. -/
def Latchable (line : List UInt8) : Prop := line.length = PrintlineBytes ∨ line = blank

section

variable {p : Pins} {ws ws' : List PinWrite} {v : UInt8}

theorem clocked_append :
    clocked p (ws ++ ws') = clocked p ws ++ clocked (ws.foldl PinWrite.level p) ws' := by
  induction ws generalizing p with
  | nil => rfl
  | cons w ws ih => rw [List.cons_append, clocked, clocked, ih, List.append_assoc, List.foldl_cons]

/-- Bit `j` of a byte is on the data pin when the clock rises. -/
theorem clocked_sendBit {j : Nat} : clocked p (sendBit v j) = [v.toNat.testBit j] := by
  have hbit : (v.toNat &&& 1 <<< j ≠ 0) ↔ v.toNat.testBit j = true := by
    rw [Nat.one_shiftLeft, Nat.and_two_pow]
    cases v.toNat.testBit j <;> simp
  unfold sendBit
  simp only [hbit]
  cases v.toNat.testBit j <;> simp [clocked, PinWrite.level, Rises]

theorem clocked_flatMap {α : Type} {f : α → List PinWrite} {g : α → List Bool}
    (h : ∀ p a, clocked p (f a) = g a) (as : List α) :
    clocked p (as.flatMap f) = as.flatMap g := by
  induction as generalizing p with
  | nil => rfl
  | cons a as ih => rw [List.flatMap_cons, List.flatMap_cons, clocked_append, h, ih]

/-- **A line is clocked in from the leftmost dot on.** -/
theorem clocked_sendBytes (bytes : List UInt8) :
    clocked p (sendBytes bytes) = Bitmap.allDots bytes := by
  rw [sendBytes, clocked_flatMap fun p v => clocked_flatMap (fun p j => clocked_sendBit) _]
  induction bytes with
  | nil => rfl
  | cons v bytes ih =>
    rw [List.flatMap_cons, ih, Bitmap.allDots_cons]
    rfl

end

/-- The writes after those for the dots. -/
def latchWrites : List PinWrite := [.HeadLatchLow, .HeadLatchLow, .HeadLatchHigh] ++ HeadLatchIn

/-- The writes of several lines. -/
def linesWrites : List (List UInt8) → Option (List PinWrite)
  | [] => some []
  | line :: lines => do
    let ws ← lineWrites line
    let rest ← linesWrites lines
    return ws ++ rest

section

variable {ports ports' : Ports} {ws : List PinWrite} {trace : List Ports} {r : Register}
  {line : List UInt8} {lines : List (List UInt8)}

/-- A line of the length that `SoftSPI_Send` sends is sent, and not read outside its buffer. -/
theorem lineWrites_of_length
    (h : (if line.length % 256 < 108 then 72 else line.length % 256) = line.length) :
    lineWrites line = some ([.HeadLatchHigh] ++ (sendBytes line ++ latchWrites)) := by
  unfold lineWrites SoftSPI_Send
  dsimp only
  rw [h, if_pos (Nat.le_refl _), List.take_length, Option.map_some, List.append_assoc,
    List.append_assoc]
  rfl

/-- A line is sent, and the last 576 dots that are sent are its dots. -/
theorem lineWrites_eq (h : Latchable line) :
    lineWrites line = some ([.HeadLatchHigh] ++ (sendBytes line ++ latchWrites)) ∧
      LineDecodeDots ≤ (Bitmap.allDots line).length ∧
      (Bitmap.allDots line).drop ((Bitmap.allDots line).length - LineDecodeDots) =
        lineDots line := by
  rcases h with hlen | rfl
  · have hdots : (Bitmap.allDots line).length = LineDecodeDots := by
      rw [Bitmap.allDots, List.length_map, List.length_range, hlen]
      decide
    refine ⟨lineWrites_of_length (by rw [hlen]; decide), hdots.ge, ?_⟩
    rw [hdots, Nat.sub_self, List.drop_zero, Bitmap.allDots, lineDots, hlen]
    rfl
  · exact ⟨lineWrites_of_length (by decide +kernel), by decide +kernel, by decide +kernel⟩

/-- Behind a raised latch the writes of a line transfer its dots. -/
theorem Ports.Sends.transfer {bytes : List UInt8} {lead : List PinWrite}
    (hlead : lead = [] ∨ lead = [.HeadLatchHigh]) (hlatch : ports.pins.latch = true)
    (h : ports.Sends (lead ++ (sendBytes bytes ++ latchWrites)) trace ports') :
    Transfer ports.pins (trace.map Ports.pins) (Bitmap.allDots bytes) ports'.pins ∧
      ports'.pins.latch = true := by
  rw [← List.append_assoc] at h
  obtain ⟨trace₁, trace₂, mid, rfl, hdots, hpulse⟩ := h.split
  have hlow : PinWrite.HeadLatchLow ∉ lead ++ sendBytes bytes := by
    have hbit (v : UInt8) (j : Nat) : PinWrite.HeadLatchLow ∉ sendBit v j := by
      unfold sendBit
      split <;> simp
    rw [List.mem_append, sendBytes, List.mem_flatMap]
    rintro (hm | ⟨v, -, hm⟩)
    · rcases hlead with rfl | rfl <;> simp at hm
    · obtain ⟨j, -, hm⟩ := List.mem_flatMap.1 hm
      exact hbit v j hm
  have hclocked : clocked ports.pins (lead ++ sendBytes bytes) = Bitmap.allDots bytes := by
    have hnil : clocked ports.pins lead = [] := by
      rcases hlead with rfl | rfl
      · rfl
      · rw [clocked, clocked, List.append_nil]
        exact if_neg not_rises
    rw [clocked_append, hnil, List.nil_append, clocked_sendBytes]
  have hshifts := hdots.shifts hlatch hlow
  obtain ⟨low, hrests, hshow⟩ := hpulse.rests (by decide)
  rw [hshow (by decide)] at hrests
  refine ⟨⟨_, _, _, List.map_append, hclocked ▸ hshifts, hrests⟩, ?_⟩
  rw [hpulse.pins]
  rfl

/-- Behind a raised latch the writes of several lines transfer their dots. -/
theorem Ports.Sends.transfers (hlines : ∀ line ∈ lines, Latchable line)
    (hws : linesWrites lines = some ws) (hlatch : ports.pins.latch = true)
    (h : ports.Sends ws trace ports') :
    ∃ words, Transfers ports.pins (trace.map Ports.pins) words ports'.pins ∧
      (∀ bits ∈ words, LineDecodeDots ≤ bits.length) ∧
      words.map (fun bits => bits.drop (bits.length - LineDecodeDots)) = lines.map lineDots := by
  induction lines generalizing ports ws trace with
  | nil =>
    cases hws
    exact ⟨[], .nil (h.shifts hlatch List.not_mem_nil), nofun, rfl⟩
  | cons line lines ih =>
    obtain ⟨hline, hlen, hdots⟩ := lineWrites_eq (hlines line (List.mem_cons_self ..))
    rw [linesWrites, hline] at hws
    obtain ⟨rest, hrest, hall⟩ : ∃ rest, linesWrites lines = some rest ∧
        [.HeadLatchHigh] ++ (sendBytes line ++ latchWrites) ++ rest = ws := by
      simpa [Option.bind_eq_some_iff] using hws
    subst hall
    obtain ⟨trace₁, trace₂, mid, rfl, hfirst, hlast⟩ := h.split
    obtain ⟨htransfer, hmid⟩ := hfirst.transfer (.inr rfl) hlatch
    obtain ⟨words, htransfers, hlens, hwords⟩ :=
      ih (fun l hm => hlines l (List.mem_cons_of_mem _ hm)) hrest hmid hlast
    refine ⟨Bitmap.allDots line :: words, List.map_append ▸ .cons htransfer htransfers, ?_, ?_⟩
    · rintro bits (_ | ⟨_, hm⟩)
      · exact hlen
      · exact hlens bits hm
    · rw [List.map_cons, hdots, hwords, List.map_cons]

/-- The writes of some lines are defined, and begin by raising the latch. -/
theorem linesWrites_cons (h : Latchable line) (hlines : ∀ line ∈ lines, Latchable line) :
    ∃ rest, linesWrites lines = some rest ∧ linesWrites (line :: lines) =
      some ([.HeadLatchHigh] ++ ((sendBytes line ++ latchWrites) ++ rest)) := by
  have hdefined : ∃ rest, linesWrites lines = some rest := by
    induction lines with
    | nil => exact ⟨[], rfl⟩
    | cons line lines ih =>
      obtain ⟨rest, hrest⟩ := ih fun l hm => hlines l (List.mem_cons_of_mem _ hm)
      have hline := (lineWrites_eq (hlines line (List.mem_cons_self ..))).1
      exact ⟨_, by rw [linesWrites, hline, hrest]; rfl⟩
  obtain ⟨rest, hrest⟩ := hdefined
  refine ⟨rest, hrest, ?_⟩
  rw [linesWrites, (lineWrites_eq h).1, hrest]
  exact congrArg some (List.append_assoc ..)

/-- **The head shows the lines**, whatever it showed before and wherever the latch was: once the
latch has been raised it goes on showing what it does, and then the lines in order, and at no moment
anything else. -/
theorem lines_shown (h : Latchable line) (hlines : ∀ line ∈ lines, Latchable line) :
    ∃ ws, linesWrites (line :: lines) = some ([.HeadLatchHigh] ++ ws) ∧
      ∀ (ports ports' : Ports) (trace : List Ports) (r : Register),
        r.bits.length = LineDecodeDots → ports.Sends ([.HeadLatchHigh] ++ ws) trace ports' →
        ∃ trace₀ trace₁ mid, trace = trace₀ ++ trace₁ ∧
          ports.Sends [.HeadLatchHigh] trace₀ mid ∧
          let r₀ := r.run ports.pins (trace₀.map Ports.pins)
          Stretches (r₀.outputs :: (line :: lines).map lineDots)
            (r₀.outputs :: r₀.shown mid.pins (trace₁.map Ports.pins)) := by
  obtain ⟨rest, hrest, hws⟩ := linesWrites_cons h hlines
  refine ⟨_, hws, fun ports ports' trace r hr hsends => ?_⟩
  obtain ⟨trace₀, trace₁, mid, rfl, hraise, hsends⟩ := hsends.split
  refine ⟨trace₀, trace₁, mid, rfl, hraise, ?_⟩
  have hlatch : mid.pins.latch = true := by rw [hraise.pins]; rfl
  obtain ⟨trace₂, trace₃, mid', rfl, hfirst, hlast⟩ := hsends.split
  obtain ⟨htransfer, hmid'⟩ := hfirst.transfer (.inl rfl) hlatch
  obtain ⟨words, htransfers, hlens, hwords⟩ := hlast.transfers hlines hrest hmid'
  obtain ⟨-, hlen, hdots⟩ := lineWrites_eq h
  obtain ⟨low, hrests, -⟩ := hraise.rests (by decide)
  have hr₀ : (r.run ports.pins (trace₀.map Ports.pins)).bits.length = LineDecodeDots := by
    rw [hrests.run.1]
    exact hr
  have hall : ∀ bits ∈ Bitmap.allDots line :: words, LineDecodeDots ≤ bits.length := by
    rintro bits (_ | ⟨_, hm⟩)
    · exact hlen
    · exact hlens bits hm
  have hshown := (Transfers.cons htransfer htransfers).shown hall hr₀
  rwa [List.map_cons, hdots, hwords, ← List.map_cons, ← List.map_append] at hshown

end

end ThermalPrinter
