import ThermalPrinter.Parser.Bounds
import ThermalPrinter.Parser.Packet

/-!
# What a packet leaves waiting

Most handlers want one byte more than they read, the scan wants a byte behind a head, and it passes
an idle byte only with eight bytes at hand. So a command that is the last thing in the stream waits
for what comes after it, and so do idle bytes at which no command can begin. What should be left of
a packet is a proper prefix of a command: no command in it is complete (`Unfinished`), and its first
byte begins one (`Begun`). `Held` and `Astray` say where the parser leaves more than that, and
`RunsOut` and `Strays` say of the bytes of a packet that they end there, or that a compressed block
fails in front of such bytes, which are then not looked at.
-/

namespace ThermalPrinter

open Lookahead

namespace Decoder

variable {d d' : Decoder} {u v w : List UInt8} {b : UInt8} {h : CMDStatus × List UInt8}

/-- The byte ends the row being decoded. -/
def EndsRow (d : Decoder) (b : UInt8) : Prop :=
  match d.LineDeCodeWrite with
  | .UserDefineCommandHead => b &&& 0x80 = 0 ∧ LineDecodeDots ≤ d.Dots + 1
  | .UserDefineCommandData => LineDecodeDots ≤ d.Dots + (b.toNat + 1)

/-- The bytes hold no complete command: in the state that waits for arguments they are fewer than
its arguments, and to the scan they are idle bytes, at which no head begins, and then nothing, or a
head with fewer bytes than its arguments. -/
inductive Unfinished : Decoder → List UInt8 → Prop
  | args {d : Decoder} {u : List UInt8} : u.length < d.pending → Unfinished d u
  | token {d : Decoder} {b : UInt8} {u : List UInt8} : d.DecodeStatus = .CommandLineStart →
      ¬ d.EndsRow b → Unfinished (d.token b).1 u → Unfinished d (b :: u)
  | size {d : Decoder} {u : List UInt8} : d.DecodeStatus = .CommandZipStart → u.length < 2 →
      Unfinished d u
  | sized {d : Decoder} {high low : UInt8} {u : List UInt8} : d.DecodeStatus = .CommandZipStart →
      Unfinished { d with
        ZipSize := high.toNat * 256 + low.toNat, DecodeStatus := .CommandZipData } u →
      Unfinished d (high :: low :: u)
  | data {d : Decoder} {u : List UInt8} : d.DecodeStatus = .CommandZipData →
      u.length < d.ZipSize - d.Write → Unfinished d u
  | nil {d : Decoder} : d.Scanning → Unfinished d []
  | idle {d : Decoder} {b : UInt8} {u : List UInt8} : d.Scanning →
      (∀ h ∈ CMDHead, ¬ h.2 <+: b :: u) → Unfinished d u → Unfinished d (b :: u)
  | head {d : Decoder} {h : CMDStatus × List UInt8} {u : List UInt8} : d.Scanning →
      h ∈ CMDHead → Unfinished (d.enter h.1) u → Unfinished d (h.2 ++ u)

/-- The bytes are idle bytes, at which no head begins, and then the head and further bytes. -/
def Begins (u : List UInt8) (h : CMDStatus × List UInt8) (v : List UInt8) : Prop :=
  ∃ idle, u = idle ++ (h.2 ++ v) ∧
    ∀ i < idle.length, ∀ m ∈ CMDHead, ¬ m.2 <+: (idle ++ (h.2 ++ v)).drop i

/-- The arguments of a command of up to six bytes are there. -/
def Arrived (status : CMDStatus) (v : List UInt8) : Prop :=
  match status with
  | .CommandPageStart | .CommandLineEnd | .CommandPageEnd => True
  | .CommandSpeed | .commandSetPID => 2 ≤ v.length
  | .CommandDensity | .CommandPaperType => 1 ≤ v.length
  | _ => False

/-- The parser stops although a command is complete: exactly the arguments of a speed, a PID, a
density or a paper type are there, or exactly the last byte of a row, or, to the scan, the first
command among the bytes. -/
def Held (d : Decoder) (u : List UInt8) : Prop :=
  match d.DecodeStatus with
  | .CommandSpeed | .commandSetPID => u.length = 2
  | .CommandDensity | .CommandPaperType => u.length = 1
  | .CommandLineStart => ∃ b, u = [b] ∧ d.EndsRow b
  | .CommandPageStart | .CommandLineEnd | .CommandPageEnd | .CommandZipStart | .CommandZipData
  | .commandNVSWiFi | .commandSetBTName => False
  | _ => ∃ h ∈ CMDHead, ∃ v, Begins u h v ∧ Arrived h.1 v

/-- Where the parser stops for want of bytes: fewer are left than its state needs, and none inside
block data. -/
structure Waiting (d : Decoder) (u : List UInt8) : Prop where
  short : d.DecodeStatus ≠ .CommandZipData → u.length < d.need
  data : d.DecodeStatus = .CommandZipData → u = [] ∧ d.Write < d.ZipSize

/-- Where the parser stops in a packet: for want of bytes, in the packet or in the bytes that a
block in it inflates to, and `P` holds of what is unread; or behind a block that is rejected or
fails while it inflates, and `Q` holds of it. -/
inductive Stops (z : Zlib) (P Q : Decoder → List UInt8 → Prop) (d : Decoder) (w : List UInt8) : Prop
  | plain {es : List Event} {d₁ : Decoder} {u₁ : List UInt8} :
      parser.Steps d w es d₁ u₁ → parser.Blocked d₁ u₁ → ¬ d₁.AtBlock u₁ → P d₁ u₁ → Stops z P Q d w
  | inflated {es es' : List Event} {d₁ d₂ : Decoder} {b : UInt8} {rest u₂ : List UInt8}
      {strm : z.z_stream} {pieces : List (List UInt8)} :
      parser.Steps d w es d₁ (b :: rest) → parser.Blocked d₁ (b :: rest) →
      d₁.AtBlock (b :: rest) → d₁.Write + 1 = d₁.ZipSize →
      z.inflateInit2 (d₁.blockData b) = some strm → z.Output strm pieces true →
      Printer.Calm (d₁.inflating b) rest pieces →
      parser.Feeds (d₁.inflating b) rest pieces es' d₂ u₂ → P d₂ u₂ → Stops z P Q d w
  | rejected {es : List Event} {d₁ : Decoder} {b : UInt8} {rest : List UInt8} :
      parser.Steps d w es d₁ (b :: rest) → parser.Blocked d₁ (b :: rest) →
      d₁.AtBlock (b :: rest) → d₁.Write + 1 = d₁.ZipSize →
      z.inflateInit2 (d₁.blockData b) = none →
      Q ((d₁.inflating b).released false) rest → Stops z P Q d w
  | failed {es es' : List Event} {d₁ d₂ : Decoder} {b : UInt8} {rest u₂ : List UInt8}
      {strm : z.z_stream} {pieces : List (List UInt8)} :
      parser.Steps d w es d₁ (b :: rest) → parser.Blocked d₁ (b :: rest) →
      d₁.AtBlock (b :: rest) → d₁.Write + 1 = d₁.ZipSize →
      z.inflateInit2 (d₁.blockData b) = some strm → z.Output strm pieces false →
      Printer.Calm (d₁.inflating b) rest pieces →
      parser.Feeds (d₁.inflating b) rest pieces es' d₂ u₂ →
      Q (d₂.released false) u₂ → Stops z P Q d w

/-- A byte queues a row exactly when it ends it. -/
theorem token_cases (d : Decoder) (b : UInt8) :
    d.EndsRow b ∧ price (d.token b).2 = 8 ∨ ¬ d.EndsRow b ∧ (d.token b).2 = [] := by
  unfold token EndsRow
  cases d.LineDeCodeWrite with
  | UserDefineCommandHead =>
    simp only [headByte]
    by_cases hrun : b &&& 0x80 ≠ 0
    · rw [if_pos hrun]
      exact .inr ⟨fun h => hrun h.1, rfl⟩
    · rw [if_neg hrun]
      rcases finish_cases { d with
        DotsMatric :=
          if b &&& 0x7f ≠ 0 ∧ d.Dots < 576 then Printer.setDot d.DotsMatric d.Dots
          else d.DotsMatric
        Dots := d.Dots + 1 } with ⟨hfull, hprice, -⟩ | ⟨hnot, heq⟩
      · exact .inl ⟨⟨not_not.1 hrun, hfull⟩, hprice⟩
      · rw [heq]
        exact .inr ⟨fun h => hnot h.2, rfl⟩
  | UserDefineCommandData =>
    simp only [countByte]
    rcases finish_cases { d with
      DotsMatric :=
        if d.DotValue then Printer.fillDots d.DotsMatric d.Dots (b.toNat + 1) else d.DotsMatric
      Dots := d.Dots + (b.toNat + 1) } with ⟨hfull, hprice, -⟩ | ⟨hnot, heq⟩
    · exact .inl ⟨hfull, hprice⟩
    · rw [heq]
      exact .inr ⟨hnot, rfl⟩

/-- A byte that does not end the row leaves the decoder in it. -/
theorem token_stays (hs : d.DecodeStatus = .CommandLineStart) (hb : ¬ d.EndsRow b) :
    (d.token b).1.DecodeStatus = .CommandLineStart := by
  rcases token_cases d b with ⟨h, -⟩ | ⟨-, hnil⟩
  · exact absurd h hb
  · rw [Printer.token_DecodeStatus, if_pos hnil, hs]

/-- Seven bytes do not hold a row. -/
theorem unfinished_row (hs : d.DecodeStatus = .CommandLineStart) (hu : d.saved + u.length ≤ 7) :
    Unfinished d u := by
  induction u generalizing d with
  | nil => exact .args (by simp [pending, hs])
  | cons b u ih =>
    have hpays := token_pays hs b
    rw [List.length_cons] at hu
    rcases token_cases d b with ⟨-, hprice⟩ | ⟨hb, -⟩
    · omega
    · exact .token hs hb (ih (token_stays hs hb) (by omega))

/-- What is left of a row goes on with a byte that does not end it. -/
theorem unfinished_token (hs : d.DecodeStatus = .CommandLineStart) :
    Unfinished d (b :: u) ↔ ¬ d.EndsRow b ∧ Unfinished (d.token b).1 u := by
  refine ⟨fun hu => ?_, fun hu => .token hs hu.1 hu.2⟩
  generalize hw : b :: u = w at hu
  cases hu with
  | args hlt =>
    rw [← hw] at hlt
    simp [pending, hs] at hlt
  | token _ hb hrest =>
    cases hw
    exact ⟨hb, hrest⟩
  | size hz | sized hz | data hz =>
    rw [hs] at hz
    cases hz
  | nil hscan | idle hscan | head hscan => exact absurd hs (fun h => hscan.1 (by rw [h]; decide))

/-- In the other states that take arguments, fewer bytes than these are left. -/
theorem unfinished_args (hm : d.DecodeStatus ∈ CMDHead.map Prod.fst)
    (hl : d.DecodeStatus ≠ .CommandLineStart) (hz : d.DecodeStatus ≠ .CommandZipStart) :
    Unfinished d u ↔ u.length < d.pending := by
  refine ⟨fun hu => ?_, .args⟩
  cases hu with
  | args hlt => exact hlt
  | token h => exact absurd h hl
  | size h | sized h => exact absurd h hz
  | data h =>
    rw [h] at hm
    exact absurd hm (by decide)
  | nil h | idle h | head h => exact absurd hm h.1

/-! ## The scan -/

/-- The scan passes a byte at which no head begins. -/
theorem unfinished_skip (hd : d.Scanning) (hno : ∀ h ∈ CMDHead, ¬ h.2 <+: b :: u) :
    Unfinished d (b :: u) ↔ Unfinished d u := by
  refine ⟨fun hu => ?_, .idle hd hno⟩
  generalize hw : b :: u = w at hu
  cases hu with
  | args hlt => exact absurd hlt (by rw [hd.pending_eq]; exact Nat.not_lt_zero _)
  | token h | size h | sized h => exact absurd h (fun h => hd.1 (by rw [h]; decide))
  | data h => exact absurd h hd.2
  | nil => cases hw
  | idle _ _ hrest =>
    cases hw
    exact hrest
  | head _ hm => exact absurd (hw ▸ List.prefix_append ..) (hno _ hm)

/-- The scan enters a head. -/
theorem unfinished_head (hd : d.Scanning) (hm : h ∈ CMDHead) :
    Unfinished d (h.2 ++ v) ↔ Unfinished (d.enter h.1) v := by
  refine ⟨fun hu => ?_, .head hd hm⟩
  generalize hw : h.2 ++ v = w at hu
  cases hu with
  | args hlt => exact absurd hlt (by rw [hd.pending_eq]; exact Nat.not_lt_zero _)
  | token h | size h | sized h => exact absurd h (fun h => hd.1 (by rw [h]; decide))
  | data h => exact absurd h hd.2
  | nil =>
    have := (head_length hm).1
    rw [(List.append_eq_nil_iff.1 hw).1] at this
    exact absurd this (by decide)
  | idle _ hno => exact absurd (hw ▸ List.prefix_append ..) (hno _ hm)
  | @head _ m v' _ hm' hrest =>
    have hmh : h = m := by
      rcases List.prefix_or_prefix_of_prefix (hw ▸ List.prefix_append h.2 v)
        (List.prefix_append m.2 v') with hp | hp
      · exact head_eq_of_begins hm hm' hp
      · exact (head_eq_of_begins hm' hm hp).symm
    subst hmh
    rwa [List.append_cancel_left hw]

/-- The scan passes the idle bytes and enters the head after them. -/
theorem unfinished_begins (hd : d.Scanning) (hm : h ∈ CMDHead) (hb : Begins u h v) :
    Unfinished d u ↔ Unfinished (d.enter h.1) v := by
  obtain ⟨idle, rfl, hno⟩ := hb
  induction idle with
  | nil => exact unfinished_head hd hm
  | cons b idle ih =>
    have hskip : ∀ m ∈ CMDHead, ¬ m.2 <+: b :: (idle ++ (h.2 ++ v)) := hno 0 (by simp)
    rw [List.cons_append, unfinished_skip hd hskip]
    refine ih fun i hi => ?_
    exact hno (i + 1) (by simpa using hi)

/-- The bytes are idle bytes alone, or a head is the first in them. -/
theorem begins_or_unfinished (hd : d.Scanning) (u : List UInt8) :
    (∃ h ∈ CMDHead, ∃ v, Begins u h v) ∨ Unfinished d u := by
  induction u with
  | nil => exact .inr (.nil hd)
  | cons b u ih =>
    by_cases hno : ∀ h ∈ CMDHead, ¬ h.2 <+: b :: u
    · rcases ih with ⟨h, hm, v, idle, rfl, hidle⟩ | hu
      · refine .inl ⟨h, hm, v, b :: idle, rfl, ?_⟩
        intro i hi
        cases i with
        | zero => exact hno
        | succ i => exact hidle i (by simpa using hi)
      · exact .inr (.idle hd hno hu)
    · obtain ⟨h, hm, v, hv⟩ : ∃ h ∈ CMDHead, ∃ v, h.2 ++ v = b :: u := by
        simpa [List.IsPrefix] using hno
      exact .inl ⟨h, hm, v, [], hv.symm, nofun⟩

theorem enter_DecodeStatus (d : Decoder) (status : CMDStatus) :
    (d.enter status).DecodeStatus = status := by
  unfold enter
  split <;> rfl

/-- A head with up to seven bytes in all: the command is complete, or its arguments are not there.
-/
theorem unfinished_enter (hm : h ∈ CMDHead) (hl : h.2.length + v.length ≤ 7) :
    Unfinished (d.enter h.1) v ↔ ¬ Arrived h.1 v := by
  have hs := enter_DecodeStatus d h.1
  have hmem : h.1 ∈ CMDHead.map Prod.fst := List.mem_map_of_mem hm
  by_cases hrow : h.1 = .CommandLineStart
  · have hsaved := enter_pays (d := d) h.1
    have h2 := (head_length hm).1
    refine iff_of_true (unfinished_row (hs.trans hrow) (by omega)) ?_
    simp [Arrived, hrow]
  · by_cases hz : h.1 = .CommandZipStart
    · have hlen : ∀ h ∈ CMDHead, h.1 = .CommandZipStart → h.2.length = 6 := by decide
      have := hlen h hm hz
      exact iff_of_true (.size (hs.trans hz) (by omega)) (by simp [Arrived, hz])
    · rw [unfinished_args (by rwa [hs]) (by rwa [hs]) (by rwa [hs])]
      have hlen : ∀ h ∈ CMDHead, 2 ≤ h.2.length ∧ (h.1 = .commandNVSWiFi → h.2.length = 8) := by
        decide
      have h2 := hlen h hm
      revert h2 hmem hrow hz
      unfold pending Arrived
      rw [hs]
      cases h.1 <;> simp [CMDHead] <;> omega

/-! ## The states the parser stops in -/

/-- **Where the parser stops, a command is left complete exactly if it is held back.** -/
theorem unfinished_iff (hw : d.Waiting u) : Unfinished d u ↔ ¬ d.Held u := by
  have hshort := hw.short
  cases hs : d.DecodeStatus
  case CommandZipData =>
    obtain ⟨rfl, hlt⟩ := hw.data hs
    exact iff_of_true (.data hs (Nat.sub_pos_of_lt hlt)) (by simp [Held, hs])
  case CommandZipStart =>
    simp only [need, hs, ne_eq, reduceCtorEq, not_false_eq_true, forall_const] at hshort
    exact iff_of_true (.size hs hshort) (by simp [Held, hs])
  case CommandLineStart =>
    simp only [need, hs, ne_eq, reduceCtorEq, not_false_eq_true, forall_const] at hshort
    cases u with
    | nil => exact iff_of_true (.args (by simp [pending, hs])) (by simp [Held, hs])
    | cons b u =>
      obtain rfl : u = [] := List.length_eq_zero_iff.1 (by rw [List.length_cons] at hshort; omega)
      have hheld : d.Held [b] ↔ d.EndsRow b := by simp [Held, hs]
      rw [unfinished_token hs, hheld]
      exact ⟨And.left, fun hb => ⟨hb, .args (by simp [pending, token_stays hs hb])⟩⟩
  case CommandTotalNum | CommandZipCheck | CommandNVSPID | CommandIdle =>
    have hd : d.Scanning := by simp [Scanning, CMDHead, hs]
    have hheld : d.Held u ↔ ∃ h ∈ CMDHead, ∃ v, Begins u h v ∧ Arrived h.1 v := by
      simp only [Held, hs]
    simp only [need, hs, ne_eq, reduceCtorEq, not_false_eq_true, forall_const,
      MAxHeadLength] at hshort
    have hsplit : ∀ h v, Begins u h v → h.2.length + v.length ≤ 7 := by
      rintro h v ⟨idle, rfl, -⟩
      simp only [List.length_append] at hshort
      omega
    rw [hheld]
    constructor
    · rintro hu ⟨h, hm, v, hb, harr⟩
      rw [unfinished_begins hd hm hb, unfinished_enter hm (hsplit h v hb)] at hu
      exact hu harr
    · intro hnot
      rcases begins_or_unfinished hd u with ⟨h, hm, v, hb⟩ | hu
      · rw [unfinished_begins hd hm hb, unfinished_enter hm (hsplit h v hb)]
        exact fun harr => hnot ⟨h, hm, v, hb, harr⟩
      · exact hu
  case commandNVSWiFi | commandSetBTName =>
    simp only [need, hs, ne_eq, reduceCtorEq, not_false_eq_true, forall_const] at hshort
    exact iff_of_true (.args (by simpa [pending, hs] using hshort)) (by simp [Held, hs])
  all_goals
    rw [unfinished_args (by rw [hs]; decide) (by simp [hs]) (by simp [hs])]
    simp only [need, hs, ne_eq, reduceCtorEq, not_false_eq_true, forall_const] at hshort
    simp only [pending, Held, hs]
    omega

/-- Blocked, and not at a block, the parser waits. -/
theorem waiting_of_blocked (hblk : parser.Blocked d u) (hat : ¬ d.AtBlock u) : d.Waiting u where
  short hs := blocked_lt hs hblk
  data hs := by
    have hnot : ¬ (d.ZipSize ≤ d.Write ∨ u ≠ []) := fun h => hat ⟨hs, h⟩
    rw [not_or, not_not] at hnot
    exact ⟨hnot.2, Nat.lt_of_not_le hnot.1⟩

/-- The parser waits as well when its block is released. -/
theorem Waiting.released (hw : d.Waiting u) : (d.released true).Waiting u where
  short := hw.short
  data hs := ⟨(hw.data hs).1, Nat.lt_of_le_of_lt (Nat.zero_le _) (hw.data hs).2⟩

/-- Fed packets without coming to a block, the parser waits. -/
theorem waiting_of_feeds {ps : List (List UInt8)} {es : List Event} (hcalm : Printer.Calm d u ps)
    (hf : parser.Feeds d u ps es d' v) (hps : ps ≠ []) : d'.Waiting v := by
  induction hf with
  | nil => exact absurd rfl hps
  | @cons _ _ _ _ _ _ _ ps _ _ hs hblk hrest ih =>
    obtain ⟨hat, hcalm'⟩ := hcalm _ _ _ hs hblk
    cases ps with
    | nil =>
      cases hrest
      exact waiting_of_blocked hblk hat
    | cons => exact ih hcalm' nofun

/-- Bytes that make the parser stop so leave what is said of it there. -/
theorem Stops.reads {z : Zlib} {P Q : Decoder → List UInt8 → Prop}
    (hP : ∀ d u, P d u → P (d.released true) u) (hr : Stops z P Q d w) :
    ∃ es d' u', Reads z d w es d' u' ∧ (d'.Waiting u' ∧ P d' u' ∨ Q d' u') := by
  cases hr with
  | plain hs hblk hat h =>
    exact ⟨_, _, _, .plain hs hblk hat, .inl ⟨waiting_of_blocked hblk hat, h⟩⟩
  | inflated hs hblk hat hw hinit hout hcalm hf h =>
    exact ⟨_, _, _, .inflated hs hblk hat hw hinit hout hcalm hf,
      .inl ⟨(waiting_of_feeds hcalm hf hout.ne_nil).released, hP _ _ h⟩⟩
  | rejected hs hblk hat hw hinit h => exact ⟨_, _, _, .rejected hs hblk hat hw hinit, .inr h⟩
  | failed hs hblk hat hw hinit hout hcalm hf h =>
    exact ⟨_, _, _, .inflated hs hblk hat hw hinit hout hcalm hf, .inr h⟩

end Decoder

namespace Printer

variable {s s' : Printer} {env : Env} {fuel : Nat} {data : List UInt8}

end Printer

end ThermalPrinter
