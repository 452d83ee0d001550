import ThermalPrinter.Parser.Progress

/-!
# Compressed blocks expand in place

A block that ends with its packet is inflated from the state the parser would be in without the
block, and its pieces are fed to the parser one after another. So a stream of commands and blocks
acts like the stream in which every block is replaced by its inflated bytes (`feedAll_expanded`),
provided that every block ends with its packet and begins between two commands, as the content in
its place does (`Delivery.Starts`), and that the inflated stream leads neither into another block
nor to `NVS-WiFi` (`Smooth`). Bytes that follow a block in the same packet are read before the
inflated bytes (`finishBlock_inflates`), and this is where the expansion is not in place
(`tail_before_content`).
-/

namespace ThermalPrinter

open Lookahead

namespace Decoder

variable {d d' d₁ : Decoder} {u u' v w : List UInt8} {es es₁ : List Event} {b : UInt8}
  {z : Option (List UInt8)} {n k : Nat}

/-- The decoder without its block. -/
def outside (d : Decoder) : Decoder := d.setZip none 0 0

/-- The decoder is inside a block. -/
def InBlock (d : Decoder) : Prop :=
  d.DecodeStatus = .CommandZipStart ∨ d.DecodeStatus = .CommandZipData

/-- The reader does not leave a block. -/
theorem InBlock.steps (hd : d.InBlock) (h : parser.Steps d w es d' u') : d'.InBlock := by
  induction h with
  | refl => exact hd
  | head h _ ih =>
    refine ih ?_
    rcases hd with hd | hd <;> simp only [parser_react, react, hd] at h
    · obtain ⟨-, rfl, -, -⟩ := arg_eq_some.1 h
      exact .inr rfl
    · unfold fetch at h
      split at h
      · obtain ⟨-, rfl, -, -⟩ := arg_eq_some.1 h
        exact .inr hd
      · split at h
        · obtain ⟨-, rfl, -, -⟩ := arg_eq_some.1 h
          exact .inr hd
        · cases h

/-- A run that ends outside a block does not look at the block. -/
theorem steps_setZip (hd : ¬ d'.InBlock) (h : parser.Steps d u es d' u') :
    parser.Steps (d.setZip z k n) u es (d'.setZip z k n) u' := by
  induction h with
  | refl => exact .refl
  | @head d d₁ _ u _ _ _ _ h hrest ih =>
    have hout : ¬ d.InBlock := fun hin => hd (hin.steps (.head h hrest))
    rw [parser_react] at h
    have h' : parser.react (d.setZip z k n) u = _ :=
      react_setZip (fun h => hout (.inl h)) (fun h => hout (.inr h))
    rw [h] at h'
    exact .head h' (ih hd)

/-- A decoder outside a block is blocked whatever its block is. -/
theorem blocked_setZip (hd : ¬ d.InBlock) (h : parser.Blocked d u) :
    parser.Blocked (d.setZip z k n) u := by
  rw [parser_blocked] at h ⊢
  rw [react_setZip (fun h => hd (.inl h)) (fun h => hd (.inr h)), h]
  rfl

/-- A run to a state outside blocks does not look at the block, so clear input is clear. -/
theorem Clear.setZip (h : d.Clear w) : (d.setZip z k n).Clear w := by
  intro es d' w' hsteps hscan hp
  have hout : ¬ d'.InBlock := by
    rintro (hs | hs)
    · exact hscan.1 (by rw [hs]; decide)
    · exact hscan.2 hs
  have hsame : parser.Steps d w es (d'.setZip d.zipData d.Write d.ZipSize) w' :=
    steps_setZip (d := d.setZip z k n) hout hsteps
  exact h _ _ _ hsame hscan hp

/-- The way through the bytes is smooth: the reader comes into no block, and the scan does not stand
at `NVS-WiFi`, unless nothing follows it. -/
def Smooth (d : Decoder) (w : List UInt8) : Prop :=
  d.Clear w ∧ ∀ es d' w', parser.Steps d w es d' w' → ¬ d'.InBlock

theorem Smooth.not_inBlock (h : d.Smooth w) : ¬ d.InBlock := h.2 _ _ _ .refl

/-- The way is smooth further on. -/
theorem Smooth.steps (h : d.Smooth w) (hs : parser.Steps d w es d' u') : d'.Smooth u' :=
  ⟨parser_stable.steps hs h.1, fun _ _ _ hsteps => h.2 _ _ _ (hs.trans hsteps)⟩

/-- The way is smooth before the last bytes have arrived. -/
theorem Smooth.of_append (h : d.Smooth (w ++ v)) : d.Smooth w :=
  ⟨h.1.of_append, fun _ _ _ hs => h.2 _ _ _ (hs.append parser_stable v h.1)⟩

theorem Smooth.undisturbed (h : d.Smooth w) : d.Undisturbed w :=
  ⟨h.1, fun _ _ _ hs _ hat => h.2 _ _ _ hs (.inr hat.1)⟩

/-- A way that ends outside blocks was never in one. -/
theorem Undisturbed.smooth (h : d.Undisturbed w) (hs : parser.Steps d w es d' u')
    (hb : parser.Blocked d' u') (hout : ¬ d'.InBlock) : d.Smooth w := by
  refine ⟨h.1, fun _ _ _ hsteps hin => ?_⟩
  obtain ⟨_, -, hrest⟩ := hsteps.extend hs hb
  exact hout (hin.steps hrest)

/-- On quiet input the way is smooth. -/
theorem Quiet.smooth (hq : d.Quiet w) : d.Smooth w :=
  ⟨hq.undisturbed.1, fun _ _ _ hs hin => hin.elim (hq.steps hs).1 (hq.steps hs).2.1⟩

/-- On a smooth way the reader comes to no block. -/
theorem Smooth.calm {ps : List (List UInt8)} (h : d.Smooth (u ++ ps.flatten)) :
    Printer.Calm d u ps := by
  induction ps generalizing d u with
  | nil => trivial
  | cons p ps ih =>
    intro es d' u' hsteps _
    rw [List.flatten_cons, ← List.append_assoc] at h
    have h' := h.steps (hsteps.append parser_stable _ h.1)
    exact ⟨fun hat => h'.not_inBlock (.inr hat.1), ih h'⟩

/-- Whether the way is smooth does not depend on the block. -/
theorem Smooth.setZip (h : d.Smooth w) : (d.setZip z k n).Smooth w := by
  refine ⟨h.1.setZip, fun es d' w' hsteps => ?_⟩
  generalize hd : d.setZip z k n = d₀ at hsteps
  induction hsteps generalizing d with
  | refl =>
    subst hd
    exact h.not_inBlock
  | head hr _ ih =>
    subst hd
    rw [parser_react, react_setZip (fun hs => h.not_inBlock (.inl hs))
      (fun hs => h.not_inBlock (.inr hs)), Option.map_eq_some_iff] at hr
    obtain ⟨⟨d₁, u₁, es₁⟩, hr, heq⟩ := hr
    cases heq
    exact ih (h.steps (.single hr)) rfl

/-! ## In front of a block -/

/-- `NVS-WiFi` does not end in bytes that begin with an `A`. -/
theorem nvs_prefix {t : List UInt8} (h : nvsWiFi <+: u ++ 0x41 :: t) : nvsWiFi <+: u := by
  rcases List.prefix_or_prefix_of_prefix h (List.prefix_append ..) with h' | ⟨r, hr⟩
  · exact h'
  · cases r with
    | nil => rw [List.append_nil] at hr; exact ⟨[], by simp [hr]⟩
    | cons c r =>
      rw [← hr, List.prefix_append_right_inj, List.cons_prefix_cons] at h
      have hmem : (0x41 : UInt8) ∈ nvsWiFi := by rw [← hr, ← h.1]; simp
      exact absurd hmem (by decide)

/-- The head of a block is entered. -/
theorem react_angenl {t : List UInt8} (hd : d.DecodeStatus = .CommandIdle) (ht : t ≠ []) :
    d.react (angenl ++ t) = some ({ d with DecodeStatus := .CommandZipStart }, t, []) := by
  have hf : findHead (angenl ++ t) = some (.CommandZipStart, angenl) :=
    findHead_iff.2 ⟨by decide, by
      have := List.length_pos_iff.2 ht
      simp only [List.length_append]
      omega, List.prefix_append ..⟩
  simp only [react, hd, scan, hf, enter]
  rw [if_neg (by decide), List.drop_left]

/-- A state that waits for arguments does not look at what follows them and eight bytes more. -/
theorem arg_of_append {need use : Nat} {f : List UInt8 → Decoder × List Event}
    (hneed : need ≤ use + MAxHeadLength) (hlen : MAxHeadLength ≤ u'.length)
    (h : arg need use f (u ++ v) = some (d', u' ++ v, es)) :
    arg need use f u = some (d', u', es) := by
  obtain ⟨-, rfl, hdrop, rfl⟩ := arg_eq_some.1 h
  have hle := congrArg List.length hdrop
  have hpos : 0 < MAxHeadLength := by decide
  simp only [List.length_drop, List.length_append] at hle
  have huse : use ≤ u.length := by omega
  rw [List.take_append_of_le_length huse]
  rw [List.drop_append_of_le_length huse, List.append_cancel_right_eq] at hdrop
  exact arg_eq_some.2 ⟨by omega, rfl, hdrop, rfl⟩

/-- Nor does the scan. -/
theorem scan_of_append (hlen : MAxHeadLength ≤ u'.length)
    (h : d.scan (u ++ v) = some (d', u' ++ v, es)) : d.scan u = some (d', u', es) := by
  have hdropped {k : Nat} (hdrop : (u ++ v).drop k = u' ++ v) (hk : k ≤ (u ++ v).length) :
      k + u'.length = u.length ∧ u.drop k = u' := by
    have hle := congrArg List.length hdrop
    simp only [List.length_drop, List.length_append] at hle hk
    have huse : k ≤ u.length := by omega
    rw [List.drop_append_of_le_length huse, List.append_cancel_right_eq] at hdrop
    exact ⟨by omega, hdrop⟩
  have hpos : 0 < MAxHeadLength := by decide
  unfold scan at h ⊢
  split at h
  next st head hf =>
    obtain ⟨hm, hlt, hpre⟩ := findHead_iff.1 hf
    simp only [Option.some.injEq, Prod.mk.injEq] at h
    obtain ⟨hd, hdrop, hes⟩ := h
    obtain ⟨hk, hu⟩ := hdropped hdrop (Nat.le_of_lt hlt)
    have hf' : findHead u = some (st, head) := by
      have hlt' : head.length < u.length := by omega
      refine findHead_iff.2 ⟨hm, hlt', ?_⟩
      exact List.prefix_of_prefix_length_le hpre (List.prefix_append ..) (Nat.le_of_lt hlt')
    rw [hf']
    simp only [Option.some.injEq, Prod.mk.injEq]
    exact ⟨hd, hu, hes⟩
  next hf =>
    split at h
    next hl =>
      simp only [Option.some.injEq, Prod.mk.injEq] at h
      obtain ⟨hd, hdrop, hes⟩ := h
      obtain ⟨hk, hu⟩ := hdropped hdrop (Nat.le_trans (by decide) hl)
      have hf' : findHead u = none := by
        by_contra hne
        obtain ⟨m, hm⟩ := Option.ne_none_iff_exists'.1 hne
        rw [findHead_append hm] at hf
        cases hf
      have hl' : MAxHeadLength ≤ u.length := by omega
      rw [hf']
      simp only [hl', if_true, Option.some.injEq, Prod.mk.injEq]
      exact ⟨hd, hu, hes⟩
    next => cases h

/-- A reaction that leaves eight of the bytes does not look at what follows them. -/
theorem react_of_append (hlen : MAxHeadLength ≤ u'.length)
    (h : d.react (u ++ v) = some (d', u' ++ v, es)) : d.react u = some (d', u', es) := by
  unfold react at h ⊢
  split at h
  case h_9 =>
    unfold fetch at h ⊢
    split at h
    · exact arg_of_append (Nat.zero_le _) hlen h
    · split at h
      next hs =>
        rw [if_pos hs]
        exact arg_of_append (by decide) hlen h
      next => cases h
  case h_13 => exact scan_of_append hlen h
  all_goals exact arg_of_append (by decide) hlen h

/-- Nor does a run. -/
theorem steps_of_append (hlen : MAxHeadLength ≤ u'.length)
    (h : parser.Steps d (u ++ v) es d' (u' ++ v)) : parser.Steps d u es d' u' := by
  generalize hw : u ++ v = w, hw' : u' ++ v = w' at h
  induction h generalizing u with
  | refl =>
    obtain rfl := List.append_cancel_right (hw.trans hw'.symm)
    exact .refl
  | head hr hrest ih =>
    subst hw hw'
    obtain ⟨k, -, hk, rfl⟩ := react_drop hr
    have hle := (steps_suffix hrest).length_le
    simp only [List.length_drop, List.length_append] at hle hk
    have hpos : 0 < MAxHeadLength := by decide
    have huse : k ≤ u.length := by omega
    rw [List.drop_append_of_le_length huse] at hr ih
    refine .head (react_of_append ?_ hr) (ih rfl rfl)
    rw [List.length_drop]
    omega

/-- The scan does not get past `NVS-WiFi` without a byte behind it. -/
theorem nvs_stuck (hd : d.Scanning) (h : parser.Steps d nvsWiFi es d' []) : False := by
  cases h with
  | head hr hrest =>
    have hskip : d.scan nvsWiFi = some (d, nvsWiFi.drop 1, []) := by
      rw [scan, show findHead nvsWiFi = none by decide]
      rfl
    rw [parser_react, react_scanning hd, hskip, Option.some.injEq, Prod.mk.injEq,
      Prod.mk.injEq] at hr
    obtain ⟨rfl, rfl, rfl⟩ := hr
    have hblk : parser.Blocked d (nvsWiFi.drop 1) := by
      rw [parser_blocked, react_scanning hd, scan,
        show findHead (nvsWiFi.drop 1) = none by decide]
      rfl
    exact absurd (hrest.of_blocked hblk).2.1 (by decide)

/-! ## Reading a block -/

/-- The decoder with the first `k` bytes of a block stored. -/
def storing (d : Decoder) (data : List UInt8) (k : Nat) : Decoder :=
  { d with
    DecodeStatus := .CommandZipData
    ZipSize := data.length
    zipData := some (data.take k ++ List.replicate (data.length - k) 0)
    Write := k }

/-- Storing the next byte of a block. -/
theorem set_stored {data : List UInt8} (hk : k < data.length) :
    (data.take k ++ List.replicate (data.length - k) 0).set k data[k] =
      data.take (k + 1) ++ List.replicate (data.length - (k + 1)) 0 := by
  rw [List.set_append_right _ _ (by rw [List.length_take]; omega), List.length_take,
    show k - min k data.length = 0 by omega,
    show data.length - k = data.length - (k + 1) + 1 by omega, List.replicate_succ,
    List.set_cons_zero, List.take_succ_eq_append_getElem hk, List.append_assoc]
  rfl

/-- The head and the size of a block are read, and the block is allocated. -/
theorem steps_opened (data : List UInt8) {high low : UInt8} (hd : d.DecodeStatus = .CommandIdle)
    (hz : d.zipData = none) (hw : d.Write = 0)
    (hsize : high.toNat * 256 + low.toNat = data.length) :
    parser.Steps d (angenl ++ high :: low :: u) [] (d.storing data 0) u := by
  have h₁ : parser.react d (angenl ++ high :: low :: u) = _ := react_angenl hd nofun
  have h₂ : parser.react { d with DecodeStatus := .CommandZipStart } (high :: low :: u) =
      some ({ d with DecodeStatus := .CommandZipData, ZipSize := data.length }, u, []) := by
    rw [parser_react, react, ← hsize]
    exact arg_eq_some.2 ⟨by simp, rfl, rfl, rfl⟩
  have h₃ : parser.react { d with DecodeStatus := .CommandZipData, ZipSize := data.length } u =
      some (d.storing data 0, u, []) := by
    rw [parser_react, react]
    simp only [fetch, hz]
    refine arg_eq_some.2 ⟨Nat.zero_le _, ?_, rfl, rfl⟩
    simp [storing, hw]
  simpa using Reader.Steps.head h₁ (.head h₂ (.head h₃ .refl))

/-- The bytes of a block but its last one are stored one by one. -/
theorem steps_storing (data v : List UInt8) (hk : k < data.length) :
    parser.Steps (d.storing data 0) (data ++ v) [] (d.storing data k) (data.drop k ++ v) := by
  induction k with
  | zero => exact .refl
  | succ k ih =>
    have hk' : k < data.length := by omega
    have hlen : (data.take k ++ List.replicate (data.length - k) 0).length = data.length := by
      simp only [List.length_append, List.length_take, List.length_replicate]
      omega
    have hr : parser.react (d.storing data k) (data.drop k ++ v) =
        some (d.storing data (k + 1), data.drop (k + 1) ++ v, []) := by
      rw [parser_react, Printer.react_fetch (d := d.storing data k) rfl rfl,
        if_pos (by simp only [storing, hlen]; omega), List.drop_eq_getElem_cons hk',
        List.cons_append]
      refine arg_eq_some.2 ⟨by simp, ?_, rfl, rfl⟩
      simp only [List.take_succ_cons, List.take_zero, List.getD_cons_zero, storing,
        set_stored hk']
    exact (ih hk').trans (.single hr)

end Decoder

/-- A compressed block: at least one byte of data, which inflate without an error. -/
structure Block (z : Zlib) where
  data : List UInt8
  strm : z.z_stream
  pieces : List (List UInt8)
  data_ne : data ≠ []
  size_lt : data.length < 65536
  init : z.inflateInit2 data = some strm
  output : z.Output strm pieces true

namespace Block

variable {z : Zlib}

/-- The inflated bytes. -/
def content (c : Block z) : List UInt8 := c.pieces.flatten

/-- What follows the head of the block: the size, high byte first, and the data. -/
def sized (c : Block z) : List UInt8 :=
  UInt8.ofNat (c.data.length / 256) :: UInt8.ofNat (c.data.length % 256) :: c.data

/-- The block as it is sent. -/
def bytes (c : Block z) : List UInt8 := angenl ++ c.sized

theorem sized_ne (c : Block z) : c.sized ≠ [] := by simp [sized]

/-- **A block is read** up to its last byte, and the reader is blocked there. -/
theorem steps_bytes (c : Block z) {d : Decoder} (hd : d.DecodeStatus = .CommandIdle)
    (hz : d.zipData = none) (hw : d.Write = 0) :
    ∃ dN b, parser.Steps d c.bytes [] dN [b] ∧ parser.Blocked dN [b] ∧ dN.AtBlock [b] ∧
      dN.Write + 1 = dN.ZipSize ∧ (dN.zipData.getD []).length = dN.ZipSize ∧
      dN.blockData b = c.data ∧
      dN.inflating b = d.setZip (dN.inflating b).zipData (dN.inflating b).Write dN.ZipSize := by
  have hsize : (UInt8.ofNat (c.data.length / 256)).toNat * 256 +
      (UInt8.ofNat (c.data.length % 256)).toNat = c.data.length := by
    have := c.size_lt
    simp only [UInt8.toNat_ofNat']
    omega
  have hpos : 0 < c.data.length := List.length_pos_iff.2 c.data_ne
  obtain ⟨n, hn⟩ : ∃ n, c.data.length = n + 1 := ⟨c.data.length - 1, by omega⟩
  have hn' : n < c.data.length := by omega
  have hlast : c.data.drop n = [c.data[n]] := by
    rw [List.drop_eq_getElem_cons hn', List.drop_of_length_le (by omega)]
  have hstoring := Decoder.steps_storing (d := d) (k := n) c.data [] hn'
  rw [hlast, List.append_nil, List.append_nil] at hstoring
  have hstored : (c.data.take n ++ List.replicate (c.data.length - n) 0).set n c.data[n] =
      c.data := by
    rw [Decoder.set_stored hn', ← hn, List.take_length, Nat.sub_self, List.replicate_zero,
      List.append_nil]
  refine ⟨_, _, (Decoder.steps_opened c.data hd hz hw hsize).trans hstoring, ?_,
    ⟨rfl, .inr (by simp)⟩, hn.symm, ?_, ?_, ?_⟩
  · rw [parser_blocked, Printer.react_fetch (d := d.storing c.data n) rfl rfl, if_neg]
    simp only [Decoder.storing]
    omega
  · simp only [Decoder.storing, Option.getD_some, List.length_append, List.length_take,
      List.length_replicate]
    omega
  · simp only [Decoder.blockData, Decoder.storing, Option.getD_some, hstored, List.take_length]
  · rw [Decoder.inflating, Decoder.setZip, ← hd]
    rfl

end Block

/-- A stretch of bytes and the block after it, with the packets they arrive in: the block ends with
its packet. With each packet goes the number of rows the printing side takes before it. -/
structure Delivery (z : Zlib) where
  plain : List UInt8
  block : Block z
  packets : List (Nat × List UInt8)
  last : Nat × List UInt8
  last_ne : last.2 ≠ []
  cut : (packets.map Prod.snd).flatten ++ last.2 = plain ++ block.bytes

namespace Delivery

variable {z : Zlib}

/-- The packets of the delivery. -/
def sent (c : Delivery z) : List (Nat × List UInt8) := c.packets ++ [c.last]

/-- The bytes of the delivery, the block replaced by its content. -/
def expanded (c : Delivery z) : List UInt8 := c.plain ++ c.block.content

/-- The block begins between two commands of the expanded stream: the reader comes to it, and there
to the first byte of its content, idle and with the same output. -/
def Starts (c : Delivery z) (d : Decoder) (u : List UInt8) (es : List Event) (d₁ : Decoder) :
    Prop :=
  d₁.DecodeStatus = .CommandIdle ∧
    parser.Steps d (u ++ c.plain ++ c.block.bytes) es d₁ c.block.bytes ∧
    parser.Steps d (u ++ c.plain ++ c.block.content) es d₁ c.block.content

/-- Every block of the deliveries begins between two commands of the expanded stream. -/
def Between : Decoder → List UInt8 → List (Delivery z) → Prop
  | _, _, [] => True
  | d, u, c :: cs =>
    (∃ es d₁, c.Starts d u es d₁) ∧
      ∀ es d' u', parser.Steps d (u ++ c.expanded) es d' u' → parser.Blocked d' u' →
        Between d' u' cs

variable {c : Delivery z} {d d₁ : Decoder} {u : List UInt8} {es : List Event}

/-- Where a block begins does not depend on the block before it. -/
theorem Starts.setZip {zip : Option (List UInt8)} {k n : Nat} (h : c.Starts d u es d₁) :
    c.Starts (d.setZip zip k n) u es (d₁.setZip zip k n) := by
  have hout : ¬ d₁.InBlock := by
    rintro (hs | hs) <;> rw [h.1] at hs <;> cases hs
  exact ⟨h.1, Decoder.steps_setZip hout h.2.1, Decoder.steps_setZip hout h.2.2⟩

/-- On the way to a block, and inside it, the scan does not stand at `NVS-WiFi`. -/
theorem Starts.clear (h : c.Starts d u es d₁) (hq : d.Smooth (u ++ c.expanded)) :
    d.Clear (u ++ c.plain ++ c.block.bytes) := by
  rw [expanded, ← List.append_assoc] at hq
  obtain ⟨hidle, hto, hcontent⟩ := h
  intro es' d' w' hsteps hscan hp
  exfalso
  rcases hsteps.linear hto with ⟨es'', hrest⟩ | ⟨es'', hfrom⟩
  · -- before the block, `NVS-WiFi` would be in the bytes before it
    obtain ⟨t, rfl⟩ := Decoder.steps_suffix hrest
    have ht : nvsWiFi <+: t := Decoder.nvs_prefix hp
    have hlen : MAxHeadLength ≤ t.length := ht.length_le
    have hplain := Decoder.steps_of_append hlen hsteps
    obtain rfl := hq.of_append.1 _ _ _ hplain hscan ht
    -- nothing follows it in the expanded stream, which the scan then does not read to its end
    have hsame := hplain.append Decoder.parser_stable _ hq.1
    have hnil := hq.1 _ _ _ hsame hscan (List.prefix_append ..)
    rw [List.append_right_eq_self.1 hnil, List.append_nil] at hcontent hsame
    rcases hsame.linear hcontent with ⟨_, hstuck⟩ | ⟨_, hback⟩
    · exact Decoder.nvs_stuck hscan hstuck
    · exact absurd (Decoder.steps_suffix hback).length_le (by decide)
  · -- at the block, or inside it
    cases hfrom with
    | refl => exact absurd (List.cons_prefix_cons.1 hp).1 (by decide)
    | head hr hrest =>
      have hr' : d₁.react (angenl ++ c.block.sized) = _ :=
        Decoder.react_angenl hidle c.block.sized_ne
      rw [show parser.react = Decoder.react from rfl, Block.bytes, hr', Option.some.injEq,
        Prod.mk.injEq] at hr
      obtain ⟨rfl, -⟩ := hr
      rcases Decoder.InBlock.steps (.inl rfl) hrest with h' | h'
      · exact hscan.1 (by rw [h']; decide)
      · exact hscan.2 h'

end Delivery

namespace Printer

variable {env : Env} {s s' : Printer} {es : List Event} {d₁ : Decoder}

/-- Packets fed one after another, and then more packets. -/
theorem feedAll_append (env : Env) (fuel : Nat) (ps qs : List (Nat × List UInt8)) (s : Printer) :
    feedAll env fuel (ps ++ qs) s = feedAll env fuel ps s >>= fun r =>
      match r with
      | none => .ok none
      | some s => feedAll env fuel qs s := by
  induction ps generalizing s with
  | nil => rfl
  | cons p ps ih =>
    rw [List.cons_append, feedAll, feedAll]
    cases feed env fuel p.2 (s.takeRows p.1) with
    | error e => rfl
    | ok q =>
      obtain ⟨_ | _, s₁⟩ := q
      · rfl
      · exact ih s₁

/-- A single packet. -/
theorem feedAll_single (env : Env) (fuel : Nat) (p : Nat × List UInt8) (s : Printer) :
    feedAll env fuel [p] s =
      (feed env fuel p.2 (s.takeRows p.1)).map fun r => if r.1 then some r.2 else none := by
  rw [feedAll]
  cases feed env fuel p.2 (s.takeRows p.1) with
  | error e => rfl
  | ok q => obtain ⟨_ | _, s₁⟩ := q <;> rfl

/-- A packet with the last byte of a block: the block is inflated after the bytes that follow it in
the packet. -/
theorem feed_inflates {data rest : List UInt8} {b : UInt8} {dN : Decoder}
    {strm : env.zlib.z_stream} {pieces : List (List UInt8)} {ended : Bool} (hfair : env.Fair)
    (hroom : s.PrintBLink.length < PrintLinkedListCount)
    (hsteps : parser.Steps s.decoder (s.remainder ++ data) es dN (b :: rest))
    (hblk : parser.Blocked dN (b :: rest)) (hat : dN.AtBlock (b :: rest))
    (hw : dN.Write + 1 = dN.ZipSize) (hlen : (dN.zipData.getD []).length = dN.ZipSize)
    (hinit : env.zlib.inflateInit2 (dN.blockData b) = some strm)
    (hout : env.zlib.Output strm pieces ended) (hcalm : Calm (dN.inflating b) rest pieces) :
    ∃ s' d' es' n, (∀ fuel, n ≤ fuel → feed env fuel data s = .ok (true, s')) ∧
      parser.Feeds (dN.inflating b) rest pieces es' d' s'.remainder ∧
      s'.decoder = d'.released ended ∧ s'.log = s.log ++ es ++ es' := by
  have hb : (s.realloc data).InBuffer := Nat.zero_le _
  obtain ⟨s₁, es₁, j, hran, hblk₁, hend⟩ := PrintDataProcesser_reaches env hb rfl
  obtain ⟨rfl, hu, rfl⟩ := hsteps.unique hblk hran.steps hblk₁
  rcases hend with ⟨-, hat', -⟩ | ⟨-, -, hrun⟩
  · rw [← hu] at hat'
    exact absurd hat hat'
  · obtain ⟨s', d', es', n, hfin, hfeeds, hd, hlog⟩ := finishBlock_inflates hfair hran.inBuffer
      hu.symm hw (show s₁.decoder.Write < (s₁.decoder.zipData.getD []).length by omega) hinit hout
      hcalm
    refine ⟨s', d', es', j + n + 1, ?_, hfeeds, hd, by rw [hlog, hran.log]; rfl⟩
    intro fuel hfuel
    obtain ⟨i, rfl⟩ := Nat.exists_eq_add_of_le hfuel
    rw [feed_room hroom, show j + n + 1 + i = j + (n + i) + 1 by omega,
      hrun]
    unfold finishBlock at hfin
    rw [hfin (n + i) (by omega)]
    rfl

/-- The packets before the one in which a block gets its last byte do not disturb. -/
theorem undisturbed_before_last {d dN : Decoder} {u v : List UInt8} {b : UInt8} (hv : v ≠ [])
    (hclear : d.Clear (u ++ v)) (hrun : parser.Steps d (u ++ v) es dN [b])
    (hblkN : parser.Blocked dN [b]) (hwN : dN.Write + 1 = dN.ZipSize) : d.Undisturbed u := by
  refine ⟨hclear.of_append, ?_⟩
  intro es' d' w' hsteps' hblk' hat'
  obtain ⟨hat'', hblk''⟩ := hat'.append (v := v) hblk'
  obtain ⟨rfl, hb, -⟩ := (hsteps'.append Decoder.parser_stable _ hclear).unique hblk'' hrun hblkN
  have hlen := congrArg List.length hb
  have hpos := List.length_pos_iff.2 hv
  rw [List.length_append, List.length_singleton] at hlen
  rcases hat'.2 with h | h
  · omega
  · exact h (List.length_eq_zero_iff.1 (by omega))

/-- The reader goes through a whole delivery up to the last byte of the block. -/
theorem delivery_reads (c : Delivery env.zlib)
    (hz : s.command.zipData = none) (hw : s.command.Write = 0)
    (hq : s.decoder.Smooth (s.remainder ++ c.expanded))
    (hstarts : c.Starts s.decoder s.remainder es d₁) :
    ∃ dN b, s.decoder.Clear (s.remainder ++ (c.packets.map Prod.snd).flatten ++ c.last.2) ∧
      parser.Steps s.decoder (s.remainder ++ (c.packets.map Prod.snd).flatten ++ c.last.2)
        (es ++ []) dN [b] ∧
      parser.Blocked dN [b] ∧ dN.AtBlock [b] ∧ dN.Write + 1 = dN.ZipSize ∧
      (dN.zipData.getD []).length = dN.ZipSize ∧ dN.blockData b = c.block.data ∧
      dN.inflating b = d₁.setZip (dN.inflating b).zipData (dN.inflating b).Write dN.ZipSize := by
  have htidy₁ := Decoder.steps_tidy (.inl ⟨hz, hw⟩) hstarts.2.1
  obtain ⟨hz₁, hw₁⟩ : d₁.zipData = none ∧ d₁.Write = 0 := by
    rcases htidy₁ with h | h
    · exact h
    · rw [hstarts.1] at h; cases h.1
  obtain ⟨dN, b, hsteps, hblkN, hatN, hwN, hlenN, hdataN, hinf⟩ :=
    c.block.steps_bytes hstarts.1 hz₁ hw₁
  have hrun := hstarts.2.1.trans hsteps
  have hclear := hstarts.clear hq
  rw [List.append_assoc, ← c.cut, ← List.append_assoc] at hrun hclear
  exact ⟨dN, b, hclear, hrun, hblkN, hatN, hwN, hlenN, hdataN, hinf⟩

/-- **A delivery expands in place**: unless a packet is refused, its packets leave the parser where
the reader gets with the bytes before the block and the content of the block. -/
theorem feedAll_delivery (hfair : env.Fair) (c : Delivery env.zlib)
    (hz : s.command.zipData = none) (hw : s.command.Write = 0)
    (hq : s.decoder.Smooth (s.remainder ++ c.expanded))
    (hstarts : c.Starts s.decoder s.remainder es d₁) :
    ∃ r n, (∀ fuel, n ≤ fuel → feedAll env fuel c.sent s = .ok r) ∧
      ∀ s', r = some s' → ∃ es', s'.log = s.log ++ es' ∧ s'.command.zipData = none ∧
        s'.command.Write = 0 ∧
        parser.Steps s.decoder.outside (s.remainder ++ c.expanded) es' s'.decoder.outside
          s'.remainder ∧
        parser.Blocked s'.decoder.outside s'.remainder := by
  obtain ⟨dN, b, hclear, hrun, hblkN, hatN, hwN, hlenN, hdataN, hinf⟩ :=
    delivery_reads c hz hw hq hstarts
  have hund := undisturbed_before_last c.last_ne hclear hrun hblkN hwN
  obtain ⟨r, j, hfed, hres⟩ := feedAll_quiet env c.packets s hund
  cases r with
  | none =>
    refine ⟨none, j, ?_, fun _ h => by cases h⟩
    intro fuel hfuel
    obtain ⟨k, rfl⟩ := Nat.exists_eq_add_of_le hfuel
    rw [Delivery.sent, feedAll_append, hfed]
    rfl
  | some s₁ =>
    obtain ⟨es₁, hlog₁, hfeeds⟩ := hres s₁ rfl
    have hsteps₁ := (hfeeds.steps Decoder.parser_stable hund.1).append Decoder.parser_stable
      c.last.2 hclear
    obtain ⟨es₂, hes, hlast⟩ := hsteps₁.extend hrun hblkN
    by_cases hroom : (s₁.takeRows c.last.1).PrintBLink.length < PrintLinkedListCount
    · -- the content is fed from the state before the block
      have hqin := hq
      rw [Delivery.expanded, ← List.append_assoc] at hqin
      have hcontent := hstarts.2.2
      have hq₁ : d₁.Smooth c.block.content := hqin.steps hcontent
      have hqN : (dN.inflating b).Smooth ([] ++ c.block.pieces.flatten) := by
        rw [hinf]
        exact hq₁.setZip
      obtain ⟨s', d', es', n, hfeed, hpieces, hd', hlog'⟩ := feed_inflates hfair hroom hlast hblkN
        hatN hwN hlenN (hdataN ▸ c.block.init) c.block.output hqN.calm
      have hrunN := hpieces.steps Decoder.parser_stable hqN.1
      have hblk' := hpieces.blocked c.block.output.ne_nil
      have hq' := (hqN.steps hrunN).not_inBlock
      refine ⟨some s', j + n, ?_, ?_⟩
      · intro fuel hfuel
        obtain ⟨k, rfl⟩ := Nat.exists_eq_add_of_le hfuel
        rw [Delivery.sent, feedAll_append, show j + n + k = j + (n + k) by omega, hfed]
        show feedAll env (j + (n + k)) [c.last] s₁ = _
        rw [feedAll_single, hfeed _ (by omega)]
        rfl
      · rintro _ ⟨⟩
        have hout : s'.decoder.outside = d'.outside := by rw [hd']; rfl
        have hin : (dN.inflating b).outside = d₁.outside := by rw [hinf]; rfl
        rw [List.append_nil] at hes
        refine ⟨es ++ es', ?_,
          by rw [show s'.command.zipData = s'.decoder.zipData from rfl, hd']; rfl,
          by rw [show s'.command.Write = s'.decoder.Write from rfl, hd']; rfl, ?_, ?_⟩
        · rw [hlog', show (s₁.takeRows c.last.1).log = s₁.log from rfl, hlog₁, hes]
          simp
        · rw [Delivery.expanded, ← List.append_assoc, hout]
          have h₁ : parser.Steps s.decoder.outside _ es d₁.outside c.block.content :=
            Decoder.steps_setZip hq₁.not_inBlock hcontent
          have h₂ : parser.Steps (dN.inflating b).outside c.block.content es' d'.outside
              s'.remainder := Decoder.steps_setZip hq' hrunN
          rw [hin] at h₂
          exact h₁.trans h₂
        · rw [hout]
          exact Decoder.blocked_setZip hq' hblk'
    · refine ⟨none, j, ?_, fun _ h => by cases h⟩
      intro fuel hfuel
      obtain ⟨k, rfl⟩ := Nat.exists_eq_add_of_le hfuel
      rw [Delivery.sent, feedAll_append, hfed]
      show feedAll env (j + k) [c.last] s₁ = _
      rw [feedAll_single, feed_refused hroom]
      rfl

/-- The packets of the deliveries and of a tail without blocks leave the parser where the reader
gets with the expanded stream, unless one of them is refused. -/
theorem feedAll_deliveries (hfair : env.Fair) (tail : List (Nat × List UInt8))
    (ds : List (Delivery env.zlib)) (s : Printer)
    (hz : s.command.zipData = none) (hw : s.command.Write = 0)
    (hq : s.decoder.Smooth
      (s.remainder ++ ((ds.map Delivery.expanded).flatten ++ (tail.map Prod.snd).flatten)))
    (hbetween : Delivery.Between s.decoder.outside s.remainder ds) :
    ∃ r n,
      (∀ fuel, n ≤ fuel → feedAll env fuel ((ds.map Delivery.sent).flatten ++ tail) s = .ok r) ∧
      ∀ s', r = some s' → ∃ es', s'.log = s.log ++ es' ∧
        parser.Steps s.decoder.outside
          (s.remainder ++ ((ds.map Delivery.expanded).flatten ++ (tail.map Prod.snd).flatten)) es'
          s'.decoder.outside s'.remainder ∧
        (ds ≠ [] ∨ tail ≠ [] → parser.Blocked s'.decoder.outside s'.remainder) := by
  induction ds generalizing s with
  | nil =>
    obtain ⟨r, n, hfed, hres⟩ := feedAll_quiet env tail s hq.undisturbed
    refine ⟨r, n, ?_, ?_⟩
    · intro fuel hfuel
      obtain ⟨k, rfl⟩ := Nat.exists_eq_add_of_le hfuel
      exact hfed k
    · intro s' hs'
      obtain ⟨es', hlog, hfeeds⟩ := hres s' hs'
      have hsteps := hfeeds.steps Decoder.parser_stable hq.1
      have hout := (hq.steps hsteps).not_inBlock
      refine ⟨es', hlog, Decoder.steps_setZip hout hsteps, ?_⟩
      intro h
      have htail : tail ≠ [] := h.elim (fun h => absurd rfl h) id
      exact Decoder.blocked_setZip hout (hfeeds.blocked (by simpa using htail))
  | cons c ds ih =>
    obtain ⟨⟨es, d₁, hstarts⟩, hnext⟩ := hbetween
    have hstarts' : c.Starts s.decoder s.remainder es
        (d₁.setZip s.command.zipData s.command.Write s.command.ZipSize) :=
      hstarts.setZip
    rw [List.map_cons, List.flatten_cons, List.append_assoc, ← List.append_assoc] at hq
    obtain ⟨r, n, hfed, hres⟩ := feedAll_delivery hfair c hz hw hq.of_append hstarts'
    cases r with
    | none =>
      refine ⟨none, n, ?_, fun _ h => by cases h⟩
      intro fuel hfuel
      rw [List.map_cons, List.flatten_cons, List.append_assoc, feedAll_append, hfed fuel hfuel]
      rfl
    | some s₁ =>
      obtain ⟨es₁, hlog₁, hz₁, hw₁, hsteps₁, hblk₁⟩ := hres s₁ rfl
      have hqo : s.decoder.outside.Smooth (s.remainder ++ c.expanded ++
          ((ds.map Delivery.expanded).flatten ++ (tail.map Prod.snd).flatten)) := hq.setZip
      have hwhole := hsteps₁.append Decoder.parser_stable _ hqo.1
      have hq₁ : s₁.decoder.Smooth (s₁.remainder ++
          ((ds.map Delivery.expanded).flatten ++ (tail.map Prod.snd).flatten)) :=
        (hqo.steps hwhole).setZip (d := s₁.decoder.outside)
      obtain ⟨r', n', hfed', hres'⟩ := ih s₁ hz₁ hw₁ hq₁ (hnext _ _ _ hsteps₁ hblk₁)
      refine ⟨r', n + n', ?_, ?_⟩
      · intro fuel hfuel
        rw [List.map_cons, List.flatten_cons, List.append_assoc, feedAll_append,
          hfed fuel (by omega)]
        exact hfed' fuel (by omega)
      · intro s' hs'
        obtain ⟨es', hlog', hsteps', hblk'⟩ := hres' s' hs'
        refine ⟨es₁ ++ es', by rw [hlog', hlog₁, List.append_assoc], ?_, ?_⟩
        · rw [List.map_cons, List.flatten_cons, List.append_assoc, ← List.append_assoc]
          exact hwhole.trans hsteps'
        · intro _
          by_cases hmore : ds ≠ [] ∨ tail ≠ []
          · exact hblk' hmore
          · -- nothing follows the delivery
            obtain ⟨rfl, rfl⟩ : ds = [] ∧ tail = [] := by simpa using hmore
            have hnil := hsteps'
            simp only [List.map_nil, List.flatten_nil, List.append_nil] at hnil
            obtain ⟨hd, hu, -⟩ := hnil.of_blocked hblk₁
            rw [hd, hu]
            exact hblk₁

/-- **Compressed blocks expand in place**, when every block begins between two commands of the
expanded stream and ends with its packet, and the expanded stream brings the scan neither to
`ANGENL` nor to `NVS-WiFi` with a byte behind it: unless a packet is refused, the packets leave the
parser, but for its released block, where a single call with the expanded stream leaves it, with the
same executed commands and queued rows and the same unread remainder. -/
theorem feedAll_expanded (hfair : env.Fair) (hfin : env.zlib.Finite) (hs : Reachable env s)
    (hroom : s.PrintBLink.length < PrintLinkedListCount) (ds : List (Delivery env.zlib))
    (tail : List (Nat × List UInt8)) (hne : ds ≠ [] ∨ tail ≠ [])
    (hq : s.decoder.Smooth
      (s.remainder ++ ((ds.map Delivery.expanded).flatten ++ (tail.map Prod.snd).flatten)))
    (hbetween : Delivery.Between s.decoder.outside s.remainder ds) :
    ∃ n, ∀ fuel, n ≤ fuel →
      feedAll env fuel ((ds.map Delivery.sent).flatten ++ tail) s = .ok none ∨
      ∃ s₁ s₂, feedAll env fuel ((ds.map Delivery.sent).flatten ++ tail) s = .ok (some s₁) ∧
        feed env fuel ((ds.map Delivery.expanded).flatten ++ (tail.map Prod.snd).flatten) s =
          .ok (true, s₂) ∧
        s₁.log = s₂.log ∧ s₁.decoder.outside = s₂.decoder.outside ∧
        s₁.remainder = s₂.remainder := by
  obtain ⟨hz, hw⟩ : s.decoder.zipData = none ∧ s.decoder.Write = 0 := by
    rcases hs.tidy hfair hfin with h | h
    · exact h
    · exact absurd (.inr h.1) hq.not_inBlock
  obtain ⟨r, n, hfed, hres⟩ := feedAll_deliveries hfair tail ds s hz hw hq hbetween
  obtain ⟨s₂, es₂, n₂, hfed₂, hsteps₂, hblk₂, hlog₂⟩ := feed_quiet env _ hroom hq.undisturbed
  have hout₂ := (hq.steps hsteps₂).not_inBlock
  refine ⟨n + n₂, ?_⟩
  intro fuel hfuel
  have h₁ := hfed fuel (by omega)
  have h₂ := hfed₂ (fuel - n₂)
  rw [show n₂ + (fuel - n₂) = fuel by omega] at h₂
  cases r with
  | none => exact .inl h₁
  | some s₁ =>
    obtain ⟨es₁, hlog₁, hsteps₁, hblk₁⟩ := hres s₁ rfl
    have hsteps₂' : parser.Steps s.decoder.outside _ es₂ s₂.decoder.outside s₂.remainder :=
      Decoder.steps_setZip hout₂ hsteps₂
    obtain ⟨hd, hu, rfl⟩ := hsteps₁.unique (hblk₁ hne) hsteps₂' (Decoder.blocked_setZip hout₂ hblk₂)
    exact .inr ⟨s₁, s₂, h₁, h₂, hlog₁.trans hlog₂.symm, hd, hu⟩

/-- A density command in a stored block. -/
def densityBlock : Block Env.stored.zlib where
  data := [1, 5, 0, 0xFA, 0xFF, 0x40, 0x53, 0x7E, 0x7E, 0x32]
  strm := some [0x40, 0x53, 0x7E, 0x7E, 0x32]
  pieces := [[0x40, 0x53, 0x7E, 0x7E, 0x32]]
  data_ne := by simp
  size_lt := by decide
  init := rfl
  output := .last rfl (by decide)

/-- Two density commands in a stored block. -/
def pairBlock : Block Env.stored.zlib where
  data := [1, 10, 0, 0xF5, 0xFF, 0x40, 0x53, 0x7E, 0x7E, 0x32, 0x40, 0x53, 0x7E, 0x7E, 0x33]
  strm := some [0x40, 0x53, 0x7E, 0x7E, 0x32, 0x40, 0x53, 0x7E, 0x7E, 0x33]
  pieces := [[0x40, 0x53, 0x7E, 0x7E, 0x32, 0x40, 0x53, 0x7E, 0x7E, 0x33]]
  data_ne := by simp
  size_lt := by decide
  init := rfl
  output := .last rfl (by decide)

/-- A page end with a line break behind it, and the block, cut inside its head. -/
def pageEndDelivery : Delivery Env.stored.zlib where
  plain := [0x40, 0x3E, 0x0D, 0x0A]
  block := pairBlock
  packets := [(0, [0x40, 0x3E, 0x0D, 0x0A, 0x41, 0x4E])]
  last := (0, [0x47, 0x45, 0x4E, 0x4C, 0, 15, 1, 10, 0, 0xF5, 0xFF, 0x40, 0x53, 0x7E, 0x7E, 0x32,
    0x40, 0x53, 0x7E, 0x7E, 0x33])
  last_ne := by simp
  cut := rfl

/-- The page end and the block, and then a page start in a packet of its own. -/
theorem feedAll_expanded_pageEnd :
    ∃ n, ∀ fuel, n ≤ fuel →
      feedAll .stored fuel
          (([pageEndDelivery].map Delivery.sent).flatten ++ [(0, [0x40, 0x3C, 0x23])]) (.init 2) =
        .ok none ∨
      ∃ s₁ s₂, feedAll .stored fuel
          (([pageEndDelivery].map Delivery.sent).flatten ++ [(0, [0x40, 0x3C, 0x23])]) (.init 2) =
            .ok (some s₁) ∧
        feed .stored fuel (([pageEndDelivery].map Delivery.expanded).flatten ++
          ([(0, [0x40, 0x3C, 0x23])].map Prod.snd).flatten) (.init 2) = .ok (true, s₂) ∧
        s₁.log = s₂.log ∧ s₁.decoder.outside = s₂.decoder.outside ∧
        s₁.remainder = s₂.remainder := by
  -- the page end is executed, and the scan passes the line break
  have hstarts : ∃ es d₁, pageEndDelivery.Starts (Printer.init 2).decoder.outside
      (Printer.init 2).remainder es d₁ :=
    ⟨_, _, rfl, .head rfl (.head rfl (.head rfl (.head rfl .refl))),
      .head rfl (.head rfl (.head rfl (.head rfl .refl)))⟩
  exact feedAll_expanded Env.stored_fair Zlib.stored_finite (.init 2) (by decide)
    [pageEndDelivery] [(0, [0x40, 0x3C, 0x23])] (.inl (by simp))
    (Decoder.Quiet.smooth (by decide)) ⟨hstarts, fun _ _ _ _ _ => trivial⟩

/-- **Bytes after a block in its packet come before its content**: the density 51 that follows the
block is set, while the density 50 inside it is still waiting for its look-ahead byte. -/
theorem tail_before_content :
    ∃ s₁ s₂, feed .stored 40 (densityBlock.bytes ++ [0x40, 0x53, 0x7E, 0x7E, 0x33]) (.init 2) =
        .ok (true, s₁) ∧
      feed .stored 40 (densityBlock.content ++ [0x40, 0x53, 0x7E, 0x7E, 0x33]) (.init 2) =
        .ok (true, s₂) ∧
      s₁.log = [.density 51] ∧ s₂.log = [.density 50] :=
  ⟨_, _, rfl, rfl, rfl, rfl⟩

end Printer

end ThermalPrinter
