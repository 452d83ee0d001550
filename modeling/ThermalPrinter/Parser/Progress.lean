import ThermalPrinter.Parser.Chunking

/-!
# Progress of the parser loop

Every pass of the loop that stays outside a compressed block lowers a measure or suspends the packet
(`Printer.handle_handled`), so the loop can only fail to end at a block. It ends exactly when every
block it completes has room for its last byte, that is, a size above zero, and when neither the rest
of the packet nor the inflated bytes lead to another block while a block is being inflated
(`feed_returns_iff`). Otherwise it spins, or stores outside the block that is still allocated.
-/

namespace ThermalPrinter

open Lookahead

namespace Decoder

variable {d d' : Decoder} {u u' : List UInt8} {es : List Event}

/-- Either no block is allocated and nothing is stored, or the parser is fetching the data of a
block that was allocated with its size, and the block is not full. -/
def Tidy (d : Decoder) : Prop :=
  d.zipData = none ∧ d.Write = 0 ∨
    d.DecodeStatus = .CommandZipData ∧ (d.Write = 0 ∨ d.Write < d.ZipSize) ∧
      ∃ z, d.zipData = some z ∧ z.length = d.ZipSize

/-- The decoder while a block is inflated, its last byte stored. -/
def inflating (d : Decoder) (b : UInt8) : Decoder :=
  { d with
    DecodeStatus := .CommandIdle
    zipData := some ((d.zipData.getD []).set d.Write b)
    Write := d.Write + 1 }

/-- The data of a block, its last byte stored. -/
def blockData (d : Decoder) (b : UInt8) : List UInt8 :=
  ((d.zipData.getD []).set d.Write b).take d.ZipSize

/-- The decoder after a block was inflated, successfully or not: the block is released. -/
def released (d : Decoder) (decoded : Bool) : Decoder :=
  { d with
    DecodeStatus := if decoded then d.DecodeStatus else .CommandIdle
    zipData := none
    Write := 0 }

/-- A reaction keeps the decoder tidy. -/
theorem react_tidy (ht : d.Tidy) (h : d.react u = some (d', u', es)) : d'.Tidy := by
  rcases ht with ⟨hz, hw⟩ | ⟨hs, hw, z, hz, hl⟩
  · by_cases hs : d.DecodeStatus = .CommandZipData
    · simp only [react, hs, fetch, hz] at h
      obtain ⟨-, rfl, -, -⟩ := arg_eq_some.1 h
      exact .inr ⟨rfl, .inl hw, _, rfl, by simp⟩
    · obtain ⟨hz', hw'⟩ := react_zipData hs h
      exact .inl ⟨hz'.trans hz, hw'.trans hw⟩
  · rw [Printer.react_fetch hs hz] at h
    split at h
    next hlt =>
      obtain ⟨-, rfl, -, -⟩ := arg_eq_some.1 h
      exact .inr ⟨hs, .inr hlt.2, _, rfl, by simpa using hl⟩
    next => cases h

/-- A run of the reader keeps the decoder tidy. -/
theorem steps_tidy (ht : d.Tidy) (h : parser.Steps d u es d' u') : d'.Tidy := by
  induction h with
  | refl => exact ht
  | head h _ ih => exact ih (react_tidy ht h)

/-- A tidy decoder that is blocked at a block stands at the last byte of the block, or the block has
no bytes. -/
theorem Tidy.atBlock (ht : d.Tidy) (hblk : parser.Blocked d u) (hat : d.AtBlock u) :
    ∃ z, d.zipData = some z ∧ z.length = d.ZipSize ∧
      (d.ZipSize = 0 ∧ d.Write = 0 ∨ ∃ b rest, u = b :: rest ∧ d.Write + 1 = d.ZipSize) := by
  rcases ht with ⟨hz, -⟩ | ⟨hs, hw, z, hz, hl⟩
  · have hnone : d.react u = none := hblk
    simp [react, hat.1, fetch, hz, arg] at hnone
  · refine ⟨z, hz, hl, ?_⟩
    have hnone : d.react u = none := hblk
    rw [Printer.react_fetch hs hz] at hnone
    by_cases h0 : d.ZipSize = 0
    · exact .inl ⟨h0, by omega⟩
    · obtain ⟨b, rest, rfl⟩ : ∃ b rest, u = b :: rest := by
        rcases hat.2 with h | h
        · omega
        · exact List.exists_cons_of_ne_nil h
      refine .inr ⟨b, rest, rfl, ?_⟩
      -- with a byte unread, only the last byte of the block is not stored by a reaction
      by_contra hne
      rw [if_pos (by omega)] at hnone
      exact absurd (arg_eq_none.1 hnone) (by simp)

/-- Wherever the bytes lead the reader to a block, the block has a size, and neither the bytes after
it nor the inflated bytes lead to a block again while it is inflated. -/
def PassesBlocks (z : Zlib) (d : Decoder) (u : List UInt8) : Prop :=
  ∀ es d' u', parser.Steps d u es d' u' → parser.Blocked d' u' → d'.AtBlock u' →
    d'.ZipSize ≠ 0 ∧ ∀ b rest strm pieces ended, u' = b :: rest →
      z.inflateInit2 (d'.blockData b) = some strm → z.Output strm pieces ended →
      Printer.Calm (d'.inflating b) rest pieces

end Decoder

namespace Printer

variable {s s' s₁ : Printer} {env : Env} {es : List Event} {b : UInt8} {rest : List UInt8}

/-- The printer when the last byte of a block is stored and the packet is suspended, right before
the block is inflated. -/
def beginInflate (s : Printer) (b : UInt8) : Printer :=
  { s with command :=
    { s.decoder.inflating b with
      Buffer := s.command.Buffer, RemainderLength := s.command.RemainderLength
      ReadPos := s.command.ReadPos + 1, ReturnFlag := s.command.ReturnFlag
      LineDecodeOneceFinshed := s.command.LineDecodeOneceFinshed } }.ReturnModle

/-- The printer when a block is inflated. -/
def endInflate (s : Printer) (decoded : Bool) : Printer :=
  { s with command :=
    { s.decoder.released decoded with
      Buffer := s.command.Buffer, RemainderLength := s.command.RemainderLength
      ReadPos := s.command.ReadPos, ReturnFlag := s.command.ReturnFlag
      LineDecodeOneceFinshed := s.command.LineDecodeOneceFinshed } }

/-- A stored last byte: the entrance of the decode loop inflates the block and releases it. -/
theorem ZipDecodeEntrance_eq (env : Env) (process : Printer → Except Halt Printer) (fuel : Nat)
    (s₁ : Printer) (h : { s₁ with command :=
      { s₁.command with DecodeStatus := .CommandIdle } }.ReturnModle = s.beginInflate b) :
    (ZipDecodeEntrance env process fuel s₁).map
        (fun s => { s with command := { s.command with Write := 0 } }) =
      (ZipDecode env process fuel (s₁.command.zipData.getD []) s₁.command.ZipSize
        (s.beginInflate b)).map (fun r => r.2.endInflate r.1) := by
  unfold ZipDecodeEntrance
  simp only [h]
  cases ZipDecode env process fuel (s₁.command.zipData.getD []) s₁.command.ZipSize
    (s.beginInflate b) with
  | error e => rfl
  | ok r => obtain ⟨_ | _, r⟩ := r <;> rfl

/-- At the last byte of a block the loop over the block data stores it and inflates the block. -/
theorem zipFetchLoop_last (process : Printer → Except Halt Printer) (fuel : Nat)
    (hb : s.InBuffer) (hu : s.unread = b :: rest) (hw : s.command.Write + 1 = s.command.ZipSize)
    (hz : s.command.Write < (s.command.zipData.getD []).length) :
    zipFetchLoop (ZipDecodeEntrance env process fuel)
        (s.command.ZipSize - s.command.Write) s =
      (ZipDecode env process fuel ((s.command.zipData.getD []).set s.command.Write b)
        s.command.ZipSize (s.beginInflate b)).map (fun r => r.2.endInflate r.1) := by
  have hpos : s.command.ReadPos + 1 ≤ s.command.TotalLength :=
    (Command.ReadPos_add_le hb 1).2 (by rw [show s.command.unread = b :: rest from hu]; simp)
  have hbyte : s.command.byteAt 0 = b := by
    rw [Command.byteAt_eq, show s.command.unread = b :: rest from hu]
    rfl
  have hfull : s.command.ZipSize ≤ s.command.Write + 1 := by omega
  rw [show s.command.ZipSize - s.command.Write = 0 + 1 by omega, zipFetchLoop, if_pos hpos,
    zipStore, if_pos hz, hbyte]
  have hent := ZipDecodeEntrance_eq (s := s) (b := b) env process fuel
    { s with command :=
      { s.command with
        zipData := some ((s.command.zipData.getD []).set s.command.Write b)
        Write := s.command.Write + 1
        ReadPos := s.command.ReadPos + 1 } } rfl
  simp only [Option.getD_some] at hent
  rw [← hent]
  simp only [Bind.bind, Except.bind, ge_iff_le, hfull, if_true]
  rfl

theorem beginInflate_decoder : (s.beginInflate b).decoder = s.decoder.inflating b := rfl

theorem beginInflate_suspended : (s.beginInflate b).Suspended := ReturnModle_suspended

theorem beginInflate_inBuffer (hb : s.InBuffer) (hu : s.unread = b :: rest) :
    (s.beginInflate b).InBuffer :=
  (Command.ReadPos_add_le hb 1).2 (by rw [show s.command.unread = b :: rest from hu]; simp)

/-- The bytes after a block in its packet are what the first piece is appended to. -/
theorem beginInflate_remainder (hb : s.InBuffer) (hu : s.unread = b :: rest) :
    (s.beginInflate b).remainder = rest := by
  rw [beginInflate_suspended.remainder_eq (beginInflate_inBuffer hb hu)]
  have : (s.beginInflate b).unread = s.unread.drop 1 := by
    simp [beginInflate, ReturnModle, unread, Command.unread]
  rw [this, hu]
  rfl

section
variable {strm : env.zlib.z_stream} {pieces : List (List UInt8)} {ended : Bool}

/-- What is left of the pass over the block data, at the last byte of a block, and the passes after
it. -/
def finishBlock (env : Env) (k : Nat) (s : Printer) : Except Halt Printer :=
  (zipFetchLoop (ZipDecodeEntrance env (PrintDataProcesser env k) k)
    (s.command.ZipSize - s.command.Write) s).bind (PrintDataProcesser env k)

/-- A block that zlib rejects is dropped. -/
theorem finishBlock_rejected (hb : s.InBuffer) (hu : s.unread = b :: rest)
    (hw : s.command.Write + 1 = s.command.ZipSize)
    (hz : s.command.Write < (s.command.zipData.getD []).length)
    (hinit : env.zlib.inflateInit2 (s.decoder.blockData b) = none) (k : Nat) :
    finishBlock env (k + 1) s = .ok ((s.beginInflate b).endInflate false) := by
  unfold finishBlock
  rw [zipFetchLoop_last _ _ hb hu hw hz, ZipDecode]
  unfold Decoder.blockData at hinit
  simp only [hinit]
  exact PrintDataProcesser_returned k rfl

/-- **A block is inflated**: its pieces are fed to the reader after the bytes that follow the block
in its packet, then the block is released and the packet is suspended. -/
theorem finishBlock_inflates (hfair : env.Fair) (hb : s.InBuffer) (hu : s.unread = b :: rest)
    (hw : s.command.Write + 1 = s.command.ZipSize)
    (hz : s.command.Write < (s.command.zipData.getD []).length)
    (hinit : env.zlib.inflateInit2 (s.decoder.blockData b) = some strm)
    (hout : env.zlib.Output strm pieces ended) (hcalm : Calm (s.decoder.inflating b) rest pieces) :
    ∃ s' d es j, (∀ k, j ≤ k → finishBlock env k s = .ok s') ∧
      parser.Feeds (s.decoder.inflating b) rest pieces es d s'.remainder ∧
      s'.decoder = d.released ended ∧ s'.log = s.log ++ es := by
  have hrem := beginInflate_remainder hb hu
  obtain ⟨s₁, es, j, hj, hfeeds, hlog, hsus, -⟩ := zipLoop_feeds hfair hout 0
    (show Calm (s.beginInflate b).decoder (s.beginInflate b).remainder pieces by rwa [hrem])
    beginInflate_suspended (beginInflate_inBuffer hb hu)
  rw [hrem] at hfeeds
  refine ⟨s₁.endInflate ended, s₁.decoder, es, j + 1, ?_, hfeeds, rfl, hlog⟩
  intro k hk
  obtain ⟨k, rfl⟩ : ∃ i, k = i + 1 := ⟨k - 1, by omega⟩
  unfold finishBlock
  rw [zipFetchLoop_last _ _ hb hu hw hz, ZipDecode]
  unfold Decoder.blockData at hinit
  simp only [hinit]
  rw [hj _ _ _ (by omega) (by omega) (by omega)]
  exact PrintDataProcesser_returned k hsus.ReturnFlag

/-- A block whose pieces lead to another block gives no result. -/
theorem finishBlock_not_calm (hfair : env.Fair) (hb : s.InBuffer) (hu : s.unread = b :: rest)
    (hw : s.command.Write + 1 = s.command.ZipSize)
    (hz : s.command.Write + 1 = (s.command.zipData.getD []).length)
    (hinit : env.zlib.inflateInit2 (s.decoder.blockData b) = some strm)
    (hout : env.zlib.Output strm pieces ended) (hcalm : ¬ Calm (s.decoder.inflating b) rest pieces)
    (k : Nat) (r : Printer) : finishBlock env k s ≠ .ok r := by
  intro hr
  unfold finishBlock at hr
  rw [zipFetchLoop_last _ _ hb hu hw (by omega), ZipDecode] at hr
  unfold Decoder.blockData at hinit
  simp only [hinit] at hr
  have hfull : Full (s.beginInflate b).decoder :=
    ⟨(s.command.zipData.getD []).set s.command.Write b, rfl, by
      simp [beginInflate_decoder, Decoder.inflating, hz]⟩
  have hstop := zipLoop_not_calm hfair hout 0
    (show ¬ Calm (s.beginInflate b).decoder (s.beginInflate b).remainder pieces by
      rwa [beginInflate_remainder hb hu]) hfull k k k
  cases hloop : zipLoop env (PrintDataProcesser env k) k k strm 0 0 (s.beginInflate b) with
  | error e => rw [hloop] at hr; cases hr
  | ok q => exact hstop q hloop

end

/-- What the bytes of a block lead to: the last byte of a block that passes gives a result and a
tidy decoder, and another block gives none. -/
theorem finishBlock_result (hfair : env.Fair) (hfin : env.zlib.Finite) (hb : s.InBuffer)
    (hf : s.command.ReturnFlag = false) (ht : s.decoder.Tidy)
    (hblk : parser.Blocked s.decoder s.unread) (hat : s.decoder.AtBlock s.unread) :
    (s.decoder.ZipSize ≠ 0 ∧ ∀ b rest strm pieces ended, s.unread = b :: rest →
        env.zlib.inflateInit2 (s.decoder.blockData b) = some strm →
        env.zlib.Output strm pieces ended → Calm (s.decoder.inflating b) rest pieces) ∧
        (∃ s' n, (∀ k, n ≤ k → finishBlock env k s = .ok s') ∧ s'.decoder.Tidy) ∨
      ¬ (s.decoder.ZipSize ≠ 0 ∧ ∀ b rest strm pieces ended, s.unread = b :: rest →
        env.zlib.inflateInit2 (s.decoder.blockData b) = some strm →
        env.zlib.Output strm pieces ended → Calm (s.decoder.inflating b) rest pieces) ∧
        ∀ k r, finishBlock env k s ≠ .ok r := by
  obtain ⟨z, hz, hl, ⟨h0, hw⟩ | ⟨b, rest, hu, hw⟩⟩ := ht.atBlock hblk hat
  · -- a block without bytes: the loop spins
    refine .inr ⟨fun h => h.1 h0, ?_⟩
    intro k r hr
    have h0' : s.command.ZipSize = 0 := h0
    rw [finishBlock, show s.command.ZipSize - s.command.Write = 0 by omega, zipFetchLoop,
      Except.bind, PrintDataProcesser_spins hf hat.1 (by rw [hz]; rfl) (by omega)] at hr
    cases hr
  · have hw : s.command.Write + 1 = s.command.ZipSize := hw
    have hpos : s.decoder.ZipSize ≠ 0 := show s.command.ZipSize ≠ 0 by omega
    have hlen : (s.command.zipData.getD []).length = s.command.ZipSize := by
      rw [hz]; exact hl
    have hroomz : s.command.Write < (s.command.zipData.getD []).length := by omega
    cases hinit : env.zlib.inflateInit2 (s.decoder.blockData b) with
    | none =>
      refine .inl ⟨⟨hpos, ?_⟩, (s.beginInflate b).endInflate false, 1, ?_, .inl ⟨rfl, rfl⟩⟩
      · intro b' rest' strm pieces ended hu' h
        rw [hu] at hu'
        cases hu'
        rw [hinit] at h
        cases h
      · intro k hk
        obtain ⟨k, rfl⟩ : ∃ i, k = i + 1 := ⟨k - 1, by omega⟩
        exact finishBlock_rejected hb hu hw hroomz hinit k
    | some strm =>
      obtain ⟨pieces, ended, hout⟩ := hfin _ _ hinit
      by_cases hcalm : Calm (s.decoder.inflating b) rest pieces
      · obtain ⟨s', d, es', n, hn, -, hd, -⟩ :=
          finishBlock_inflates hfair hb hu hw hroomz hinit hout hcalm
        refine .inl ⟨⟨hpos, ?_⟩, s', n, hn, hd ▸ .inl ⟨rfl, rfl⟩⟩
        intro b' rest' strm' pieces' ended' hu' hinit' hout'
        rw [hu] at hu'
        cases hu'
        rw [hinit, Option.some.injEq] at hinit'
        subst hinit'
        rwa [(hout'.unique hout).1]
      · exact .inr ⟨fun h => hcalm (h.2 _ _ _ _ _ hu hinit hout),
          finishBlock_not_calm hfair hb hu hw (by omega) hinit hout hcalm⟩

/-! ## A call of `PrintDataManagement` -/

/-- With room in the queue a call returns exactly when the bytes pass their blocks, and it leaves
the decoder tidy. -/
theorem feed_result (hfair : env.Fair) (hfin : env.zlib.Finite) (ht : s.decoder.Tidy)
    (hroom : s.PrintBLink.length < PrintLinkedListCount) (data : List UInt8) :
    s.decoder.PassesBlocks env.zlib (s.remainder ++ data) ∧
        (∃ s' j, (∀ k, j ≤ k → feed env k data s = .ok (true, s')) ∧ s'.decoder.Tidy) ∨
      ¬ s.decoder.PassesBlocks env.zlib (s.remainder ++ data) ∧
        ∀ k r, feed env k data s ≠ .ok r := by
  have hfeed (k : Nat) : feed env k data s =
      (PrintDataProcesser env k (s.realloc data)).map (true, ·) := feed_room hroom k
  have hb : (s.realloc data).InBuffer := Nat.zero_le _
  obtain ⟨s₁, es, j, hran, hblk, hend⟩ := PrintDataProcesser_reaches env hb rfl
  have ht₁ : s₁.decoder.Tidy := Decoder.steps_tidy ht hran.steps
  rcases hend with ⟨-, hat, hrun⟩ | ⟨hf₁, hat, hrun⟩
  · -- the packet is suspended outside a block
    refine .inl ⟨?_, s₁, j, ?_, ht₁⟩
    · intro es' d' u' hsteps' hblk' hat'
      obtain ⟨rfl, rfl, -⟩ := hsteps'.unique hblk' hran.steps hblk
      exact absurd hat' hat
    · intro k hk
      obtain ⟨i, rfl⟩ := Nat.exists_eq_add_of_le hk
      rw [hfeed, hrun]
      rfl
  · have hrun' (k : Nat) :
        PrintDataProcesser env (j + k + 1) (s.realloc data) = finishBlock env k s₁ := hrun k
    rcases finishBlock_result hfair hfin hran.inBuffer hf₁ ht₁ hblk hat with
      ⟨hpass, s', n, hn, ht'⟩ | ⟨hpass, hstop⟩
    · refine .inl ⟨?_, s', j + n + 1, ?_, ht'⟩
      · intro es' d' u' hsteps' hblk' _
        obtain ⟨rfl, rfl, -⟩ := hsteps'.unique hblk' hran.steps hblk
        exact hpass
      · intro k hk
        obtain ⟨i, rfl⟩ := Nat.exists_eq_add_of_le hk
        rw [hfeed, show j + n + 1 + i = j + (n + i) + 1 by omega, hrun', hn _ (by omega)]
        rfl
    · refine .inr ⟨fun h => hpass (h _ _ _ hran.steps hblk hat), ?_⟩
      intro k r hr
      rw [hfeed] at hr
      cases hp : PrintDataProcesser env k (s.realloc data) with
      | error e => rw [hp] at hr; cases hr
      | ok q =>
        have hmore := PrintDataProcesser_mono (show k ≤ j + k + 1 by omega) _ _ hp
        exact hstop k q (hrun' k ▸ hmore)

/-- The printers that packets and the printing side lead to. -/
inductive Reachable (env : Env) : Printer → Prop
  | init (HeadStbLowValid : UInt8) : Reachable env (Printer.init HeadStbLowValid)
  | feed {s s' : Printer} {fuel : Nat} {data : List UInt8} {accepted : Bool} :
      Reachable env s → Printer.feed env fuel data s = .ok (accepted, s') → Reachable env s'
  | takeRows {s : Printer} (n : Nat) : Reachable env s → Reachable env (s.takeRows n)

/-- The decoder of every reachable printer is tidy. -/
theorem Reachable.tidy (hfair : env.Fair) (hfin : env.zlib.Finite) (h : Reachable env s) :
    s.decoder.Tidy := by
  induction h with
  | init v => exact .inl ⟨rfl, rfl⟩
  | takeRows n _ ih => exact ih
  | @feed s s' fuel data accepted _ hr ih =>
    by_cases hroom : s.PrintBLink.length < PrintLinkedListCount
    · rcases feed_result hfair hfin ih hroom data with ⟨-, s₁, j, hj, ht⟩ | ⟨-, hstop⟩
      · have hmore := feed_mono (Nat.le_add_left fuel j) hr
        rw [hj _ (by omega)] at hmore
        cases hmore
        exact ht
      · exact absurd hr (hstop _ _)
    · rw [feed_refused hroom] at hr
      cases hr
      exact ih

/-- **The parser loop ends exactly when the packet passes its blocks.** -/
theorem feed_returns_iff (hfair : env.Fair) (hfin : env.zlib.Finite) (h : Reachable env s)
    (data : List UInt8) :
    (∃ n r, ∀ fuel, n ≤ fuel → feed env fuel data s = .ok r) ↔
      (s.PrintBLink.length < PrintLinkedListCount →
        s.decoder.PassesBlocks env.zlib (s.remainder ++ data)) := by
  by_cases hroom : s.PrintBLink.length < PrintLinkedListCount
  · rcases feed_result hfair hfin (h.tidy hfair hfin) hroom data with
      ⟨hpass, s', j, hj, -⟩ | ⟨hpass, hstop⟩
    · exact ⟨fun _ _ => hpass, fun _ => ⟨j, _, hj⟩⟩
    · refine ⟨fun ⟨n, r, hr⟩ => absurd (hr n (Nat.le_refl n)) (hstop n r), ?_⟩
      intro h
      exact absurd (h hroom) hpass
  · refine ⟨fun _ h => absurd h hroom, fun _ => ⟨0, (false, s), ?_⟩⟩
    intro fuel _
    exact feed_refused hroom fuel

/-- A block that zlib rejects, with bytes after it. -/
theorem feed_returns_rejected :
    (∃ n r, ∀ fuel, n ≤ fuel →
        feed .stored fuel (angenl ++ [0, 1, 7, 9]) (.init 2) = .ok r) ↔
      ((Printer.init 2).PrintBLink.length < PrintLinkedListCount →
        (Printer.init 2).decoder.PassesBlocks Env.stored.zlib
          ((Printer.init 2).remainder ++ (angenl ++ [0, 1, 7, 9]))) :=
  feed_returns_iff Env.stored_fair Zlib.stored_finite (.init 2) _

/-- **A block without bytes makes the loop spin**: after the eight bytes `ANGENL 00 00` no number
of passes is enough. -/
theorem feed_spins :
    Reachable .stored (.init 2) ∧
      ∀ fuel, feed .stored fuel (angenl ++ [0, 0]) (.init 2) = .error .fuel := by
  refine ⟨.init 2, ?_⟩
  intro fuel
  rcases fuel with _ | _ | _ | fuel
  · rfl
  · rfl
  · rfl
  · -- the head, the size and the allocation; then nothing is left to store
    have hspin : ∀ s₃ : Printer, s₃.command.ReturnFlag = false →
        s₃.command.DecodeStatus = .CommandZipData → s₃.command.zipData.isSome →
        s₃.command.ZipSize ≤ s₃.command.Write →
        (PrintDataProcesser .stored fuel s₃).map (fun s => (true, s)) = .error .fuel := by
      intro s₃ hf hs hz hw
      rw [PrintDataProcesser_spins hf hs hz hw]
      rfl
    exact hspin _ rfl rfl rfl (Nat.le_refl 0)

end Printer

end ThermalPrinter
