import ThermalPrinter.Parser.Blocks
import ThermalPrinter.System.Document

/-!
# Compressed documents

A stream of commands and blocks in packets, every block ending with its packet, is read like the
stream with the blocks replaced by their content (`ReadsAll.expands`). So a run of the firmware that
accepts the one and a run that accepts the other, in packets of any kind, have executed the same
commands (`compression_invisible`), and a document whose pages are compressed is printed like the
document (`compressed_document_printed`).
-/

namespace ThermalPrinter

open Lookahead Relation

/-! ## Packets read one after another -/

section

variable {z : Zlib} {d d' : Decoder} {u u' : List UInt8} {es : List Event}

/-- The first packets are read first. -/
theorem ReadsAll.split (ps : List (List UInt8)) {qs : List (List UInt8)}
    (h : ReadsAll z d u (ps ++ qs) es d' u') :
    ∃ es₁ es₂ d₁ u₁, ReadsAll z d u ps es₁ d₁ u₁ ∧ ReadsAll z d₁ u₁ qs es₂ d' u' ∧
      es = es₁ ++ es₂ := by
  induction ps generalizing d u es with
  | nil => exact ⟨[], es, d, u, .nil, h, rfl⟩
  | cons p ps ih =>
    cases h with
    | cons hp hrest =>
      obtain ⟨es₁, es₂, d₁, u₁, h₁, h₂, rfl⟩ := ih hrest
      exact ⟨_, es₂, d₁, u₁, .cons hp h₁, h₂, (List.append_assoc ..).symm⟩

end

namespace Delivery

variable {z : Zlib}

/-- The packets of a delivery, as they arrive. -/
def arriving (c : Delivery z) : List (List UInt8) := c.sent.map Prod.snd

/-- The printing side takes other numbers of rows before the packets. -/
theorem recount (c : Delivery z) (qs : List (Nat × List UInt8))
    (hqs : qs.map Prod.snd = c.arriving) :
    ∃ c' : Delivery z, c'.sent = qs ∧ c'.plain = c.plain ∧ c'.block = c.block := by
  rw [arriving, sent, List.map_append, List.map_singleton] at hqs
  obtain ⟨packets, last, rfl, hpackets, hlast⟩ := List.map_eq_append_iff.1 hqs
  obtain ⟨p, rfl, hp⟩ := List.map_eq_singleton_iff.1 hlast
  refine ⟨{ c with packets := packets, last := p, last_ne := ?_, cut := ?_ }, rfl, rfl, rfl⟩
  · rw [hp]
    exact c.last_ne
  · rw [hpackets, hp]
    exact c.cut

/-- So it may before the packets of several deliveries and a tail. -/
theorem recountAll (ds : List (Delivery z)) (tail : List (List UInt8))
    (qs : List (Nat × List UInt8)) (hqs : qs.map Prod.snd = ds.flatMap arriving ++ tail) :
    ∃ (ds' : List (Delivery z)) (tail' : List (Nat × List UInt8)),
      qs = (ds'.map sent).flatten ++ tail' ∧ tail'.map Prod.snd = tail ∧
      ds'.map expanded = ds.map expanded ∧ ∀ d u, Between d u ds → Between d u ds' := by
  induction ds generalizing qs with
  | nil => exact ⟨[], qs, rfl, hqs, rfl, fun _ _ h => h⟩
  | cons c ds ih =>
    rw [List.flatMap_cons, List.append_assoc] at hqs
    obtain ⟨qs₁, qs₂, rfl, h₁, h₂⟩ := List.map_eq_append_iff.1 hqs
    obtain ⟨c', rfl, hplain, hblock⟩ := c.recount qs₁ h₁
    have hexpanded : c'.expanded = c.expanded := by rw [expanded, expanded, hplain, hblock]
    obtain ⟨ds', tail', rfl, htail, hds, hbetween⟩ := ih qs₂ h₂
    refine ⟨c' :: ds', tail', by simp, htail, by simp [hexpanded, hds], ?_⟩
    rintro d u ⟨⟨es, d₁, hstarts⟩, hnext⟩
    have hstarts' : c'.Starts d u es d₁ := by rwa [Starts, hplain, hblock]
    refine ⟨⟨es, d₁, hstarts'⟩, fun es d' u' hsteps hblk => hbetween _ _ ?_⟩
    exact hnext es d' u' (hexpanded ▸ hsteps) hblk

end Delivery

/-- The stream with the blocks replaced by their content. -/
def expandedBytes {z : Zlib} (ds : List (Delivery z)) (tail : List (List UInt8)) : List UInt8 :=
  (ds.map Delivery.expanded).flatten ++ tail.flatten

/-- **The packets are read like the expanded stream**, when every block begins between two commands
of it, and it brings the scan neither to `ANGENL` nor to `NVS-WiFi`. -/
theorem ReadsAll.expands {z : Zlib} {v : UInt8} (hfin : z.Finite) (ds : List (Delivery z))
    (tail : List (List UInt8)) (hne : ds ≠ [] ∨ tail ≠ [])
    (hq : (Decoder.init v).Smooth (expandedBytes ds tail))
    (hbetween : Delivery.Between (Decoder.init v) [] ds) :
    ∃ es d u, ReadsAll z (Decoder.init v) [] (ds.flatMap Delivery.arriving ++ tail) es d u ∧
      parser.Steps (Decoder.init v) (expandedBytes ds tail) es d.outside u ∧
      parser.Blocked d.outside u := by
  obtain ⟨qs, hqs, hnever⟩ := Printer.exists_not_refused (s := Printer.init v)
    (Firmware.fair_fairEnv (z := z)) hfin (.inl ⟨rfl, rfl⟩) (ds.flatMap Delivery.arriving ++ tail)
  obtain ⟨ds', tail', rfl, rfl, hds, hcounted⟩ := Delivery.recountAll ds tail qs hqs
  rw [expandedBytes, ← hds] at hq ⊢
  obtain ⟨r, n, hfed, hres⟩ := Printer.feedAll_deliveries (Firmware.fair_fairEnv (z := z)) tail' ds'
    (Printer.init v) rfl rfl hq (hcounted _ _ hbetween)
  cases r with
  | none => exact absurd (hfed n (Nat.le_refl n)) (hnever n)
  | some s' =>
    obtain ⟨es, hreads, hlog⟩ := Printer.feedAll_reads (Firmware.fair_fairEnv (z := z)) hfin
      (.inl ⟨rfl, rfl⟩) (hfed n (Nat.le_refl n))
    obtain ⟨es', hlog', hsteps, hblk⟩ := hres s' rfl
    rw [hlog, List.append_cancel_left_eq] at hlog'
    subst hlog'
    have hall : ReadsAll z (Decoder.init v) [] (((ds'.map Delivery.sent).flatten ++ tail').map
        Prod.snd) es s'.decoder s'.remainder := hreads
    rw [hqs] at hall
    refine ⟨es, _, _, hall, hsteps, hblk (hne.imp (fun h h' => h ?_) fun h h' => h ?_)⟩
    · subst h'
      exact List.map_eq_nil_iff.1 hds.symm
    · rw [h', List.map_nil]

namespace Firmware

variable {z : Zlib} {σ τ : Firmware z} {v : UInt8} {time : Nat}

/-- The data task goes on. -/
def dataTaskStep (σ : Firmware z) : Firmware z :=
  match σ.calls, σ.world.pc with
  | none, .loop => { σ with world := σ.world.dispatch }
  | none, .poll rest => { σ with world := σ.world.pollNext rest }
  | none, .copy c count rest => { σ with world := σ.world.copyHead c count rest }
  | none, .manage c count data rest =>
    if σ.queue.length < PrintLinkedListCount then
      { σ.setPrinter (σ.printer.realloc data) with
        calls := some [.PrintDataProcesser], fed := σ.fed ++ [(c, data)] }
    else { σ with world := σ.world.copyDone c count data rest false σ.printer }
  | some [], .manage c count data rest =>
    { σ with world := σ.world.copyDone c count data rest true σ.printer, calls := none }
  | some (call :: calls), _ =>
    match Printer.call z call σ.printer with
    | some (printer, new) => { σ.setPrinter printer with calls := some (new ++ calls) }
    | none => σ
  | some [], _ => σ

theorem dataTaskStep_run {selfTests : Prop} (σ : Firmware z) :
    ReflTransGen (Step selfTests) σ σ.dataTaskStep := by
  unfold dataTaskStep
  split
  next hcalls hpc => exact .single (.goes σ _ (.dispatch _ hpc))
  next rest hcalls hpc => exact .single (.goes σ _ (.poll _ rest hpc))
  next c count rest hcalls hpc => exact .single (.goes σ _ (.copyHead _ c count rest hpc))
  next c count data rest hcalls hpc =>
    split
    next hroom => exact .single (.accept σ c count data rest hpc hcalls hroom)
    next hfull => exact .single (.refuse σ c count data rest hpc hcalls hfull)
  next c count data rest hcalls hpc => exact .single (.returned σ c count data rest hpc hcalls)
  next call calls hcalls =>
    split
    next printer new hcall => exact .single (.call σ call calls new printer hcalls hcall)
    next => exact .refl
  next => exact .refl

/-- The data task goes on alone. -/
theorem dataTask_alone {selfTests : Prop} (σ : Firmware z) (n : Nat) :
    ReflTransGen (Step selfTests) σ (dataTaskStep^[n] σ) := by
  induction n with
  | zero => exact .refl
  | succ n ih =>
    rw [Function.iterate_succ_apply']
    exact ih.trans (dataTaskStep_run _)

/-- A packet arrives on the USB channel. -/
def arrives (data : List UInt8) (σ : Firmware z) : Firmware z :=
  { σ with world := (σ.world.receive .C_Type_USB data).malloc .C_Type_USB data [] }

theorem arrives_run {selfTests : Prop} (σ : Firmware z) (data : List UInt8)
    (hp : σ.world.pending .C_Type_USB = []) :
    ReflTransGen (Step selfTests) σ (σ.arrives data) := by
  have hreceive : Step selfTests σ { σ with world := σ.world.receive .C_Type_USB data } :=
    .goes σ _ (.receive _ .C_Type_USB data hp)
  have hpiece : (σ.world.receive .C_Type_USB data).pending .C_Type_USB = [data] := by
    simp only [World.receive, Function.update_self]
    rfl
  exact (ReflTransGen.single hreceive).tail (.goes _ _ (.malloc _ .C_Type_USB data [] hpiece))

/-- **Compression is invisible.** One run, without a self test, accepted a stream with compressed
blocks, each of which begins between two commands and ends with its packet, and another one accepted
the stream with the blocks replaced by their content, cut in any way; this stream brings the scan
neither to `ANGENL` nor to `NVS-WiFi`. Whatever the timers, the receivers and the print task did in
either, they have executed the same commands, and the same bytes are unread. -/
theorem compression_invisible (hfin : z.Finite) {time' : Nat} (ds : List (Delivery z))
    (tail : List (List UInt8)) (hne : ds ≠ [] ∨ tail ≠ [])
    (hq : (Decoder.init v).Smooth (expandedBytes ds tail))
    (hbetween : Delivery.Between (Decoder.init v) [] ds)
    (hσ : ReflTransGen (Step False) (init z v time) σ)
    (hτ : ReflTransGen (Step False) (init z v time') τ) (hcσ : σ.calls = none)
    (hcτ : τ.calls = none)
    (hsent : σ.fed.map Prod.snd = ds.flatMap Delivery.arriving ++ tail)
    (hplain : (τ.fed.map Prod.snd).flatten = expandedBytes ds tail) (hany : τ.fed ≠ []) :
    σ.printer.log = τ.printer.log ∧ σ.printer.decoder.outside = τ.printer.decoder.outside ∧
      σ.printer.remainder = τ.printer.remainder := by
  obtain ⟨es, d, u, hreads, hsteps, hblk⟩ := ReadsAll.expands hfin ds tail hne hq hbetween
  obtain ⟨hd, hu, hlog⟩ := (hsent ▸ (stream_read hfin hσ hcσ).1).unique hreads
  -- the other run accepted a stream without blocks
  have hqτ : (Decoder.init v).Smooth (expandedBytes (z := z) [] (τ.fed.map Prod.snd)) := by
    rw [expandedBytes, hplain]
    exact hq
  obtain ⟨esτ, dτ, uτ, hreadsτ, hstepsτ, hblkτ⟩ := ReadsAll.expands hfin [] (τ.fed.map Prod.snd)
    (.inr (by simpa using hany)) hqτ trivial
  obtain ⟨hdτ, huτ, hlogτ⟩ := (stream_read hfin hτ hcτ).1.unique hreadsτ
  rw [expandedBytes, hplain] at hstepsτ
  obtain ⟨hsame, hunread, rfl⟩ := hsteps.unique hblk hstepsτ hblkτ
  exact ⟨hlog.trans hlogτ.symm, by rw [hd, hdτ, hsame], by rw [hu, huτ, hunread]⟩

/-- The block in two packets, cut inside its size. -/
def densityDelivery : Delivery Zlib.stored where
  plain := []
  block := Printer.densityBlock
  packets := [(0, [0x41, 0x4E, 0x47, 0x45, 0x4E, 0x4C, 0])]
  last := (0, [10, 1, 5, 0, 0xFA, 0xFF, 0x40, 0x53, 0x7E, 0x7E, 0x32])
  last_ne := by simp
  cut := rfl

/-- A density command, compressed and plain, and the byte behind it. -/
theorem compression_invisible_density :
    ∃ σ τ : Firmware Zlib.stored, σ.printer.log = [.density 50] ∧
      σ.printer.log = τ.printer.log ∧ σ.printer.decoder.outside = τ.printer.decoder.outside ∧
      σ.printer.remainder = τ.printer.remainder := by
  have h₁ : ReflTransGen (Step False) (init Zlib.stored 2 0) _ :=
    arrives_run _ [0x41, 0x4E, 0x47, 0x45, 0x4E, 0x4C, 0] rfl
  have h₂ := h₁.trans (arrives_run _ [10, 1, 5, 0, 0xFA, 0xFF, 0x40, 0x53, 0x7E, 0x7E, 0x32] rfl)
  have hσ := (h₂.trans (arrives_run _ [0x40] rfl)).trans (dataTask_alone _ 38)
  have hτ : ReflTransGen (Step False) (init Zlib.stored 2 0) _ :=
    (arrives_run _ [0x40, 0x53, 0x7E, 0x7E, 0x32, 0x40] rfl).trans (dataTask_alone _ 9)
  refine ⟨_, _, ?_, compression_invisible Zlib.stored_finite [densityDelivery]
    [[0x40]] (.inl (by simp)) (Decoder.Quiet.smooth (by decide +kernel)) ?_ hσ hτ ?_ ?_ ?_ ?_ ?_⟩
  · decide +kernel
  · exact ⟨⟨[], _, rfl, .refl, .refl⟩, fun _ _ _ _ _ => trivial⟩
  · decide +kernel
  · decide +kernel
  · decide +kernel
  · decide +kernel
  · decide +kernel

/-- **A compressed document is printed like the document.** The pages of a document are sent in
compressed blocks, whole or in parts, each block beginning between two commands and ending with its
packet, and behind them at least eight bytes without a head. In every run without a self test that
accepts the packets, whenever the data task is outside `PrintDataManagement`: the executed commands
are the first ones of the document; the printed lines are rows of the document, in order and each at
most once; and once all packets are accepted, its commands have been executed, all of them and no
others. -/
theorem compressed_document_printed (hfin : z.Finite) {sheets : List Sheet} (trail : List UInt8)
    {ds : List (Delivery z)} {tail : List (List UInt8)} (hs : ∀ sheet ∈ sheets, sheet.Clean)
    (hlen : MAxHeadLength ≤ trail.length) (htrail : Headless trail)
    (hexpanded : expandedBytes ds tail = sheetBytes sheets ++ trail)
    (hbetween : Delivery.Between (Decoder.init v) [] ds)
    (hrun : ReflTransGen (Step False) (init z v time) σ) (hcalls : σ.calls = none)
    (hfed : σ.fed.map Prod.snd <+: ds.flatMap Delivery.arriving ++ tail) :
    σ.printer.log <+: sheetEvents 0 sheets ∧
      (σ.latched.filter (· ≠ blank)).Sublist (sheetRows sheets) ∧
      (σ.fed.map Prod.snd = ds.flatMap Delivery.arriving ++ tail →
        σ.printer.log = sheetEvents 0 sheets) := by
  have hne : ds ≠ [] ∨ tail ≠ [] := by
    by_contra hnone
    obtain ⟨rfl, rfl⟩ : ds = [] ∧ tail = [] := by simpa using hnone
    have htrail' : trail = [] := (List.append_eq_nil_iff.1 hexpanded.symm).2
    rw [htrail'] at hlen
    exact absurd hlen (by decide)
  obtain ⟨d', u', hw⟩ := readable_sheets (v := v) hs hlen htrail
  have hout : ¬ d'.InBlock := by
    rintro (hs | hs)
    · exact hw.scanning.1 (by rw [hs]; decide)
    · exact hw.scanning.2 hs
  have hq : (Decoder.init v).Smooth (expandedBytes ds tail) := by
    rw [hexpanded]
    have hund := Decoder.undisturbed_of_steps hw.steps hw.blocked hw.scanning hw.nvs
    exact hund.smooth hw.steps hw.blocked hout
  obtain ⟨es, d, u, hreads, hsteps, hblk⟩ := ReadsAll.expands hfin ds tail hne hq hbetween
  rw [hexpanded] at hsteps
  obtain ⟨-, -, rfl⟩ := hsteps.unique hblk hw.steps hw.blocked
  have hlog : σ.printer.log <+: sheetEvents 0 sheets := by
    obtain ⟨rest, hrest⟩ := hfed
    rw [← hrest] at hreads
    obtain ⟨es₁, es₂, _, _, hfirst, -, heq⟩ := hreads.split
    obtain ⟨-, -, hlog⟩ := (stream_read hfin hrun hcalls).1.unique hfirst
    exact ⟨es₂, by rw [hlog, ← heq]⟩
  refine ⟨hlog, lines_of_log hrun hlog, fun hall => ?_⟩
  rw [← hall] at hreads
  exact ((stream_read hfin hrun hcalls).1.unique hreads).2.2

/-- A page of one row in a stored block. -/
def pageBlock : Block Zlib.stored where
  data := [1, 14, 0, 0xF1, 0xFF, 0x40, 0x3C, 0x23, 0x3C, 0x81, 0xFF, 0x80, 0xFF, 0x81, 0x3F,
    0x23, 0x3E, 0x40, 0x3E]
  strm := some [0x40, 0x3C, 0x23, 0x3C, 0x81, 0xFF, 0x80, 0xFF, 0x81, 0x3F, 0x23, 0x3E, 0x40, 0x3E]
  pieces := [[0x40, 0x3C, 0x23, 0x3C, 0x81, 0xFF, 0x80, 0xFF, 0x81, 0x3F, 0x23, 0x3E, 0x40, 0x3E]]
  data_ne := by simp
  size_lt := by decide
  init := rfl
  output := .last rfl (by decide)

/-- The block in one packet. -/
def pageDelivery : Delivery Zlib.stored where
  plain := []
  block := pageBlock
  packets := []
  last := (0, pageBlock.bytes)
  last_ne := by decide +kernel
  cut := rfl

/-- The block arrives and is read, and the bytes behind it. -/
theorem compressed_document_printed_page :
    ∃ σ : Firmware Zlib.stored,
      σ.fed.map Prod.snd = [pageDelivery].flatMap Delivery.arriving ++ [List.replicate 8 0] ∧
      σ.printer.log <+: sheetEvents 0 [⟨[], [[.run 0x81 255 (by decide), .run 0x80 255 (by decide),
        .run 0x81 63 (by decide)]]⟩] ∧
      (σ.latched.filter (· ≠ blank)).Sublist (sheetRows [⟨[], [[.run 0x81 255 (by decide),
        .run 0x80 255 (by decide), .run 0x81 63 (by decide)]]⟩]) ∧
      (σ.fed.map Prod.snd = [pageDelivery].flatMap Delivery.arriving ++ [List.replicate 8 0] →
        σ.printer.log = sheetEvents 0 [⟨[], [[.run 0x81 255 (by decide), .run 0x80 255 (by decide),
          .run 0x81 63 (by decide)]]⟩]) := by
  have hpage : ReflTransGen (Step False) (init Zlib.stored 2 0) _ :=
    arrives_run _ pageBlock.bytes rfl
  have hrun := (hpage.trans (arrives_run _ (List.replicate 8 0) rfl)).trans (dataTask_alone _ 60)
  refine ⟨_, ?_, compressed_document_printed Zlib.stored_finite (List.replicate 8 0)
    ?_ (by decide) (by decide +kernel) rfl ?_ hrun ?_ ?_⟩
  · decide +kernel
  · intro sheet hm
    obtain rfl := List.mem_singleton.1 hm
    exact ⟨by decide, by decide +kernel, by decide +kernel⟩
  · exact ⟨⟨[], _, rfl, .refl, .refl⟩, fun _ _ _ _ _ => trivial⟩
  · decide +kernel
  · decide +kernel

end Firmware

end ThermalPrinter
