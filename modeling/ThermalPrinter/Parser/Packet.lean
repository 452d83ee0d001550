import ThermalPrinter.Parser.Progress

/-!
# What a packet does

The effect of a packet on the parser in terms of the reader alone (`Reads`): the reader runs on the
unread bytes and the packet until it is blocked, and if it is blocked at the last byte of a
compressed block, the block is inflated on the spot. A call of `PrintDataManagement` that returns
does exactly that (`feed_reads`), whatever is queued and whatever the printing side takes meanwhile.
So the packets that were accepted determine the decoder, the unread bytes and the executed commands
(`ReadsAll.unique`).
-/

namespace ThermalPrinter

open Lookahead

/-- What a packet does, for the unread bytes and the packet `u`: the events, and the decoder and the
unread bytes it leaves. -/
inductive Reads (z : Zlib) (d : Decoder) (u : List UInt8) :
    List Event → Decoder → List UInt8 → Prop
  | plain {es : List Event} {d' : Decoder} {u' : List UInt8} :
      parser.Steps d u es d' u' → parser.Blocked d' u' → ¬ d'.AtBlock u' → Reads z d u es d' u'
  | rejected {es : List Event} {d₁ : Decoder} {b : UInt8} {rest : List UInt8} :
      parser.Steps d u es d₁ (b :: rest) → parser.Blocked d₁ (b :: rest) →
      d₁.AtBlock (b :: rest) → d₁.Write + 1 = d₁.ZipSize →
      z.inflateInit2 (d₁.blockData b) = none →
      Reads z d u es ((d₁.inflating b).released false) rest
  | inflated {es es' : List Event} {d₁ d₂ : Decoder} {b : UInt8} {rest u' : List UInt8}
      {strm : z.z_stream} {pieces : List (List UInt8)} {ended : Bool} :
      parser.Steps d u es d₁ (b :: rest) → parser.Blocked d₁ (b :: rest) →
      d₁.AtBlock (b :: rest) → d₁.Write + 1 = d₁.ZipSize →
      z.inflateInit2 (d₁.blockData b) = some strm → z.Output strm pieces ended →
      Printer.Calm (d₁.inflating b) rest pieces →
      parser.Feeds (d₁.inflating b) rest pieces es' d₂ u' →
      Reads z d u (es ++ es') (d₂.released ended) u'

/-- What packets do, one after another. -/
inductive ReadsAll (z : Zlib) :
    Decoder → List UInt8 → List (List UInt8) → List Event → Decoder → List UInt8 → Prop
  | nil {d : Decoder} {u : List UInt8} : ReadsAll z d u [] [] d u
  | cons {d d₁ d' : Decoder} {u u₁ u' p : List UInt8} {ps : List (List UInt8)}
      {es es' : List Event} :
      Reads z d (u ++ p) es d₁ u₁ → ReadsAll z d₁ u₁ ps es' d' u' →
      ReadsAll z d u (p :: ps) (es ++ es') d' u'

section
variable {z : Zlib} {d d' d₁ d₂ : Decoder} {u u' u₁ u₂ : List UInt8} {es es₁ es₂ : List Event}

/-- What a packet does is determined. -/
theorem Reads.unique (h₁ : Reads z d u es₁ d₁ u₁) (h₂ : Reads z d u es₂ d₂ u₂) :
    d₁ = d₂ ∧ u₁ = u₂ ∧ es₁ = es₂ := by
  cases h₁ with
  | plain hs hb hat =>
    cases h₂ with
    | plain hs' hb' => exact hs.unique hb hs' hb'
    | rejected hs' hb' hat' | inflated hs' hb' hat' =>
      obtain ⟨rfl, rfl, -⟩ := hs.unique hb hs' hb'
      exact absurd hat' hat
  | rejected hs hb hat _ hnone =>
    cases h₂ with
    | plain hs' hb' hat' =>
      obtain ⟨rfl, rfl, -⟩ := hs.unique hb hs' hb'
      exact absurd hat hat'
    | rejected hs' hb' =>
      obtain ⟨rfl, hu, rfl⟩ := hs.unique hb hs' hb'
      cases hu
      exact ⟨rfl, rfl, rfl⟩
    | inflated hs' hb' _ _ hsome =>
      obtain ⟨rfl, hu, -⟩ := hs.unique hb hs' hb'
      cases hu
      rw [hnone] at hsome
      cases hsome
  | inflated hs hb hat _ hsome hout _ hfeeds =>
    cases h₂ with
    | plain hs' hb' hat' =>
      obtain ⟨rfl, rfl, -⟩ := hs.unique hb hs' hb'
      exact absurd hat hat'
    | rejected hs' hb' _ _ hnone =>
      obtain ⟨rfl, hu, -⟩ := hs.unique hb hs' hb'
      cases hu
      rw [hsome] at hnone
      cases hnone
    | inflated hs' hb' _ _ hsome' hout' _ hfeeds' =>
      obtain ⟨rfl, hu, rfl⟩ := hs.unique hb hs' hb'
      cases hu
      rw [hsome, Option.some.injEq] at hsome'
      subst hsome'
      obtain ⟨rfl, rfl⟩ := hout.unique hout'
      obtain ⟨rfl, rfl, rfl⟩ := hfeeds.unique hfeeds'
      exact ⟨rfl, rfl, rfl⟩

/-- Bytes that are read pass their blocks. -/
theorem Reads.passesBlocks (h : Reads z d u es d' u') : d.PassesBlocks z u := by
  intro es₁ d₁ u₁ hsteps hblk hat
  cases h with
  | plain hs hb hnot =>
    obtain ⟨rfl, rfl, -⟩ := hs.unique hb hsteps hblk
    exact absurd hat hnot
  | rejected hs hb _ hw hnone =>
    obtain ⟨rfl, rfl, -⟩ := hs.unique hb hsteps hblk
    refine ⟨by omega, ?_⟩
    intro b rest strm pieces ended hu hsome
    cases hu
    rw [hnone] at hsome
    cases hsome
  | inflated hs hb _ hw hsome hout hcalm =>
    obtain ⟨rfl, rfl, -⟩ := hs.unique hb hsteps hblk
    refine ⟨by omega, ?_⟩
    intro b rest strm pieces ended hu hsome' hout'
    cases hu
    rw [hsome, Option.some.injEq] at hsome'
    subst hsome'
    rwa [(hout'.unique hout).1]

/-- What packets do is determined. -/
theorem ReadsAll.unique {ps : List (List UInt8)} (h₁ : ReadsAll z d u ps es₁ d₁ u₁)
    (h₂ : ReadsAll z d u ps es₂ d₂ u₂) : d₁ = d₂ ∧ u₁ = u₂ ∧ es₁ = es₂ := by
  induction h₁ generalizing es₂ with
  | nil =>
    cases h₂
    exact ⟨rfl, rfl, rfl⟩
  | cons h _ ih =>
    cases h₂ with
    | cons h' hrest =>
      obtain ⟨rfl, rfl, rfl⟩ := h.unique h'
      obtain ⟨rfl, rfl, rfl⟩ := ih hrest
      exact ⟨rfl, rfl, rfl⟩

/-- Another packet is read. -/
theorem ReadsAll.snoc {ps : List (List UInt8)} {p : List UInt8} (h : ReadsAll z d u ps es d₁ u₁)
    (hp : Reads z d₁ (u₁ ++ p) es₁ d' u') : ReadsAll z d u (ps ++ [p]) (es ++ es₁) d' u' := by
  induction h with
  | nil => simpa using ReadsAll.cons hp .nil
  | cons h _ ih =>
    rw [List.append_assoc]
    exact .cons h (ih hp)

end

/-! ## Calls of `PrintDataManagement` -/

namespace Printer

variable {s s' s₁ : Printer} {env : Env} {es : List Event} {data : List UInt8} {fuel : Nat}

/-- The block at whose last byte the reader is blocked is inflated, if the pass over it ends. -/
theorem finishBlock_reads (hfair : env.Fair) (hfin : env.zlib.Finite) (hb : s₁.InBuffer)
    (hf : s₁.command.ReturnFlag = false) (ht : s₁.decoder.Tidy) {d : Decoder} {u : List UInt8}
    (hsteps : parser.Steps d u es s₁.decoder s₁.unread)
    (hblk : parser.Blocked s₁.decoder s₁.unread) (hat : s₁.decoder.AtBlock s₁.unread) {k : Nat}
    (hrun : finishBlock env k s₁ = .ok s') :
    ∃ es' s'' n, (∀ k, n ≤ k → finishBlock env k s₁ = .ok s'') ∧
      Reads env.zlib d u (es ++ es') s''.decoder s''.remainder ∧ s''.log = s₁.log ++ es' ∧
      s''.decoder.Tidy := by
  obtain ⟨z, hz, hl, ⟨h0, hw⟩ | ⟨b, rest, hu, hw⟩⟩ := ht.atBlock hblk hat
  · -- a block without bytes: the loop spins
    rcases finishBlock_result hfair hfin hb hf ht hblk hat with ⟨hpass, -⟩ | ⟨-, hstop⟩
    · exact absurd h0 hpass.1
    · exact absurd hrun (hstop k s')
  · have hroomz : s₁.command.Write < (s₁.command.zipData.getD []).length := by
      rw [show s₁.command.zipData = some z from hz, Option.getD_some, hl]
      exact Nat.lt_of_succ_le (Nat.le_of_eq hw)
    rw [hu] at hsteps hblk hat
    cases hinit : env.zlib.inflateInit2 (s₁.decoder.blockData b) with
    | none =>
      refine ⟨[], (s₁.beginInflate b).endInflate false, 1, ?_, ?_, by
        simp [beginInflate, endInflate, ReturnModle], .inl ⟨rfl, rfl⟩⟩
      · intro k hk
        obtain ⟨k, rfl⟩ : ∃ i, k = i + 1 := ⟨k - 1, by omega⟩
        exact finishBlock_rejected hb hu hw hroomz hinit k
      · rw [List.append_nil, show ((s₁.beginInflate b).endInflate false).remainder = rest from
          beginInflate_remainder hb hu]
        exact .rejected hsteps hblk hat hw hinit
    | some strm =>
      obtain ⟨pieces, ended, hout⟩ := hfin _ _ hinit
      have hcalm : Calm (s₁.decoder.inflating b) rest pieces := by
        by_contra hcalm
        have hlen : s₁.command.Write + 1 = (s₁.command.zipData.getD []).length := by
          rw [show s₁.command.zipData = some z from hz, Option.getD_some, hl]
          exact hw
        exact finishBlock_not_calm hfair hb hu hw hlen hinit hout hcalm k s' hrun
      obtain ⟨s'', d₂, es', n, hn, hfeeds, hd, hlog⟩ :=
        finishBlock_inflates hfair hb hu hw hroomz hinit hout hcalm
      refine ⟨es', s'', n, hn, ?_, hlog, hd ▸ .inl ⟨rfl, rfl⟩⟩
      rw [hd]
      exact .inflated hsteps hblk hat hw hinit hout hcalm hfeeds

/-- **What a packet does**, if the call of `PrintDataManagement` returns and accepts it. -/
theorem feed_reads (hfair : env.Fair) (hfin : env.zlib.Finite) (ht : s.decoder.Tidy)
    (hr : feed env fuel data s = .ok (true, s')) :
    ∃ es, Reads env.zlib s.decoder (s.remainder ++ data) es s'.decoder s'.remainder ∧
      s'.log = s.log ++ es ∧ s'.decoder.Tidy := by
  rw [feed, PrintDataManagement] at hr
  split at hr
  next hroom =>
    have hb : (s.realloc data).InBuffer := Nat.zero_le _
    obtain ⟨s₁, es, j, hran, hblk, hend⟩ := PrintDataProcesser_reaches env hb rfl
    have ht₁ : s₁.decoder.Tidy := Decoder.steps_tidy ht hran.steps
    have hproc : PrintDataProcesser env fuel (s.realloc data) = .ok s' := by
      cases hp : PrintDataProcesser env fuel (s.realloc data) with
      | error e => rw [hp] at hr; cases hr
      | ok q =>
        rw [hp] at hr
        cases hr
        rfl
    rcases hend with ⟨hsus, hat, hrun⟩ | ⟨hf₁, hat, hrun⟩
    · -- the packet is suspended outside a block
      have hmore := PrintDataProcesser_mono (show fuel ≤ j + fuel by omega) _ _ hproc
      rw [hrun] at hmore
      cases hmore
      refine ⟨es, ?_, hran.log, ht₁⟩
      rw [hsus.remainder_eq hran.inBuffer]
      exact .plain hran.steps hblk hat
    · have hmore := PrintDataProcesser_mono (show fuel ≤ j + fuel + 1 by omega) _ _ hproc
      have hfinish : finishBlock env fuel s₁ = .ok s' := (hrun fuel).symm.trans hmore
      obtain ⟨es', s'', n, hn, hreads, hlog, ht'⟩ :=
        finishBlock_reads hfair hfin hran.inBuffer hf₁ ht₁ hran.steps hblk hat hfinish
      have hsame := PrintDataProcesser_mono (show fuel ≤ j + (n + fuel) + 1 by omega) _ _ hproc
      have hsame' : finishBlock env (n + fuel) s₁ = .ok s' := (hrun (n + fuel)).symm.trans hsame
      rw [hn _ (by omega)] at hsame'
      cases hsame'
      exact ⟨es ++ es', hreads, by rw [hlog, hran.log, ← List.append_assoc]; rfl, ht'⟩
  next => cases hr

/-- With room in the queue the call returns for bytes that can be read. -/
theorem feed_of_reads (hfair : env.Fair) (hfin : env.zlib.Finite) (ht : s.decoder.Tidy)
    (hroom : s.PrintBLink.length < PrintLinkedListCount) {d' : Decoder} {u' : List UInt8}
    (h : Reads env.zlib s.decoder (s.remainder ++ data) es d' u') :
    ∃ s' j, (∀ k, j ≤ k → feed env k data s = .ok (true, s')) ∧ s'.decoder = d' ∧
      s'.remainder = u' ∧ s'.log = s.log ++ es ∧ s'.decoder.Tidy := by
  rcases feed_result hfair hfin ht hroom data with ⟨-, s', j, hj, ht'⟩ | ⟨hpass, -⟩
  · obtain ⟨es', hreads, hlog, -⟩ := feed_reads hfair hfin ht (hj j (Nat.le_refl j))
    obtain ⟨hd, hu, rfl⟩ := hreads.unique h
    exact ⟨s', j, hj, hd, hu, hlog, ht'⟩
  · exact absurd h.passesBlocks hpass

/-- A packet does the same to printers that agree in the decoder and in the unread bytes. -/
theorem feed_congr (hfair : env.Fair) (hfin : env.zlib.Finite) {t : Printer}
    (ht : s.decoder.Tidy) (hd : t.decoder = s.decoder) (hu : t.remainder = s.remainder)
    (hroom : t.PrintBLink.length < PrintLinkedListCount)
    (hr : feed env fuel data s = .ok (true, s')) :
    ∃ t' es n, (∀ k, n ≤ k → feed env k data t = .ok (true, t')) ∧
      s'.log = s.log ++ es ∧ t'.log = t.log ++ es := by
  obtain ⟨es, hreads, hlog, -⟩ := feed_reads hfair hfin ht hr
  rw [← hd, ← hu] at hreads
  obtain ⟨t', n, hn, -, -, hlog', -⟩ := feed_of_reads hfair hfin (hd ▸ ht) hroom hreads
  exact ⟨t', es, n, hn, hlog, hlog'⟩

/-- What packets do, if all of them are accepted. -/
theorem feedAll_reads (hfair : env.Fair) (hfin : env.zlib.Finite)
    {ps : List (Nat × List UInt8)} (ht : s.decoder.Tidy)
    (hr : feedAll env fuel ps s = .ok (some s')) :
    ∃ es, ReadsAll env.zlib s.decoder s.remainder (ps.map Prod.snd) es s'.decoder s'.remainder ∧
      s'.log = s.log ++ es := by
  induction ps generalizing s with
  | nil =>
    cases hr
    exact ⟨[], .nil, by simp⟩
  | cons p ps ih =>
    rw [feedAll] at hr
    obtain ⟨⟨accepted, s₁⟩, h₁, h₂⟩ := bind_eq_ok.1 hr
    cases accepted with
    | false => cases h₂
    | true =>
      obtain ⟨es, hreads, hlog, ht₁⟩ :=
        feed_reads hfair hfin (show (s.takeRows p.1).decoder.Tidy from ht) h₁
      obtain ⟨es', hrest, hlog'⟩ := ih ht₁ h₂
      exact ⟨es ++ es', .cons hreads hrest, by rw [hlog', hlog, List.append_assoc]; rfl⟩

/-- Packets that can be read are accepted, if the printing side takes enough rows. -/
theorem feedAll_of_reads (hfair : env.Fair) (hfin : env.zlib.Finite) {d d' : Decoder}
    {u u' : List UInt8} {ps : List (List UInt8)} (h : ReadsAll env.zlib d u ps es d' u')
    (ht : s.decoder.Tidy) (hd : s.decoder = d) (hu : s.remainder = u) :
    ∃ (qs : List (Nat × List UInt8)) (s' : Printer) (n : Nat), qs.map Prod.snd = ps ∧
      ∀ fuel, n ≤ fuel → feedAll env fuel qs s = .ok (some s') := by
  induction h generalizing s with
  | nil => exact ⟨[], s, 0, rfl, fun _ _ => rfl⟩
  | @cons d d₁ d' u u₁ u' p ps es es' h hrest ih =>
    subst hd hu
    -- before the packet the whole queue is taken
    have hroom : (s.takeRows s.PrintBLink.length).PrintBLink.length < PrintLinkedListCount := by
      simp [takeRows, PrintLinkedListCount]
    obtain ⟨s₁, j, hj, hd₁, hu₁, -, ht₁⟩ := feed_of_reads hfair hfin
      (show (s.takeRows s.PrintBLink.length).decoder.Tidy from ht) hroom h
    obtain ⟨qs, s', n, hqs, hn⟩ := ih ht₁ hd₁ hu₁
    refine ⟨(s.PrintBLink.length, p) :: qs, s', j + n, by simp [hqs], ?_⟩
    intro fuel hfuel
    rw [feedAll]
    refine bind_eq_ok.2 ⟨(true, s₁), hj fuel (by omega), ?_⟩
    exact hn fuel (by omega)

/-- The printing side can take enough rows that no packet is refused. -/
theorem exists_not_refused (hfair : env.Fair) (hfin : env.zlib.Finite) (ht : s.decoder.Tidy)
    (ps : List (List UInt8)) :
    ∃ qs : List (Nat × List UInt8), qs.map Prod.snd = ps ∧
      ∀ fuel, feedAll env fuel qs s ≠ .ok none := by
  induction ps generalizing s with
  | nil => exact ⟨[], rfl, fun _ h => by cases h⟩
  | cons p ps ih =>
    -- before the packet the whole queue is taken
    have hroom : (s.takeRows s.PrintBLink.length).PrintBLink.length < PrintLinkedListCount := by
      simp [takeRows, PrintLinkedListCount]
    obtain ⟨-, s₁, j, hj, ht₁⟩ | ⟨-, hstop⟩ := feed_result hfair hfin
      (show (s.takeRows s.PrintBLink.length).decoder.Tidy from ht) hroom p
    · obtain ⟨qs, hqs, hnever⟩ := ih ht₁
      refine ⟨(s.PrintBLink.length, p) :: qs, by rw [List.map_cons, hqs], fun fuel h => ?_⟩
      rw [feedAll] at h
      obtain ⟨r, hr, hrest⟩ := bind_eq_ok.1 h
      have hsame := feed_mono (Nat.le_add_left fuel j) hr
      rw [hj _ (Nat.le_add_right j fuel)] at hsame
      cases hsame
      exact hnever fuel hrest
    · refine ⟨(s.PrintBLink.length, p) :: ps.map (0, ·), by simp [Function.comp_def],
        fun fuel h => ?_⟩
      rw [feedAll] at h
      obtain ⟨r, hr, -⟩ := bind_eq_ok.1 h
      exact hstop fuel r hr

end Printer

end ThermalPrinter
