import ThermalPrinter.Parser.Framing
import ThermalPrinter.Parser.Waiting

/-!
# Corrupt blocks

A block is corrupt if zlib rejects it, if `inflate` fails on it, or if it ends before its stream
does. `ZipDecode` gives up in the first two cases and does not notice the third. What is left then:
the bytes behind the block have been set aside when the block began to inflate, so without output
they are not looked at before the next packet; and output is read after them, and leaves its unread
bytes, and in the third case also its state, to the bytes that follow. A block is `Harmless` where
no complete command is set aside so, or where the bytes behind it are whole commands and its output
ends between two commands. Then it does no more harm than its content: an idle parser reads the
bytes behind it, all in the same call (`corrupt_contained`).
-/

namespace ThermalPrinter

open Lookahead

/-- The output of a stream ends before the stream does: the last call of `inflate`, which leaves
room in the buffer, does not return `Z_STREAM_END`. -/
inductive Zlib.Truncated (z : Zlib) : z.z_stream → Prop
  | last {strm : z.z_stream} : (z.piece strm).length < DecodeMaxBytes →
      (z.inflate strm DecodeMaxBytes).1 ≠ .Z_STREAM_END → Truncated z strm
  | more {strm : z.z_stream} : (z.piece strm).length = DecodeMaxBytes →
      Truncated z (z.next strm) → Truncated z strm

namespace Decoder

variable {z : Zlib} {d d' : Decoder} {u u' v w w' rest output : List UInt8} {es : List Event}

/-- The bytes of a packet complete a corrupt block, after the commands `es`: the block leaves the
idle parser `d₀` and the bytes `rest` behind it, and gives out `pieces`, to its end if it was only
truncated. -/
inductive Corrupt (z : Zlib) (d : Decoder) (w : List UInt8) :
    List Event → Decoder → List UInt8 → List (List UInt8) → Bool → Prop
  | rejected {es : List Event} {d₁ : Decoder} {b : UInt8} {rest : List UInt8} :
      parser.Steps d w es d₁ (b :: rest) → parser.Blocked d₁ (b :: rest) →
      d₁.AtBlock (b :: rest) → d₁.Write + 1 = d₁.ZipSize →
      z.inflateInit2 (d₁.blockData b) = none →
      Corrupt z d w es ((d₁.inflating b).released false) rest [] false
  | failed {es : List Event} {d₁ : Decoder} {b : UInt8} {rest : List UInt8}
      {strm : z.z_stream} {pieces : List (List UInt8)} :
      parser.Steps d w es d₁ (b :: rest) → parser.Blocked d₁ (b :: rest) →
      d₁.AtBlock (b :: rest) → d₁.Write + 1 = d₁.ZipSize →
      z.inflateInit2 (d₁.blockData b) = some strm → z.Output strm pieces false →
      Corrupt z d w es ((d₁.inflating b).released false) rest pieces false
  | truncated {es : List Event} {d₁ : Decoder} {b : UInt8} {rest : List UInt8}
      {strm : z.z_stream} {pieces : List (List UInt8)} :
      parser.Steps d w es d₁ (b :: rest) → parser.Blocked d₁ (b :: rest) →
      d₁.AtBlock (b :: rest) → d₁.Write + 1 = d₁.ZipSize →
      z.inflateInit2 (d₁.blockData b) = some strm → z.Output strm pieces true →
      z.Truncated strm → Corrupt z d w es ((d₁.inflating b).released false) rest pieces true

/-- Idle bytes whatever follows them: no head begins in them. -/
def IdleBytes (u : List UInt8) : Prop :=
  ∀ s₁ s₂, u = s₁ ++ s₂ → s₂ ≠ [] → ∀ h ∈ CMDHead, ¬ h.2 <+: s₂ ∧ ¬ s₂ <+: h.2

/-- What keeps a corrupt block from doing more harm than its content. Behind a block that gave
nothing out, no command is complete. Behind a truncated one without output, the bytes do not run out
behind a command and begin no other block. With output, the bytes behind the block are whole
commands, and the output, read after them, ends outside a block with idle bytes unread, and between
two commands unless `inflate` failed. -/
inductive Harmless (d₀ : Decoder) (rest : List UInt8) : List (List UInt8) → Bool → Prop
  | nothing : d₀.Unfinished rest → Harmless d₀ rest [] false
  | empty {es : List Event} {d : Decoder} {u : List UInt8} :
      parser.Steps d₀ rest es d u → parser.Blocked d u → ¬ d.InBlock → ¬ d.Held u →
      Harmless d₀ rest [[]] true
  | output {pieces : List (List UInt8)} {ended : Bool} {es es' : List Event} {d₁ d : Decoder}
      {u : List UInt8} :
      pieces.flatten ≠ [] → d₀.Clear (rest ++ pieces.flatten) →
      parser.Steps d₀ (rest ++ pieces.flatten) es d₁ pieces.flatten →
      d₁.DecodeStatus = .CommandIdle →
      parser.Steps d₁ pieces.flatten es' d u → parser.Blocked d u → ¬ d.InBlock → IdleBytes u →
      (ended = true → d.DecodeStatus = .CommandIdle) → Harmless d₀ rest pieces ended

/-- Every corrupt block that the bytes of a packet complete is harmless. -/
def Spared (z : Zlib) (d : Decoder) (w : List UInt8) : Prop :=
  ∀ es d₀ rest pieces ended, Corrupt z d w es d₀ rest pieces ended → Harmless d₀ rest pieces ended

/-- A corrupt block did no more harm than its content, `es` being what the call executed behind it:
the idle parser has read the bytes behind the block, with no complete command left; or it has read
all of them and then the output, and is idle, with bytes unread that the scan passes whatever
follows. There is no zip buffer, and `Write` is 0. -/
inductive Contained (d₀ : Decoder) (rest : List UInt8) :
    List UInt8 → List Event → Decoder → List UInt8 → Prop
  | rest {es : List Event} {d : Decoder} {u : List UInt8} :
      parser.Steps d₀ rest es d u → d.Unfinished u → d.zipData = none → d.Write = 0 →
      Contained d₀ rest [] es d u
  | output {output : List UInt8} {es es' : List Event} {d₁ d : Decoder} {u : List UInt8} :
      output ≠ [] → parser.Steps d₀ (rest ++ output) es d₁ output →
      d₁.DecodeStatus = .CommandIdle → parser.Steps d₁ output es' d u →
      d.zipData = none → d.Write = 0 →
      (∀ v, MAxHeadLength ≤ v.length → parser.Steps d.idle (u ++ v) [] d.idle v) →
      Contained d₀ rest output (es ++ es') d.idle u

/-! ## The bytes that a call leaves -/

/-- The scan passes idle bytes. -/
theorem IdleBytes.steps (hu : IdleBytes u) (hd : d.Scanning) (hv : MAxHeadLength ≤ v.length) :
    parser.Steps d (u ++ v) [] d v := by
  refine steps_skip hd hv fun s₁ s₂ hs hne => ?_
  by_contra hsome
  obtain ⟨h, hfind⟩ := Option.ne_none_iff_exists'.1 hsome
  obtain ⟨hm, -, hpre⟩ := findHead_iff.1 hfind
  obtain ⟨hin, hout⟩ := hu s₁ s₂ hs hne h hm
  exact (List.prefix_or_prefix_of_prefix hpre (List.prefix_append ..)).elim hin hout

/-- Bytes at which no head begins hold no command. -/
theorem unfinished_of_tails (hd : d.Scanning)
    (hu : ∀ t ∈ u.tails, ∀ h ∈ CMDHead, ¬ h.2 <+: t) : Unfinished d u := by
  induction u with
  | nil => exact .nil hd
  | cons b u ih =>
    simp only [List.tails, List.mem_cons, forall_eq_or_imp] at hu
    exact .idle hd hu.1 (ih hu.2)

/-- A run between two states outside blocks leaves the block alone. -/
theorem steps_keeps_zip (hd : ¬ d'.InBlock) (h : parser.Steps d u es d' u')
    (hb : parser.Blocked d' u') : d'.setZip d.zipData d.Write d.ZipSize = d' :=
  ((steps_setZip hd h).unique (blocked_setZip hd hb) h hb).1

/-- The block that is corrupt, and what zlib makes of it. -/
theorem Corrupt.block {d₀ : Decoder} {pieces : List (List UInt8)} {ended : Bool}
    (h : Corrupt z d w es d₀ rest pieces ended) :
    ∃ d₁ b, parser.Steps d w es d₁ (b :: rest) ∧ parser.Blocked d₁ (b :: rest) ∧
      d₁.AtBlock (b :: rest) ∧ d₀ = (d₁.inflating b).released false ∧
      (z.inflateInit2 (d₁.blockData b) = none ∧ pieces = [] ∧ ended = false ∨
        ∃ strm, z.inflateInit2 (d₁.blockData b) = some strm ∧ z.Output strm pieces ended) := by
  cases h with
  | rejected hs hblk hat hw hinit => exact ⟨_, _, hs, hblk, hat, rfl, .inl ⟨hinit, rfl, rfl⟩⟩
  | failed hs hblk hat hw hinit hout => exact ⟨_, _, hs, hblk, hat, rfl, .inr ⟨_, hinit, hout⟩⟩
  | truncated hs hblk hat hw hinit hout =>
    exact ⟨_, _, hs, hblk, hat, rfl, .inr ⟨_, hinit, hout⟩⟩

/-- What a packet with a corrupt block does: the pieces are fed to the idle parser, which still has
the block, and then the block is released. -/
theorem Corrupt.outcome {d₀ : Decoder} {pieces : List (List UInt8)} {ended : Bool}
    {es₁ : List Event} (h : Corrupt z d w es₁ d₀ rest pieces ended)
    (hr : Reads z d w es d' u') :
    (pieces = [] ∧ es = es₁ ∧ d' = d₀ ∧ u' = rest) ∨
      ∃ zip k es' d₂, es = es₁ ++ es' ∧ d' = d₂.released ended ∧
        parser.Feeds (d₀.setZip zip k d₀.ZipSize) rest pieces es' d₂ u' := by
  obtain ⟨d₁, b, hs, hblk, hat, rfl, hz⟩ := h.block
  cases hr with
  | plain hs' hblk' hat' =>
    obtain ⟨rfl, rfl, -⟩ := hs.unique hblk hs' hblk'
    exact absurd hat hat'
  | rejected hs' hblk' _ _ hinit' =>
    obtain ⟨rfl, hu, rfl⟩ := hs.unique hblk hs' hblk'
    cases hu
    rcases hz with ⟨-, rfl, -⟩ | ⟨strm, hinit, -⟩
    · exact .inl ⟨rfl, rfl, rfl, rfl⟩
    · rw [hinit'] at hinit
      cases hinit
  | inflated hs' hblk' _ _ hinit' hout' _ hf =>
    obtain ⟨rfl, hu, rfl⟩ := hs.unique hblk hs' hblk'
    cases hu
    rcases hz with ⟨hinit, -⟩ | ⟨strm, hinit, hout⟩
    · rw [hinit'] at hinit
      cases hinit
    · obtain rfl := Option.some.inj (hinit'.symm.trans hinit)
      obtain ⟨rfl, rfl⟩ := hout.unique hout'
      exact .inr ⟨_, _, _, _, rfl, rfl, hf⟩

/-- **A harmless block does no more harm than its content.** -/
theorem Harmless.contained {d₀ : Decoder} {pieces : List (List UInt8)} {ended : Bool}
    {es₁ : List Event} (hs : Harmless d₀ rest pieces ended)
    (h : Corrupt z d w es₁ d₀ rest pieces ended) (hr : Reads z d w es d' u') :
    ∃ es', es = es₁ ++ es' ∧ Contained d₀ rest pieces.flatten es' d' u' := by
  obtain ⟨hzip, hw, hself⟩ : d₀.zipData = none ∧ d₀.Write = 0 ∧
      ∀ zip k, (d₀.setZip zip k d₀.ZipSize).released false = d₀ := by
    obtain ⟨d₁, b, -, -, -, rfl, -⟩ := h.block
    exact ⟨rfl, rfl, fun _ _ => rfl⟩
  -- a run of the idle parser that ends outside a block leaves no block
  have hkeeps {w : List UInt8} {es : List Event} {d : Decoder} {u : List UInt8}
      (hout : ¬ d.InBlock) (hsteps : parser.Steps d₀ w es d u) (hblk : parser.Blocked d u) :
      d.setZip none 0 d₀.ZipSize = d := by
    have hsame := steps_keeps_zip hout hsteps hblk
    rwa [hzip, hw] at hsame
  rcases h.outcome hr with ⟨rfl, rfl, rfl, rfl⟩ | ⟨zip, k, es', d₂, rfl, rfl, hf⟩
  · cases hs with
    | nothing hun => exact ⟨[], (List.append_nil _).symm, .rest .refl hun hzip hw⟩
    | output hne => exact absurd rfl hne
  · refine ⟨es', rfl, ?_⟩
    cases hs with
    | nothing hun =>
      cases hf
      rw [hself]
      exact .rest .refl hun hzip hw
    | @empty _ d₁ _ hsteps hblk hout hheld =>
      have hsame := hkeeps hout hsteps hblk
      cases hf with
      | cons hsteps' hblk' hnone =>
        cases hnone
        rw [List.append_nil] at hsteps'
        obtain ⟨rfl, rfl, rfl⟩ := hsteps'.unique hblk' (steps_setZip hout hsteps)
          (blocked_setZip hout hblk)
        have hwait : d₁.Waiting _ := waiting_of_blocked hblk fun hat => hout (.inr hat.1)
        have hd : (d₁.setZip zip k d₀.ZipSize).released true = d₁ := hsame
        rw [hd, List.append_nil]
        exact .rest hsteps ((unfinished_iff hwait).2 hheld) (hsame ▸ rfl) (hsame ▸ rfl)
    | @output _ _ _ _ _ d₁ _ hne hclear hrest hmid hsteps hblk hout hu hend =>
      have hsame := hkeeps hout (hrest.trans hsteps) hblk
      have hrun := hf.steps parser_stable hclear.setZip
      have hblk₂ := hf.blocked fun hnil => hne (hnil ▸ rfl)
      obtain ⟨rfl, rfl, rfl⟩ := hrun.unique hblk₂ (steps_setZip hout (hrest.trans hsteps))
        (blocked_setZip hout hblk)
      have hd : (d₁.setZip zip k d₀.ZipSize).released ended = d₁.idle := by
        cases ended with
        | false => exact congrArg Decoder.idle hsame
        | true => exact hsame.trans (idle_eq (hend rfl)).symm
      rw [hd]
      exact .output hne hrest hmid hsteps (hsame ▸ rfl) (hsame ▸ rfl)
        fun v hv => hu.steps (scanning_of_idle rfl) hv

/-! ## The length of what is left -/

/-- A reaction to bytes that hold no complete command, and further bytes, stays among them or takes
them all. -/
theorem react_unfinished (hu : Unfinished d u) (h : d.react (u ++ v) = some (d', w', es)) :
    (∃ u', w' = u' ++ v ∧ Unfinished d' u') ∨ w'.length ≤ v.length := by
  cases hu with
  | args hlt =>
    obtain ⟨n, hn, -, rfl⟩ := react_drop h
    rw [List.length_drop, List.length_append]
    exact .inr (by omega)
  | token hs hb hrest =>
    rw [react, hs] at h
    obtain ⟨-, rfl, rfl, -⟩ := arg_eq_some.1 h
    exact .inl ⟨_, rfl, hrest⟩
  | size hs hlt =>
    rw [react, hs] at h
    obtain ⟨-, -, rfl, -⟩ := arg_eq_some.1 h
    rw [List.length_drop, List.length_append]
    exact .inr (by omega)
  | sized hs hrest =>
    rw [react, hs] at h
    obtain ⟨-, rfl, rfl, -⟩ := arg_eq_some.1 h
    exact .inl ⟨_, rfl, hrest⟩
  | data hs hlt =>
    simp only [react, hs, fetch] at h
    split at h
    · obtain ⟨-, rfl, rfl, -⟩ := arg_eq_some.1 h
      exact .inl ⟨u, rfl, .data rfl hlt⟩
    · split at h
      · obtain ⟨-, rfl, rfl, -⟩ := arg_eq_some.1 h
        cases u with
        | nil => exact .inr (by rw [List.length_drop]; exact Nat.sub_le ..)
        | cons b u =>
          rw [List.length_cons] at hlt
          exact .inl ⟨u, rfl, .data rfl (by simp only; omega)⟩
      · cases h
  | nil =>
    obtain ⟨n, -, -, rfl⟩ := react_drop h
    rw [List.length_drop]
    exact .inr (Nat.sub_le ..)
  | @idle _ b u hd hno hrest =>
    rw [react_scanning hd, scan] at h
    split at h
    next st head hf =>
      obtain ⟨hm, -, hpre⟩ := findHead_iff.1 hf
      simp only [Option.some.injEq, Prod.mk.injEq] at h
      obtain ⟨-, rfl, -⟩ := h
      rcases List.prefix_or_prefix_of_prefix hpre (List.prefix_append ..) with hp | hp
      · exact absurd hp (hno _ hm)
      · have : (b :: u).length ≤ head.length := hp.length_le
        rw [List.length_drop, List.length_append]
        exact .inr (by omega)
    next =>
      split at h
      next =>
        simp only [Option.some.injEq, Prod.mk.injEq] at h
        obtain ⟨rfl, rfl, -⟩ := h
        exact .inl ⟨u, rfl, hrest⟩
      next => cases h
  | @head _ m u hd hm hrest =>
    by_cases hv : u ++ v = []
    · -- nothing follows the head, so only `NVS-WiFi` has a reaction, which skips its first byte
      obtain ⟨rfl, rfl⟩ := List.append_eq_nil_iff.1 hv
      have hskip : ∀ m ∈ CMDHead, findHead (m.2 ++ [] ++ []) = none ∧
          ∀ t ∈ (m.2.drop 1).tails, ∀ h ∈ CMDHead, ¬ h.2 <+: t := by decide
      obtain ⟨hnone, htails⟩ := hskip m hm
      rw [react_scanning hd, scan, hnone] at h
      simp only at h
      split at h
      · simp only [Option.some.injEq, Prod.mk.injEq] at h
        obtain ⟨rfl, rfl, -⟩ := h
        refine .inl ⟨m.2.drop 1, by simp, ?_⟩
        exact unfinished_of_tails hd htails
      · cases h
    · rw [List.append_assoc, react_scanning hd, scan, findHead_begins hm hv] at h
      simp only [Option.some.injEq, Prod.mk.injEq, List.drop_left] at h
      obtain ⟨rfl, rfl, -⟩ := h
      exact .inl ⟨u, rfl, hrest⟩

/-- A run on bytes that hold no complete command, and further bytes, ends among them or has taken
them all. -/
theorem steps_unfinished (hu : Unfinished d u) (h : parser.Steps d (u ++ v) es d' w') :
    (∃ u', w' = u' ++ v ∧ Unfinished d' u') ∨ w'.length ≤ v.length := by
  generalize hw : u ++ v = w at h
  induction h generalizing u with
  | refl => exact .inl ⟨u, hw.symm, hu⟩
  | head h hrest ih =>
    subst hw
    rcases react_unfinished hu h with ⟨u₁, rfl, hu₁⟩ | hle
    · exact ih hu₁ rfl
    · exact .inr (Nat.le_trans (steps_suffix hrest).length_le hle)

/-- Behind a block that begins in bytes without a complete command, there are fewer bytes than
follow these. -/
theorem behind_lt {b : UInt8} (hu : Unfinished d u)
    (h : parser.Steps d (u ++ v) es d' (b :: rest)) (hat : d'.AtBlock (b :: rest))
    (hw : d'.Write + 1 = d'.ZipSize) : rest.length < v.length := by
  rcases steps_unfinished hu h with ⟨u', hv, hu'⟩ | hle
  · -- no byte of the block is missing but its last one
    have hnil : u' = [] := by
      cases hu' with
      | args hlt => simp [pending, hat.1] at hlt
      | token hs | size hs | sized hs =>
        rw [hat.1] at hs
        cases hs
      | data _ hlt => exact List.length_eq_zero_iff.1 (by omega)
      | nil hs | idle hs | head hs => exact absurd hat.1 hs.2
    rw [hnil, List.nil_append] at hv
    rw [← hv]
    exact Nat.lt_succ_self _
  · exact hle

/-- Where the parser waits, at most 63 bytes are left. -/
theorem Waiting.length_le (hw : d.Waiting u) : u.length ≤ 63 := by
  by_cases hs : d.DecodeStatus = .CommandZipData
  · rw [(hw.data hs).1]
    exact Nat.zero_le _
  · have := hw.short hs
    have := d.need_le
    omega

theorem Harmless.unfinished {d₀ : Decoder} {ended : Bool} (h : Harmless d₀ rest [] ended) :
    d₀.Unfinished rest := by
  cases h with
  | nothing hun => exact hun
  | output hne => exact absurd rfl hne

/-- Behind a block without output no complete command is left. -/
theorem Contained.unfinished {d₀ : Decoder} (h : Contained d₀ rest [] es d u) : d.Unfinished u := by
  cases h with
  | rest _ hun => exact hun
  | output hne => exact absurd rfl hne

/-- A packet completes one block at most, so it is enough that this one is harmless. -/
theorem spared_of_steps {d₁ : Decoder} {b : UInt8} {strm : z.z_stream}
    {pieces : List (List UInt8)} {ended : Bool} (hs : parser.Steps d w es d₁ (b :: rest))
    (hblk : parser.Blocked d₁ (b :: rest)) (hinit : z.inflateInit2 (d₁.blockData b) = some strm)
    (hout : z.Output strm pieces ended)
    (hh : Harmless ((d₁.inflating b).released false) rest pieces ended) : Spared z d w := by
  intro es' d₀ rest' pieces' ended' hc
  obtain ⟨d₁', b', hs', hblk', -, rfl, hz⟩ := hc.block
  obtain ⟨rfl, hu, -⟩ := hs.unique hblk hs' hblk'
  cases hu
  rcases hz with ⟨hnone, -⟩ | ⟨strm', hinit', hout'⟩
  · rw [hnone] at hinit
    cases hinit
  · obtain rfl := Option.some.inj (hinit'.symm.trans hinit)
    obtain ⟨rfl, rfl⟩ := hout'.unique hout
    exact hh

end Decoder

namespace Printer

variable {s s' : Printer} {env : Env} {fuel : Nat} {data : List UInt8}

/-- What packets and the printing side lead to, as long as every corrupt block is spared. -/
inductive Received (env : Env) : Printer → Prop
  | init (HeadStbLowValid : UInt8) : Received env (Printer.init HeadStbLowValid)
  | feed {s s' : Printer} {fuel : Nat} {data : List UInt8} {accepted : Bool} :
      Received env s → Printer.feed env fuel data s = .ok (accepted, s') →
      (accepted = true → s.decoder.Spared env.zlib (s.remainder ++ data)) → Received env s'
  | takeRows {s : Printer} (n : Nat) : Received env s → Received env (s.takeRows n)

/-- The state between two packets: the unread bytes are few, or hold no complete command. -/
structure Kept (s : Printer) : Prop where
  tidy : s.decoder.Tidy
  remainder : s.remainder.length ≤ 63 ∨ s.decoder.Unfinished s.remainder

/-- Behind a block there are at most 63 bytes more than in the packet. -/
theorem Kept.behind_le (h : Kept s) {es : List Event} {d₁ : Decoder} {b : UInt8} {rest : List UInt8}
    (hs : parser.Steps s.decoder (s.remainder ++ data) es d₁ (b :: rest))
    (hat : d₁.AtBlock (b :: rest)) (hw : d₁.Write + 1 = d₁.ZipSize) :
    rest.length ≤ 63 + data.length := by
  rcases h.remainder with hle | hu
  · have := (Decoder.steps_suffix hs).length_le
    rw [List.length_append, List.length_cons] at this
    omega
  · have := Decoder.behind_lt hu hs hat hw
    omega

/-- A packet whose corrupt block is spared keeps the remainder within bounds. -/
theorem Kept.feed (hfair : env.Fair) (hfin : env.zlib.Finite) (h : Kept s)
    (hr : Printer.feed env fuel data s = .ok (true, s'))
    (hs : s.decoder.Spared env.zlib (s.remainder ++ data)) :
    Kept s' ∧ s'.remainder.length ≤ 63 + data.length := by
  obtain ⟨es, hreads, -, ht⟩ := feed_reads hfair hfin h.tidy hr
  generalize hd : s'.decoder = d', hu : s'.remainder = u' at hreads ht
  have hfew (hle : u'.length ≤ 63) : Kept s' ∧ u'.length ≤ 63 + data.length :=
    ⟨⟨hd ▸ ht, .inl (hu ▸ hle)⟩, by omega⟩
  cases hreads with
  | plain _ hblk hat => exact hfew (Decoder.waiting_of_blocked hblk hat).length_le
  | rejected hsteps hblk hat hw hinit =>
    have hc := Decoder.Corrupt.rejected hsteps hblk hat hw hinit
    exact ⟨⟨hd ▸ ht, .inr (hd ▸ hu ▸ (hs _ _ _ _ _ hc).unfinished)⟩, h.behind_le hsteps hat hw⟩
  | @inflated _ _ _ _ _ _ _ _ pieces ended hsteps hblk hat hw hinit hout hcalm hf =>
    by_cases hnil : pieces = []
    · subst hnil
      cases hout with
      | error herr =>
        have hc := Decoder.Corrupt.failed hsteps hblk hat hw hinit (.error herr)
        have hun := (hs _ _ _ _ _ hc).unfinished
        cases hf
        exact ⟨⟨hd ▸ ht, .inr (hd ▸ hu ▸ hun)⟩, h.behind_le hsteps hat hw⟩
    · exact hfew (Decoder.waiting_of_feeds hcalm hf hnil).length_le

/-- Where corrupt blocks are spared, little is left between two packets. -/
theorem Received.kept (hfair : env.Fair) (hfin : env.zlib.Finite) (h : Received env s) :
    Kept s := by
  induction h with
  | init v => exact ⟨.inl ⟨rfl, rfl⟩, .inl (Nat.zero_le _)⟩
  | takeRows n _ ih => exact ⟨ih.tidy, ih.remainder⟩
  | @feed s s' fuel data accepted _ hr hs ih =>
    cases accepted with
    | true => exact (ih.feed hfair hfin hr (hs rfl)).1
    | false =>
      by_cases hroom : s.PrintBLink.length < PrintLinkedListCount
      · exact absurd (feed_accepted hroom hr) nofun
      · rw [feed_refused hroom] at hr
        cases hr
        exact ih

/-- **A corrupt block does no more harm than its content**, in every run whose corrupt blocks are
harmless: after the call that completes the block, what it has executed behind the block is what an
idle parser reads in the bytes behind it, and in the output, and the parser is left there, with no
zip buffer and `Write` 0. And after every call at most 63 bytes more than the packet has are
unread. -/
theorem corrupt_contained (hfair : env.Fair) (hfin : env.zlib.Finite) (h : Received env s)
    (hr : feed env fuel data s = .ok (true, s'))
    (hs : s.decoder.Spared env.zlib (s.remainder ++ data)) :
    s'.remainder.length ≤ 63 + data.length ∧
      ∀ es₁ d₀ rest pieces ended,
        s.decoder.Corrupt env.zlib (s.remainder ++ data) es₁ d₀ rest pieces ended →
        ∃ es, s'.log = s.log ++ es₁ ++ es ∧
          Decoder.Contained d₀ rest pieces.flatten es s'.decoder s'.remainder := by
  have hkept := h.kept hfair hfin
  refine ⟨(hkept.feed hfair hfin hr hs).2, fun es₁ d₀ rest pieces ended hc => ?_⟩
  obtain ⟨es, hreads, hlog, -⟩ := feed_reads hfair hfin hkept.tidy hr
  obtain ⟨es', rfl, hcontained⟩ := (hs _ _ _ _ _ hc).contained hc hreads
  exact ⟨es', by rw [hlog, List.append_assoc], hcontained⟩

/-- zlib on short stored data that end before the length in their head says: `inflate` gives out
what is there. -/
def cutShort : Zlib where
  z_stream := List UInt8
  inflateInit2 data := if data.length < DecodeMaxBytes then some (data.drop 5) else none
  inflate rest avail_out := (.Z_OK, rest.take avail_out, rest.drop avail_out)
  inflate_le _ _ := List.length_take_le ..

theorem cutShort_output {rest : List UInt8} (h : rest.length < DecodeMaxBytes) :
    cutShort.Output rest [rest] true := by
  have hpiece : cutShort.piece rest = rest := List.take_of_length_le (Nat.le_of_lt h)
  have hlast : cutShort.Output rest _ true := .last rfl (by rwa [hpiece])
  rwa [hpiece] at hlast

/-- A block of stored data that end after six of nine bytes: the density 50 and a line feed. -/
def cutBlock : List UInt8 := [1, 9, 0, 0xF6, 0xFF, 0x40, 0x53, 0x7E, 0x7E, 0x32, 0x0A]

/-- The bytes behind the block in its packet: the density 51. -/
def behindCut : List UInt8 := [0x40, 0x53, 0x7E, 0x7E, 0x33]

/-- A line feed is an idle byte. -/
theorem idleBytes_lineFeed : Decoder.IdleBytes [0x0A] := by
  rintro s₁ s₂ hs hne
  have hs₂ : s₂ = [0x0A] := by
    rcases List.cons_eq_append_iff.1 hs with ⟨-, rfl⟩ | ⟨s, rfl, hnil⟩
    · rfl
    · exact absurd (List.append_eq_nil_iff.1 hnil.symm).2 hne
  subst hs₂
  decide

/-- The truncated block is harmless. -/
theorem spared_cut : (Printer.init 2).decoder.Spared cutShort
    ((Printer.init 2).remainder ++ (angenl ++ 0 :: 11 :: (cutBlock ++ behindCut))) := by
  have hopened : parser.Steps (Decoder.init 2) (angenl ++ 0 :: 11 :: (cutBlock ++ behindCut)) [] _
      (cutBlock ++ behindCut) := Decoder.steps_opened cutBlock rfl rfl rfl rfl
  have hsteps := hopened.trans (Decoder.steps_storing (k := 10) cutBlock behindCut (by decide))
  have hout : cutShort.Output [0x40, 0x53, 0x7E, 0x7E, 0x32, 0x0A] _ true :=
    cutShort_output (by decide)
  refine Decoder.spared_of_steps hsteps rfl rfl hout ?_
  exact .output (by decide) (Decoder.Quiet.undisturbed (by decide)).1
    (.head rfl (.head rfl .refl)) rfl (.head rfl (.head rfl .refl)) rfl
    (by rintro (h | h) <;> cases h) idleBytes_lineFeed fun _ => rfl

/-- A truncated block that gives out a density command and a line feed, with another density command
behind it in the packet: both are executed. -/
theorem corrupt_contained_cut :
    ∃ s', feed ⟨cutShort, fun _ => 1⟩ 60 (angenl ++ 0 :: 11 :: (cutBlock ++ behindCut)) (.init 2) =
        .ok (true, s') ∧ s'.log = [.density 51, .density 50] ∧
      s'.remainder.length ≤ 63 + (angenl ++ 0 :: 11 :: (cutBlock ++ behindCut)).length ∧
        ∀ es₁ d₀ rest pieces ended, (Printer.init 2).decoder.Corrupt cutShort
            ((Printer.init 2).remainder ++ (angenl ++ 0 :: 11 :: (cutBlock ++ behindCut)))
            es₁ d₀ rest pieces ended →
          ∃ es, s'.log = (Printer.init 2).log ++ es₁ ++ es ∧
            Decoder.Contained d₀ rest pieces.flatten es s'.decoder s'.remainder := by
  have hfin : cutShort.Finite := by
    intro data strm h
    have hlt : data.length < DecodeMaxBytes := by
      by_contra hle
      rw [show cutShort.inflateInit2 data = none from if_neg hle] at h
      cases h
    rw [show cutShort.inflateInit2 data = some (data.drop 5) from if_pos hlt] at h
    obtain rfl := Option.some.inj h
    exact ⟨_, _, cutShort_output (by rw [List.length_drop]; omega)⟩
  obtain ⟨s', hr, hlog⟩ : ∃ s', feed ⟨cutShort, fun _ => 1⟩ 60
      (angenl ++ 0 :: 11 :: (cutBlock ++ behindCut)) (.init 2) = .ok (true, s') ∧
        s'.log = [.density 51, .density 50] := ⟨_, rfl, rfl⟩
  exact ⟨s', hr, hlog, corrupt_contained (fun k => ⟨k, Nat.le_refl k, Nat.one_pos⟩) hfin (.init 2)
    hr spared_cut⟩

/-- The decoder at the last byte of a block of one byte, the first thing after boot. -/
def oneByte : Decoder := (Decoder.init 2).storing [7] 0

/-- **A command behind a corrupt block waits for the next packet**: the block fails at once, and the
density command behind it in the packet, with a byte after it, is left unread. -/
theorem command_behind_waits :
    ∃ s' es₁ d₀ rest pieces ended,
      feed .stored 40 (angenl ++ [0, 1, 7, 0x40, 0x53, 0x7E, 0x7E, 0x32, 0x40]) (.init 2) =
        .ok (true, s') ∧ s'.log = [] ∧
      (Printer.init 2).decoder.Corrupt Env.stored.zlib ((Printer.init 2).remainder ++
        (angenl ++ [0, 1, 7, 0x40, 0x53, 0x7E, 0x7E, 0x32, 0x40])) es₁ d₀ rest pieces ended ∧
      ¬ ∃ es, s'.log = (Printer.init 2).log ++ es₁ ++ es ∧
        Decoder.Contained d₀ rest pieces.flatten es s'.decoder s'.remainder := by
  have hsteps : parser.Steps (Printer.init 2).decoder ((Printer.init 2).remainder ++
      (angenl ++ [0, 1, 7, 0x40, 0x53, 0x7E, 0x7E, 0x32, 0x40])) [] oneByte
      (7 :: [0x40, 0x53, 0x7E, 0x7E, 0x32, 0x40]) :=
    Decoder.steps_opened [7] rfl rfl rfl rfl
  have hc := Decoder.Corrupt.failed (z := Env.stored.zlib) hsteps rfl (by decide) rfl rfl
    (.error rfl)
  obtain ⟨s', hr, hlog, hidle, hu⟩ : ∃ s', feed .stored 40
      (angenl ++ [0, 1, 7, 0x40, 0x53, 0x7E, 0x7E, 0x32, 0x40]) (.init 2) = .ok (true, s') ∧
        s'.log = [] ∧ s'.decoder.DecodeStatus = .CommandIdle ∧
        s'.remainder = [0x40, 0x53, 0x7E, 0x7E, 0x32, 0x40] := ⟨_, rfl, rfl, rfl, rfl⟩
  refine ⟨s', _, _, _, _, _, hr, hlog, hc, ?_⟩
  rintro ⟨es, -, h⟩
  have hun := h.unfinished
  rw [hu] at hun
  have hm : (.CommandDensity, [0x40, 0x53, 0x7E, 0x7E]) ∈ CMDHead := by decide
  have hin := (Decoder.unfinished_head (v := [0x32, 0x40]) (Decoder.scanning_of_idle hidle) hm).1
    hun
  exact (Decoder.unfinished_enter hm (by decide)).1 hin (Nat.le_succ 1)

end Printer

end ThermalPrinter
