import ThermalPrinter.Parser.Stored
import Mathlib.Data.List.Infix

/-!
# The cutting of the print stream into packets

A packet boundary may fall anywhere: inside a command head, inside an argument, between the two
bytes of a run. The reader of the parser is stable (`Lookahead.Reader.Stable`), so the boundary is
invisible, with two exceptions. The eight bytes of the head `NVS-WiFi` are recognised only when a
ninth has arrived, although eight bytes are already enough to skip the first of them (`Clear` says
that the scan does not meet this). And a compressed block re-enters the parser when its last byte is
stored. `Undisturbed` excludes both, and `Quiet` is a condition on the bytes that is enough for it.
-/

namespace ThermalPrinter

open Lookahead

namespace Decoder

variable {d d' : Decoder} {u u' v w : List UInt8} {es : List Event}

/-! ## Heads -/

/-- No head of the table begins another one. -/
theorem head_eq_of_begins {h m : CMDStatus × List UInt8} (hh : h ∈ CMDHead) (hm : m ∈ CMDHead)
    (hp : h.2 <+: m.2) : h = m := by
  have : ∀ h ∈ CMDHead, ∀ m ∈ CMDHead, h.2 <+: m.2 → h = m := by decide
  exact this h hh m hm hp

/-- The head that is found is the one the bytes begin with, and a byte follows it. -/
theorem findHead_iff {h : CMDStatus × List UInt8} :
    findHead u = some h ↔ h ∈ CMDHead ∧ h.2.length < u.length ∧ h.2 <+: u := by
  constructor
  · intro hf
    obtain ⟨hm, hl, ht⟩ := findHead_eq_some (show findHead u = some (h.1, h.2) from hf)
    exact ⟨hm, hl, ht ▸ List.take_prefix ..⟩
  · rintro ⟨hm, hl, hp⟩
    have hsome : (findHead u).isSome := by
      rw [findHead, List.find?_isSome]
      exact ⟨h, hm, by simpa [hl] using (List.prefix_iff_eq_take.1 hp).symm⟩
    obtain ⟨m, hf⟩ := Option.isSome_iff_exists.1 hsome
    obtain ⟨hm', -, ht⟩ := findHead_eq_some (show findHead u = some (m.1, m.2) from hf)
    have hp' : m.2 <+: u := ht ▸ List.take_prefix ..
    have hmh : m = h := by
      rcases List.prefix_or_prefix_of_prefix hp hp' with h' | h'
      · exact (head_eq_of_begins hm hm' h').symm
      · exact head_eq_of_begins hm' hm h'
    rw [hf, hmh]

/-- The only head as long as the look-ahead is `NVS-WiFi`. -/
theorem head_eq_nvs {h : CMDStatus × List UInt8} (hh : h ∈ CMDHead)
    (hl : MAxHeadLength ≤ h.2.length) : h.2 = nvsWiFi := by
  have : ∀ h ∈ CMDHead, MAxHeadLength ≤ h.2.length → h.2 = nvsWiFi := by decide
  exact this h hh hl

/-- A head that is found is found when more bytes follow. -/
theorem findHead_append {h : CMDStatus × List UInt8} (hf : findHead u = some h) :
    findHead (u ++ v) = some h := by
  obtain ⟨hm, hl, hp⟩ := findHead_iff.1 hf
  exact findHead_iff.2 ⟨hm, by rw [List.length_append]; omega, hp.trans (List.prefix_append ..)⟩

/-- With the look-ahead there, no other head than `NVS-WiFi` can still be found when more bytes
follow. -/
theorem findHead_append_none (hf : findHead u = none) (hl : MAxHeadLength ≤ u.length)
    (hn : u = nvsWiFi → v = []) : findHead (u ++ v) = none := by
  by_contra hne
  obtain ⟨h, hh⟩ := Option.ne_none_iff_exists'.1 hne
  obtain ⟨hm, hlt, hp⟩ := findHead_iff.1 hh
  by_cases hshort : h.2.length < u.length
  · have : findHead u = some h :=
      findHead_iff.2 ⟨hm, hshort, List.prefix_of_prefix_length_le hp (List.prefix_append ..)
        (Nat.le_of_lt hshort)⟩
    rw [hf] at this
    cases this
  · have hnvs : h.2 = nvsWiFi := head_eq_nvs hm (by omega)
    have hu : u <+: h.2 :=
      List.prefix_of_prefix_length_le (List.prefix_append ..) hp (Nat.le_of_not_lt hshort)
    have hlong : h.2.length ≤ u.length := hnvs ▸ hl
    have heq : u = h.2 := hu.eq_of_length_le hlong
    rw [hn (heq.trans hnvs), List.append_nil] at hlt
    exact hshort hlt

/-! ## Stability -/

/-- The decoder looks for a head. -/
def Scanning (d : Decoder) : Prop :=
  d.DecodeStatus ∉ CMDHead.map Prod.fst ∧ d.DecodeStatus ≠ .CommandZipData

/-- A decoder that looks for a head scans. -/
theorem react_scanning (hd : d.Scanning) : d.react u = d.scan u := by
  obtain ⟨hhead, hdata⟩ := hd
  cases h : d.DecodeStatus <;> simp_all [react, CMDHead]

/-- On the way through the bytes the scan does not stand at `NVS-WiFi`, unless nothing follows
it. -/
def Clear (d : Decoder) (w : List UInt8) : Prop :=
  ∀ es d' w', parser.Steps d w es d' w' → d'.Scanning → nvsWiFi <+: w' → w' = nvsWiFi

/-- On the way through the bytes the scan does not stand at `NVS-WiFi`, unless nothing follows it,
and no compressed block gets its last byte. -/
def Undisturbed (d : Decoder) (w : List UInt8) : Prop :=
  d.Clear w ∧ ∀ es d' w', parser.Steps d w es d' w' → parser.Blocked d' w' → ¬ d'.AtBlock w'

/-- A state that waits for arguments reacts the same way when more bytes follow. -/
theorem arg_append {need use : Nat} {f : List UInt8 → Decoder × List Event} (hu : use ≤ need)
    (h : arg need use f u = some (d', u', es)) :
    arg need use f (u ++ v) = some (d', u' ++ v, es) := by
  obtain ⟨hn, rfl, rfl, rfl⟩ := arg_eq_some.1 h
  refine arg_eq_some.2 ⟨by rw [List.length_append]; omega, ?_, ?_, ?_⟩
  · rw [List.take_append_of_le_length (by omega)]
  · rw [List.drop_append_of_le_length (by omega)]
  · rw [List.take_append_of_le_length (by omega)]

/-- The scan reacts the same way when more bytes follow, unless they follow `NVS-WiFi`. -/
theorem scan_append (hn : u = nvsWiFi → v = [])
    (h : d.scan u = some (d', u', es)) : d.scan (u ++ v) = some (d', u' ++ v, es) := by
  unfold scan at h ⊢
  split at h
  next st head hf =>
    rw [findHead_append hf]
    simp only [Option.some.injEq, Prod.mk.injEq] at h ⊢
    obtain ⟨rfl, rfl, rfl⟩ := h
    exact ⟨rfl, List.drop_append_of_le_length (Nat.le_of_lt (findHead_eq_some hf).2.1), rfl⟩
  next hf =>
    split at h
    next hl =>
      rw [findHead_append_none hf hl hn]
      have hl' : MAxHeadLength ≤ (u ++ v).length := by rw [List.length_append]; omega
      simp only [hl', if_true, Option.some.injEq, Prod.mk.injEq] at h ⊢
      obtain ⟨rfl, rfl, rfl⟩ := h
      exact ⟨rfl, List.drop_append_of_le_length (Nat.le_trans (by decide) hl), rfl⟩
    next => cases h

/-- **Reactions are stable.** More bytes change no reaction, except that of the scan when just
`NVS-WiFi` has arrived. -/
theorem react_append (hn : d.Scanning → u = nvsWiFi → v = [])
    (h : d.react u = some (d', u', es)) : d.react (u ++ v) = some (d', u' ++ v, es) := by
  unfold react at h ⊢
  split at h
  case h_9 =>
    unfold fetch at h ⊢
    split at h
    · exact arg_append (Nat.le_refl 0) h
    · split at h
      next hs => rw [if_pos hs]; exact arg_append (Nat.le_refl 1) h
      next => cases h
  case h_13 => exact scan_append (hn (by simp_all [Scanning, CMDHead])) h
  all_goals exact arg_append (by decide) h

/-- The reader is stable on clear input. -/
theorem parser_stable : parser.Stable Clear where
  react _ _ hc h := by
    refine react_append (fun hscan hu => ?_) h
    have hw := hc _ _ _ .refl hscan (hu ▸ List.prefix_append ..)
    rw [hu] at hw
    exact List.append_right_eq_self.1 hw
  inv hc h := fun _ d' w' hsteps => hc _ d' w' (.head h hsteps)

/-- Clear input is clear before its last bytes have arrived. -/
theorem Clear.of_append (h : d.Clear (w ++ v)) : d.Clear w := by
  intro es d' w' hsteps hscan hp
  have hw := h _ _ _ (hsteps.append parser_stable v h) hscan (hp.trans (List.prefix_append ..))
  have hlen := congrArg List.length hw
  rw [List.length_append] at hlen
  exact (hp.eq_of_length_le (by omega)).symm

/-- A decoder that stays at a block whatever follows. -/
theorem AtBlock.append (hat : d.AtBlock u) (hblk : parser.Blocked d u) :
    d.AtBlock (u ++ v) ∧ parser.Blocked d (u ++ v) := by
  refine ⟨⟨hat.1, hat.2.imp id fun h h' => h (List.append_eq_nil_iff.1 h').1⟩, ?_⟩
  have hnone : d.react u = none := hblk
  show d.react (u ++ v) = none
  cases hz : d.zipData with
  | none => simp [react, hat.1, fetch, hz, arg] at hnone
  | some z =>
    rw [Printer.react_fetch hat.1 hz] at hnone ⊢
    split at hnone
    next hstore =>
      have hu := arg_eq_none.1 hnone
      rcases hat.2 with h | h
      · omega
      · exact absurd (List.length_eq_zero_iff.1 (by omega)) h
    next hstore => rw [if_neg hstore]

/-- Input that disturbs nothing disturbs nothing before its last bytes have arrived. -/
theorem Undisturbed.of_append (h : d.Undisturbed (w ++ v)) : d.Undisturbed w := by
  refine ⟨h.1.of_append, ?_⟩
  intro es d' w' hsteps hblk hat
  obtain ⟨hat', hblk'⟩ := hat.append (v := v) hblk
  exact h.2 _ _ _ (hsteps.append parser_stable v h.1) hblk' hat'

/-- Input that disturbs nothing disturbs nothing further on. -/
theorem Undisturbed.steps (h : d.Undisturbed w) (hs : parser.Steps d w es d' u') :
    d'.Undisturbed u' :=
  ⟨parser_stable.steps hs h.1, fun _ _ _ hsteps => h.2 _ _ _ (hs.trans hsteps)⟩

/-! ## Bytes without the two heads -/

/-- The number of argument bytes the state takes before the scan goes on. -/
def pending (d : Decoder) : Nat :=
  match d.DecodeStatus with
  | .CommandSpeed | .commandSetPID => 2
  | .CommandDensity | .CommandPaperType | .CommandLineStart => 1
  | .commandSetBTName => 32
  | .commandNVSWiFi => 64
  | _ => 0

/-- The scan has no argument bytes to take. -/
theorem Scanning.pending_eq (h : d.Scanning) : d.pending = 0 := by
  unfold pending
  split <;> simp_all [Scanning, CMDHead]

/-- Neither the head of a compressed block nor `NVS-WiFi` occurs in the bytes. -/
def HeadFree (w : List UInt8) : Prop := ¬ angenl <:+: w ∧ ¬ nvsWiFi <:+: w

/-- The parser is not inside a compressed block, and neither `ANGENL` nor `NVS-WiFi` occurs in the
bytes to come, less the argument bytes that the pending command takes first. -/
def Quiet (d : Decoder) (w : List UInt8) : Prop :=
  d.DecodeStatus ≠ .CommandZipStart ∧ d.DecodeStatus ≠ .CommandZipData ∧
    HeadFree (w.drop d.pending)

instance (w : List UInt8) : Decidable (HeadFree w) := by
  unfold HeadFree; infer_instance

instance (d : Decoder) (w : List UInt8) : Decidable (d.Quiet w) := by
  unfold Quiet; infer_instance

theorem HeadFree.drop (h : HeadFree w) (n : Nat) : HeadFree (w.drop n) :=
  ⟨fun h' => h.1 (h'.trans (List.drop_suffix n w).isInfix),
    fun h' => h.2 (h'.trans (List.drop_suffix n w).isInfix)⟩

/-- A reaction takes at least the pending argument bytes. -/
theorem react_drop (h : d.react u = some (d', u', es)) :
    ∃ n, d.pending ≤ n ∧ n ≤ u.length ∧ u' = u.drop n := by
  unfold react at h
  split at h
  case h_9 hs =>
    unfold fetch at h
    split at h
    · obtain ⟨-, -, rfl, -⟩ := arg_eq_some.1 h
      exact ⟨0, by simp [pending, hs], Nat.zero_le _, rfl⟩
    · split at h
      · obtain ⟨hn, -, rfl, -⟩ := arg_eq_some.1 h
        exact ⟨1, by simp [pending, hs], hn, rfl⟩
      · cases h
  case h_13 =>
    have hp : d.pending = 0 := by unfold pending; split <;> simp_all
    unfold scan at h
    split at h
    next st head hf =>
      simp only [Option.some.injEq, Prod.mk.injEq] at h
      exact ⟨head.length, by omega, Nat.le_of_lt (findHead_eq_some hf).2.1, h.2.1.symm⟩
    next =>
      split at h
      next hl =>
        simp only [Option.some.injEq, Prod.mk.injEq] at h
        exact ⟨1, by omega, Nat.le_trans (by decide) hl, h.2.1.symm⟩
      next => cases h
  all_goals
    rename_i hs
    obtain ⟨hn, -, rfl, -⟩ := arg_eq_some.1 h
    exact ⟨_, by simp [pending, hs], Nat.le_trans (by decide) hn, rfl⟩

/-- A run takes bytes from the front. -/
theorem steps_suffix (h : parser.Steps d w es d' u') : u' <:+ w := by
  induction h with
  | refl => exact List.suffix_rfl
  | head h _ ih =>
    obtain ⟨n, -, -, rfl⟩ := react_drop h
    exact ih.trans (List.drop_suffix ..)

/-- No reaction to bytes without `ANGENL` enters a compressed block. -/
theorem react_outside (hz₁ : d.DecodeStatus ≠ .CommandZipStart)
    (hz₂ : d.DecodeStatus ≠ .CommandZipData) (hfree : ¬ angenl <:+: w.drop d.pending)
    (h : d.react w = some (d', u', es)) :
    d'.DecodeStatus ≠ .CommandZipStart ∧ d'.DecodeStatus ≠ .CommandZipData := by
  unfold react at h
  split at h
  case h_5 hs =>
    obtain ⟨-, rfl, -, -⟩ := arg_eq_some.1 h
    rw [Printer.token_DecodeStatus]
    split <;> simp [hs]
  case h_8 hs => exact absurd hs hz₁
  case h_9 hs => exact absurd hs hz₂
  case h_13 =>
    have hp : d.pending = 0 := by unfold pending; split <;> simp_all
    unfold scan at h
    split at h
    next st head hf =>
      simp only [Option.some.injEq, Prod.mk.injEq] at h
      obtain ⟨rfl, -, -⟩ := h
      obtain ⟨hm, -, hpre⟩ := findHead_iff.1 hf
      have hst : (d.enter st).DecodeStatus = st := by
        unfold enter
        split <;> rfl
      have hzip : ∀ h ∈ CMDHead, h.1 = .CommandZipStart → h.2 = angenl := by decide
      have hdata : ∀ h ∈ CMDHead, h.1 ≠ .CommandZipData := by decide
      rw [hst]
      rw [hp, List.drop_zero] at hfree
      exact ⟨fun h => hfree ((hzip _ hm h ▸ hpre).isInfix), hdata _ hm⟩
    next =>
      split at h
      next =>
        simp only [Option.some.injEq, Prod.mk.injEq] at h
        exact h.1 ▸ ⟨hz₁, hz₂⟩
      next => cases h
  all_goals
    obtain ⟨-, rfl, -, -⟩ := arg_eq_some.1 h
    simp [idle]

/-- A reaction keeps `Quiet`: it takes the pending argument bytes, or scans on. -/
theorem react_quiet (hq : d.Quiet w) (h : d.react w = some (d', u', es)) : d'.Quiet u' := by
  obtain ⟨hz₁, hz₂⟩ := react_outside hq.1 hq.2.1 hq.2.2.1 h
  obtain ⟨n, hn, -, rfl⟩ := react_drop h
  have hfree := hq.2.2.drop (n - d.pending)
  rw [List.drop_drop, Nat.add_sub_cancel' hn] at hfree
  exact ⟨hz₁, hz₂, hfree.drop _⟩

/-- A run of the reader keeps `Quiet`. -/
theorem Quiet.steps (hq : d.Quiet w) (h : parser.Steps d w es d' u') : d'.Quiet u' := by
  induction h with
  | refl => exact hq
  | head h _ ih => exact ih (react_quiet hq h)

/-- Quiet input disturbs nothing. -/
theorem Quiet.undisturbed (hq : d.Quiet w) : d.Undisturbed w := by
  refine ⟨?_, ?_⟩
  · intro es d' w' hsteps hscan hp
    have hq' := hq.steps hsteps
    have hfree := hq'.2.2
    rw [hscan.pending_eq, List.drop_zero] at hfree
    exact absurd hp.isInfix hfree.2
  · intro es d' w' hsteps _ hat
    exact (hq.steps hsteps).2.1 hat.1

end Decoder

/-! ## Packets -/

namespace Printer

variable {s s' : Printer} {es : List Event} {env : Env}

/-- Between two packets the printing side takes rows from the head of the queue. -/
def takeRows (n : Nat) (s : Printer) : Printer := { s with PrintBLink := s.PrintBLink.drop n }

/-- Packets fed one after another, each with the number of rows the printing side takes before it;
`none` when a packet is refused. -/
def feedAll (env : Env) (fuel : Nat) :
    List (Nat × List UInt8) → Printer → Except Halt (Option Printer)
  | [], s => .ok (some s)
  | (taken, data) :: ps, s => do
    let (accepted, s) ← feed env fuel data (s.takeRows taken)
    if accepted then feedAll env fuel ps s else .ok none

/-- A packet that does not lead to a block is read until the reader is blocked. -/
theorem feed_unblocked (env : Env) (data : List UInt8)
    (hroom : s.PrintBLink.length < PrintLinkedListCount)
    (hq : ∀ es d' u', parser.Steps s.decoder (s.remainder ++ data) es d' u' →
      parser.Blocked d' u' → ¬ d'.AtBlock u') :
    ∃ s' es j, (∀ k, feed env (j + k) data s = .ok (true, s')) ∧
      parser.Steps s.decoder (s.remainder ++ data) es s'.decoder s'.remainder ∧
      parser.Blocked s'.decoder s'.remainder ∧ s'.log = s.log ++ es := by
  have hb : (s.realloc data).InBuffer := Nat.zero_le _
  obtain ⟨s', es, j, hran, hblk, hend⟩ := PrintDataProcesser_reaches env hb rfl
  rcases hend with ⟨hsus, -, hrun⟩ | ⟨-, hat, -⟩
  · refine ⟨s', es, j, ?_, ?_, ?_, hran.log⟩
    · intro k
      rw [feed_room hroom, hrun]
      rfl
    · rw [hsus.remainder_eq hran.inBuffer]
      exact hran.steps
    · rw [hsus.remainder_eq hran.inBuffer]
      exact hblk
  · exact absurd hat (hq _ _ _ hran.steps hblk)

/-- A packet whose bytes disturb nothing is read until the reader is blocked. -/
theorem feed_quiet (env : Env) (data : List UInt8)
    (hroom : s.PrintBLink.length < PrintLinkedListCount)
    (hq : s.decoder.Undisturbed (s.remainder ++ data)) :
    ∃ s' es j, (∀ k, feed env (j + k) data s = .ok (true, s')) ∧
      parser.Steps s.decoder (s.remainder ++ data) es s'.decoder s'.remainder ∧
      parser.Blocked s'.decoder s'.remainder ∧ s'.log = s.log ++ es :=
  feed_unblocked env data hroom hq.2

/-- Packets that do not lead to a block are read as the reader is fed, or one of them is refused.
`P` is what the packets keep, of the decoder, the unread bytes and the packets to come. -/
theorem feedAll_feeds {P : Decoder → List UInt8 → List (List UInt8) → Prop}
    (hP : ∀ d u p ps, P d u (p :: ps) → ∀ es d' u', parser.Steps d (u ++ p) es d' u' →
      parser.Blocked d' u' → ¬ d'.AtBlock u' ∧ P d' u' ps)
    (env : Env) (ps : List (Nat × List UInt8)) (s : Printer)
    (hs : P s.decoder s.remainder (ps.map Prod.snd)) :
    ∃ r j, (∀ k, feedAll env (j + k) ps s = .ok r) ∧
      ∀ s', r = some s' → ∃ es, s'.log = s.log ++ es ∧
        parser.Feeds s.decoder s.remainder (ps.map Prod.snd) es s'.decoder s'.remainder := by
  induction ps generalizing s with
  | nil =>
    refine ⟨some s, 0, fun _ => rfl, ?_⟩
    rintro s' ⟨⟩
    exact ⟨[], by simp, .nil⟩
  | cons p ps ih =>
    obtain ⟨taken, data⟩ := p
    rw [List.map_cons] at hs
    by_cases hroom : (s.takeRows taken).PrintBLink.length < PrintLinkedListCount
    · obtain ⟨s₁, es, j, hrun, hsteps, hblk, hlog⟩ := feed_unblocked env data hroom
        fun _ _ _ hsteps hblk => (hP _ _ _ _ hs _ _ _ hsteps hblk).1
      obtain ⟨r, j', hrun', hres⟩ := ih s₁ (hP _ _ _ _ hs _ _ _ hsteps hblk).2
      refine ⟨r, j + j', ?_, ?_⟩
      · intro k
        have h₁ := hrun (j' + k)
        have h₂ := hrun' (j + k)
        rw [show j + (j' + k) = j + j' + k by omega] at h₁
        rw [show j' + (j + k) = j + j' + k by omega] at h₂
        simp [feedAll, h₁, h₂, Bind.bind, Except.bind]
      · intro s' hs'
        obtain ⟨es', hlog', hfeeds⟩ := hres s' hs'
        exact ⟨es ++ es', by rw [hlog', hlog, ← List.append_assoc]; rfl,
          .cons hsteps hblk hfeeds⟩
    · refine ⟨none, 0, ?_, by simp⟩
      intro k
      simp [feedAll, feed, PrintDataManagement, hroom, Bind.bind, Except.bind]

/-- Packets whose bytes disturb nothing are read as the reader is fed, or one of them is refused. -/
theorem feedAll_quiet (env : Env) (ps : List (Nat × List UInt8)) (s : Printer)
    (hq : s.decoder.Undisturbed (s.remainder ++ (ps.map Prod.snd).flatten)) :
    ∃ r j, (∀ k, feedAll env (j + k) ps s = .ok r) ∧
      ∀ s', r = some s' → ∃ es, s'.log = s.log ++ es ∧
        parser.Feeds s.decoder s.remainder (ps.map Prod.snd) es s'.decoder s'.remainder := by
  refine feedAll_feeds (P := fun d u ps => d.Undisturbed (u ++ ps.flatten)) ?_ env ps s hq
  intro d u p ps hq es d' u' hsteps hblk
  rw [List.flatten_cons, ← List.append_assoc] at hq
  exact ⟨hq.of_append.2 _ _ _ hsteps hblk, hq.steps (hsteps.append Decoder.parser_stable _ hq.1)⟩

/-- **The cutting of the stream into packets is invisible**, as long as the scan does not stand at
`NVS-WiFi` with a byte following it and no compressed block gets its last byte: however many packets
of whatever length, and however many rows the printing side takes in between, unless a packet is
refused every call returns and the packets leave the parser where a single call with the whole
stream leaves it, with the same executed commands and queued rows and the same unread remainder. -/
theorem feedAll_eq_feed (env : Env) (s : Printer) (ps : List (Nat × List UInt8)) (hps : ps ≠ [])
    (hroom : s.PrintBLink.length < PrintLinkedListCount)
    (hq : s.decoder.Undisturbed (s.remainder ++ (ps.map Prod.snd).flatten)) :
    ∃ n, ∀ fuel, n ≤ fuel → feedAll env fuel ps s = .ok none ∨
      ∃ s₁ s₂, feedAll env fuel ps s = .ok (some s₁) ∧
        feed env fuel (ps.map Prod.snd).flatten s = .ok (true, s₂) ∧
        s₁.log = s₂.log ∧ s₁.decoder = s₂.decoder ∧ s₁.remainder = s₂.remainder := by
  obtain ⟨r, j, hrun, hres⟩ := feedAll_quiet env ps s hq
  obtain ⟨s₂, es₂, j₂, hrun₂, hsteps₂, hblk₂, hlog₂⟩ := feed_quiet env _ hroom hq
  refine ⟨j + j₂, ?_⟩
  intro fuel hfuel
  obtain ⟨k, rfl⟩ := Nat.exists_eq_add_of_le hfuel
  have h₁ := hrun (j₂ + k)
  have h₂ := hrun₂ (j + k)
  rw [← Nat.add_assoc] at h₁ h₂
  rw [Nat.add_comm j₂ j] at h₂
  cases r with
  | none => exact .inl h₁
  | some s₁ =>
    obtain ⟨es₁, hlog₁, hfeeds⟩ := hres s₁ rfl
    obtain ⟨hsteps₁, hblk₁⟩ := hfeeds.whole Decoder.parser_stable (by simpa using hps) hq.1
    obtain ⟨hd, hu, rfl⟩ := hsteps₁.unique hblk₁ hsteps₂ hblk₂
    exact .inr ⟨s₁, s₂, h₁, h₂, hlog₁.trans hlog₂.symm, hd, hu⟩

/-- A density command in three packets, cut inside its head and before its look-ahead byte. -/
theorem feedAll_eq_feed_density :
    ∃ n, ∀ fuel, n ≤ fuel →
      feedAll .stored fuel [(0, [0x40, 0x53]), (0, [0x7E, 0x7E, 0x30]), (0, [0x40])] (.init 2) =
          .ok none ∨
        ∃ s₁ s₂, feedAll .stored fuel [(0, [0x40, 0x53]), (0, [0x7E, 0x7E, 0x30]), (0, [0x40])]
            (.init 2) = .ok (some s₁) ∧
          feed .stored fuel [0x40, 0x53, 0x7E, 0x7E, 0x30, 0x40] (.init 2) = .ok (true, s₂) ∧
          s₁.log = s₂.log ∧ s₁.decoder = s₂.decoder ∧ s₁.remainder = s₂.remainder :=
  feedAll_eq_feed .stored (.init 2) _ (by simp) (by decide)
    (Decoder.Quiet.undisturbed (by decide))

/-- **The head `NVS-WiFi` is lost when a packet ends right after it.** `NVS-WiF` has arrived; then
`iX` in one packet is recognised, and `i` and `X` in two packets are skipped over. -/
theorem nvs_head_lost :
    ∃ s₀ s₁ s₂, feedAll .stored 30 [(0, [0x4E, 0x56, 0x53, 0x2D, 0x57, 0x69, 0x46])] (.init 2) =
        .ok (some s₀) ∧
      ¬ angenl <:+: [0x69, 0x58] ∧ ¬ nvsWiFi <:+: [0x69, 0x58] ∧
      feedAll .stored 30 [(0, [0x69]), (0, [0x58])] s₀ = .ok (some s₁) ∧
      feed .stored 30 [0x69, 0x58] s₀ = .ok (true, s₂) ∧
      s₁.command.DecodeStatus = .CommandIdle ∧ s₂.command.DecodeStatus = .commandNVSWiFi :=
  ⟨_, _, _, rfl, by decide, by decide, rfl, rfl, rfl, rfl⟩

end Printer

end ThermalPrinter
