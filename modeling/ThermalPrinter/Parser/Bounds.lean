import ThermalPrinter.Parser.Blocks

/-!
# What a packet leaves behind and what it queues

The host sends packets of at most 64 bytes, and `PrintDataManagement` looks at the row queue once
for each. On bytes without `ANGENL` the parser keeps less of a packet than the state it stops in
needs (`blocked_lt`), which is at most 63 bytes. And a row costs bytes: its head takes two, and its
576 dots take six at least, because a run of two bytes has at most 256 dots. What a row cost so far
is saved up in the decoder (`saved`), and no reaction queues a row that is not paid for
(`react_pays`). So a call queues at most 16 rows, and the queue stays below 416.
-/

namespace ThermalPrinter

open Lookahead

namespace Decoder

variable {d d' : Decoder} {u u' w : List UInt8} {es : List Event}

/-! ## What is left unread -/

/-- The number of bytes with which a state outside block data reacts in any case. -/
def need (d : Decoder) : Nat :=
  match d.DecodeStatus with
  | .CommandSpeed | .commandSetPID => 3
  | .CommandDensity | .CommandPaperType | .CommandLineStart | .CommandZipStart => 2
  | .CommandPageStart | .CommandLineEnd | .CommandPageEnd => 0
  | .commandNVSWiFi => 64
  | .commandSetBTName => 32
  | _ => MAxHeadLength

theorem need_le (d : Decoder) : d.need ≤ 64 := by
  unfold need
  split <;> decide

/-- Blocked outside block data, the reader has less unread than its state needs. -/
theorem blocked_lt (hs : d.DecodeStatus ≠ .CommandZipData) (h : parser.Blocked d u) :
    u.length < d.need := by
  rw [parser_blocked] at h
  unfold react at h
  split at h
  case h_9 hz => exact absurd hz hs
  case h_13 =>
    have hneed : d.need = MAxHeadLength := by unfold need; split <;> simp_all
    unfold scan at h
    split at h
    next => cases h
    next =>
      split at h
      next => cases h
      next hl => omega
  all_goals
    rename_i hs
    have hlt := arg_eq_none.1 h
    simp only [need, hs]
    exact hlt

/-- Bytes without `ANGENL` lead the reader into no block. -/
theorem steps_outside (hd : ¬ d.InBlock) (hfree : ¬ angenl <:+: w)
    (h : parser.Steps d w es d' u') : ¬ d'.InBlock := by
  induction h with
  | refl => exact hd
  | head h _ ih =>
    have hsuf : ∀ n, ¬ angenl <:+: List.drop n _ :=
      fun n hin => hfree (hin.trans (List.drop_suffix ..).isInfix)
    obtain ⟨h₁, h₂⟩ := react_outside (fun h => hd (.inl h)) (fun h => hd (.inr h)) (hsuf _) h
    obtain ⟨n, -, -, rfl⟩ := react_drop h
    exact ih (fun hin => hin.elim h₁ h₂) (hsuf n)

/-! ## What a row costs -/

/-- The bytes of the shortest tokens with so many dots. -/
def tokenCost (Dots : Nat) : Nat := 2 * (Dots / 256) + min (Dots % 256) 2

/-- What the row being decoded has cost so far, up to seven bytes: its head and its tokens. -/
def saved (d : Decoder) : Nat :=
  if d.DecodeStatus = .CommandLineStart then
    min 7 (2 + tokenCost d.Dots +
      if d.LineDeCodeWrite = .UserDefineCommandData then 1 else 0)
  else 0

theorem saved_of_ne (h : d.DecodeStatus ≠ .CommandLineStart) : d.saved = 0 := if_neg h

theorem saved_le (d : Decoder) : d.saved ≤ 7 := by
  unfold saved
  split
  · exact Nat.min_le_left ..
  · exact Nat.zero_le _

/-- The price of the rows among the events: eight bytes a row. -/
def price (es : List Event) : Nat := 8 * (Event.rows es).length

theorem price_append (es es' : List Event) : price (es ++ es') = price es + price es' := by
  rw [price, Printer.rows_append, List.length_append, Nat.mul_add]
  rfl

/-- A dot costs a byte. -/
theorem tokenCost_succ (Dots : Nat) : tokenCost (Dots + 1) ≤ tokenCost Dots + 1 := by
  unfold tokenCost; omega

/-- A run of at most 256 dots costs two bytes. -/
theorem tokenCost_add (Dots : Nat) {n : Nat} (hn : n ≤ 256) :
    tokenCost (Dots + n) ≤ tokenCost Dots + 2 := by
  unfold tokenCost; omega

/-- A row that the next dot ends has cost its eight bytes with it. -/
theorem tokenCost_of_dot {Dots : Nat} (h : 576 ≤ Dots + 1) : 6 ≤ tokenCost Dots := by
  unfold tokenCost; omega

/-- A row that a run ends had cost four token bytes before the run. -/
theorem tokenCost_of_run {Dots n : Nat} (hn : n ≤ 256) (h : 576 ≤ Dots + n) :
    4 ≤ tokenCost Dots := by
  unfold tokenCost; omega

/-- The end of a token queues a row with enough dots and is idle, or changes nothing. -/
theorem finish_cases (d : Decoder) :
    LineDecodeDots ≤ d.Dots ∧ price d.finish.2 = 8 ∧ d.finish.1.DecodeStatus = .CommandIdle ∨
      ¬ LineDecodeDots ≤ d.Dots ∧ d.finish = (d, []) := by
  unfold finish
  split
  next h => exact .inl ⟨h, rfl, rfl⟩
  next h => exact .inr ⟨h, rfl⟩

/-- **A token byte pays for the row it ends**: the row has cost seven bytes before it. -/
theorem token_pays (hs : d.DecodeStatus = .CommandLineStart) (b : UInt8) :
    price (d.token b).2 + (d.token b).1.saved ≤ d.saved + 1 := by
  have hb : b.toNat + 1 ≤ 256 := b.toNat_lt
  have hnil : price [] = 0 := rfl
  unfold token
  cases hw : d.LineDeCodeWrite with
  | UserDefineCommandHead =>
    have hd : d.saved = min 7 (2 + tokenCost d.Dots) := by simp [saved, hs, hw]
    have hsucc := tokenCost_succ d.Dots
    simp only [headByte]
    split
    next =>
      rw [hd]
      simp only [saved, hs, if_true, hnil]
      omega
    next =>
      rcases finish_cases { d with
        DotsMatric :=
          if b &&& 0x7f ≠ 0 ∧ d.Dots < 576 then Printer.setDot d.DotsMatric d.Dots
          else d.DotsMatric
        Dots := d.Dots + 1 } with ⟨hfull, hprice, hidle⟩ | ⟨-, heq⟩
      · have := tokenCost_of_dot hfull
        rw [hprice, saved_of_ne (by simp [hidle])]
        omega
      · rw [heq, hd]
        simp only [saved, hs, hw, if_true, reduceCtorEq, if_false, hnil]
        omega
  | UserDefineCommandData =>
    have hd : d.saved = min 7 (2 + tokenCost d.Dots + 1) := by simp [saved, hs, hw]
    have hadd := tokenCost_add d.Dots hb
    simp only [countByte]
    rcases finish_cases { d with
      DotsMatric :=
        if d.DotValue then Printer.fillDots d.DotsMatric d.Dots (b.toNat + 1) else d.DotsMatric
      Dots := d.Dots + (b.toNat + 1) } with ⟨hfull, hprice, hidle⟩ | ⟨-, heq⟩
    · have := tokenCost_of_run hb hfull
      rw [hprice, saved_of_ne (by simp [hidle])]
      omega
    · rw [heq, hd]
      simp only [saved, hs, if_true, reduceCtorEq, if_false, hnil]
      omega

/-- The head of a row is paid for by its two bytes. -/
theorem enter_pays (st : CMDStatus) : (d.enter st).saved ≤ 2 := by
  unfold enter
  split
  next h => simp [saved, h, tokenCost]
  next h => rw [saved_of_ne h]; exact Nat.zero_le 2

/-- **No reaction queues a row that is not paid for**: eight bytes a row, of which the decoder has
saved up what the row being decoded cost before. -/
theorem react_pays (h : d.react u = some (d', u', es)) :
    price es + d'.saved + u'.length ≤ d.saved + u.length := by
  unfold react at h
  split at h
  case h_5 hs =>
    obtain ⟨hn, rfl, rfl, rfl⟩ := arg_eq_some.1 h
    have := token_pays hs ((u.take 1).getD 0 0)
    rw [List.length_drop]
    omega
  case h_9 hs =>
    have hz : ∀ d₁ : Decoder, d₁.DecodeStatus = .CommandZipData → d₁.saved = 0 :=
      fun d₁ h => saved_of_ne (by rw [h]; nofun)
    unfold fetch at h
    split at h
    · obtain ⟨-, rfl, rfl, rfl⟩ := arg_eq_some.1 h
      simp [price, Event.rows, hz _ hs, hz, hs]
    · split at h
      · obtain ⟨-, rfl, rfl, rfl⟩ := arg_eq_some.1 h
        simp [price, Event.rows, hz _ hs, hz, hs]
      · cases h
  case h_13 =>
    unfold scan at h
    split at h
    next st head hf =>
      obtain ⟨hm, hlt, -⟩ := findHead_eq_some hf
      have h2 : 2 ≤ head.length := (head_length hm).1
      have := enter_pays (d := d) st
      simp only [Option.some.injEq, Prod.mk.injEq] at h
      obtain ⟨rfl, rfl, rfl⟩ := h
      simp only [price, Event.rows, List.length_nil, List.length_drop]
      omega
    next =>
      split at h
      next =>
        simp only [Option.some.injEq, Prod.mk.injEq] at h
        obtain ⟨rfl, rfl, rfl⟩ := h
        simp only [price, Event.rows, List.length_nil, List.length_drop]
        omega
      next => cases h
  all_goals
    rename_i hs
    obtain ⟨-, rfl, rfl, rfl⟩ := arg_eq_some.1 h
    simp [price, Event.rows, saved, idle, hs]

/-- When a row is queued, nothing is saved up for the next one. -/
theorem react_row (h : d.react u = some (d', u', es)) (hr : Event.rows es ≠ []) :
    d'.saved = 0 := by
  unfold react at h
  split at h
  case h_5 hs =>
    obtain ⟨-, rfl, -, rfl⟩ := arg_eq_some.1 h
    refine saved_of_ne ?_
    rw [Printer.token_DecodeStatus, if_neg (fun hnil => hr (by rw [hnil]; rfl))]
    nofun
  case h_9 hs =>
    unfold fetch at h
    split at h
    · obtain ⟨-, -, -, rfl⟩ := arg_eq_some.1 h
      exact absurd rfl hr
    · split at h
      · obtain ⟨-, -, -, rfl⟩ := arg_eq_some.1 h
        exact absurd rfl hr
      · cases h
  case h_13 =>
    unfold scan at h
    split at h
    next => cases h; exact absurd rfl hr
    next =>
      split at h
      next => cases h; exact absurd rfl hr
      next => cases h
  all_goals
    obtain ⟨-, rfl, -, -⟩ := arg_eq_some.1 h
    simp [saved, idle]

/-- No run queues a row that is not paid for. -/
theorem steps_pays (h : parser.Steps d u es d' u') :
    price es + d'.saved + u'.length ≤ d.saved + u.length :=
  h.pays rfl price_append react_pays

end Decoder

/-! ## The host path -/

namespace Printer

variable {s s' : Printer} {env : Env} {stream data : List UInt8}

/-- What the host path leads to, with the stream of the accepted packets: packets of at most 64
bytes, and rows taken by the printing side in between. -/
inductive Hosted (env : Env) : List UInt8 → Printer → Prop
  | init (HeadStbLowValid : UInt8) : Hosted env [] (Printer.init HeadStbLowValid)
  | accepted {stream data : List UInt8} {s s' : Printer} {fuel : Nat} :
      Hosted env stream s → data.length ≤ 64 → feed env fuel data s = .ok (true, s') →
      Hosted env (stream ++ data) s'
  | refused {stream data : List UInt8} {s s' : Printer} {fuel : Nat} :
      Hosted env stream s → data.length ≤ 64 → feed env fuel data s = .ok (false, s') →
      Hosted env stream s'
  | takeRows {stream : List UInt8} {s : Printer} (n : Nat) :
      Hosted env stream s → Hosted env stream (s.takeRows n)

/-- The state between two packets of a stream without `ANGENL`: outside blocks, with at most 63
bytes unread, which are the last ones of the stream, and with at most 415 rows queued. -/
structure Bounded (stream : List UInt8) (s : Printer) : Prop where
  outside : ¬ s.decoder.InBlock
  suffix : s.remainder <:+ stream
  RemainderLength : s.command.RemainderLength = s.remainder.length
  remainder_le : s.remainder.length ≤ 63
  rows_le : s.PrintBLink.length ≤ 415

/-- What an accepted call does on a stream without `ANGENL`: it queues at most 16 rows, at most 127
bytes are available to it, and what it reads after a row pays eight bytes for each further row. -/
structure Accepts (s s' : Printer) (data : List UInt8) (rows : List LinkedListData) : Prop where
  queue : s'.PrintBLink = s.PrintBLink ++ rows
  rows_le : rows.length ≤ 16
  available : s.command.RemainderLength + data.length ≤ 127
  paid : 8 * rows.length + s'.command.RemainderLength ≤
    7 + (s.command.RemainderLength + data.length)
  each : ∀ es d u r d₁ u₁ es₁ d₂ u₂, parser.Steps s.decoder (s.remainder ++ data) es d u →
    parser.react d u = some (d₁, u₁, [.row r]) → parser.Steps d₁ u₁ es₁ d₂ u₂ →
    8 * (Event.rows es₁).length + u₂.length ≤ u₁.length
  remainder_le : s'.command.RemainderLength ≤ 63

/-- An accepted call reads its packet until it is blocked with less than the state needs. -/
theorem feed_bounded (env : Env) (h : Bounded stream s) (hlen : data.length ≤ 64)
    (hfree : ¬ angenl <:+: stream ++ data) (hroom : s.PrintBLink.length < PrintLinkedListCount) :
    ∃ s' rows n, (∀ fuel, n ≤ fuel → feed env fuel data s = .ok (true, s')) ∧
      Accepts s s' data rows ∧ Bounded (stream ++ data) s' := by
  have hb : (s.realloc data).InBuffer := Nat.zero_le _
  have hunread : (s.realloc data).unread = s.remainder ++ data := rfl
  have hsuf : s.remainder ++ data <:+ stream ++ data := by
    obtain ⟨t, ht⟩ := h.suffix
    exact ⟨t, by rw [← List.append_assoc, ht]⟩
  have hfree' : ¬ angenl <:+: s.remainder ++ data := fun h => hfree (h.trans hsuf.isInfix)
  obtain ⟨s', es, j, hran, hblk, hend⟩ := PrintDataProcesser_reaches env hb rfl
  have hsteps := hran.steps
  rw [hunread] at hsteps
  have hout : ¬ s'.decoder.InBlock := Decoder.steps_outside h.outside hfree' hsteps
  have hpays := Decoder.steps_pays hsteps
  have hsaved := s.decoder.saved_le
  have hlt := Decoder.blocked_lt (fun h => hout (.inr h)) hblk
  have hneed := s'.decoder.need_le
  have hrem := h.remainder_le
  rcases hend with ⟨hsus, -, hrun⟩ | ⟨-, hat, -⟩
  · have hrem' := hsus.remainder_eq hran.inBuffer
    have hprice : Decoder.price es = 8 * (Event.rows es).length := rfl
    have hdec : (s.realloc data).decoder = s.decoder := rfl
    rw [List.length_append, hdec, hprice] at hpays
    have hrows : (Event.rows es).length ≤ 16 := by omega
    refine ⟨s', Event.rows es, j, ?_, ?_, ?_⟩
    · intro fuel hfuel
      obtain ⟨k, rfl⟩ := Nat.exists_eq_add_of_le hfuel
      rw [feed_room hroom, hrun]
      rfl
    · have hR := hsus.remainder
      have hR' := h.RemainderLength
      refine ⟨hran.queue, hrows, by omega, by omega, ?_, by omega⟩
      intro es₀ d u r d₁ u₁ es₁ d₂ u₂ _ hrow hmore
      have hnone := Decoder.react_row hrow (by simp [Event.rows])
      have hmore := Decoder.steps_pays hmore
      rw [hnone] at hmore
      unfold Decoder.price at hmore
      omega
    · refine ⟨hout, ?_, by rw [hsus.remainder, hrem'], by rw [hrem']; omega, ?_⟩
      · rw [hrem']
        exact (Decoder.steps_suffix hsteps).trans hsuf
      · have hq : s'.PrintBLink.length = s.PrintBLink.length + (Event.rows es).length := by
          rw [hran.queue, List.length_append]
          rfl
        unfold PrintLinkedListCount at hroom
        omega
  · exact absurd (.inr hat.1) hout

/-- The result of a call with room in the queue is that of an accepted one. -/
theorem feed_accepted {fuel : Nat} {r : Bool × Printer}
    (hroom : s.PrintBLink.length < PrintLinkedListCount) (h : feed env fuel data s = .ok r) :
    r.1 = true := by
  rw [feed_room hroom] at h
  cases hp : PrintDataProcesser env fuel (s.realloc data) with
  | error e => rw [hp] at h; cases h
  | ok q => rw [hp] at h; cases h; rfl

/-- The host path keeps the bounds. -/
theorem Hosted.bounded (h : Hosted env stream s) (hfree : ¬ angenl <:+: stream) :
    Bounded stream s := by
  induction h with
  | init v =>
    refine ⟨?_, List.suffix_rfl, rfl, Nat.zero_le _, Nat.zero_le _⟩
    rintro (h | h) <;> cases h
  | @accepted stream data s s' fuel _ hlen hr ih =>
    have hb := ih fun h => hfree (h.trans (List.prefix_append ..).isInfix)
    by_cases hroom : s.PrintBLink.length < PrintLinkedListCount
    · obtain ⟨s₁, -, n, hn, -, hb₁⟩ := feed_bounded env hb hlen hfree hroom
      have hsame := hn (n + fuel) (Nat.le_add_right ..)
      rw [feed_mono (Nat.le_add_left ..) hr] at hsame
      cases hsame
      exact hb₁
    · rw [feed_refused hroom] at hr
      cases hr
  | @refused stream data s s' fuel _ _ hr ih =>
    by_cases hroom : s.PrintBLink.length < PrintLinkedListCount
    · exact absurd (feed_accepted hroom hr) nofun
    · rw [feed_refused hroom] at hr
      cases hr
      exact ih hfree
  | takeRows n _ ih =>
    have hb := ih hfree
    refine ⟨hb.outside, hb.suffix, hb.RemainderLength, hb.remainder_le, ?_⟩
    exact Nat.le_trans (by simp [Printer.takeRows]) hb.rows_le

/-- **The remainder and the row queue are bounded.** On the host path, as long as the stream has no
`ANGENL`, at most 63 bytes stay unread and at most 415 rows are queued; and every call with at most
64 bytes returns, refused without a change when 400 rows are queued, and otherwise with at most 16
rows more, each after the first for at least eight of at most 127 bytes. -/
theorem hosted_bounded (env : Env) (h : Hosted env stream s) (hfree : ¬ angenl <:+: stream) :
    s.command.RemainderLength ≤ 63 ∧ s.PrintBLink.length ≤ 415 ∧
      ∀ data, data.length ≤ 64 → ¬ angenl <:+: stream ++ data →
        ∃ accepted s' n, (∀ fuel, n ≤ fuel → feed env fuel data s = .ok (accepted, s')) ∧
          (accepted = false → s' = s ∧ PrintLinkedListCount ≤ s.PrintBLink.length) ∧
          (accepted = true → ∃ rows, Accepts s s' data rows) := by
  have hb := h.bounded hfree
  refine ⟨hb.RemainderLength ▸ hb.remainder_le, hb.rows_le, ?_⟩
  intro data hlen hfree'
  by_cases hroom : s.PrintBLink.length < PrintLinkedListCount
  · obtain ⟨s', rows, n, hn, hacc, -⟩ := feed_bounded env hb hlen hfree' hroom
    exact ⟨true, s', n, hn, nofun, fun _ => ⟨rows, hacc⟩⟩
  · exact ⟨false, s, 0, fun _ _ => feed_refused hroom _, fun _ => ⟨rfl, Nat.le_of_not_lt hroom⟩,
      nofun⟩

/-- The printer after a packet that ends inside a command head. -/
def halfHead : Printer :=
  match feed .stored 30 [0x40, 0x3C, 0x40, 0x53] (.init 2) with
  | .ok (_, s) => s
  | .error _ => .init 2

/-- A page start and the first half of another head. -/
theorem hosted_bounded_halfHead :
    halfHead.command.RemainderLength ≤ 63 ∧ halfHead.PrintBLink.length ≤ 415 ∧
      ∀ data, data.length ≤ 64 → ¬ angenl <:+: [] ++ [0x40, 0x3C, 0x40, 0x53] ++ data →
        ∃ accepted s' n, (∀ fuel, n ≤ fuel →
            feed .stored fuel data halfHead = .ok (accepted, s')) ∧
          (accepted = false → s' = halfHead ∧
            PrintLinkedListCount ≤ halfHead.PrintBLink.length) ∧
          (accepted = true → ∃ rows, Accepts halfHead s' data rows) :=
  hosted_bounded .stored
    (@Hosted.accepted .stored [] [0x40, 0x3C, 0x40, 0x53] (.init 2) halfHead 30 (.init 2)
      (by decide) rfl) (by decide)

end Printer

end ThermalPrinter
