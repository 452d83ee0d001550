import ThermalPrinter.Parser.Reader
import ThermalPrinter.Parser.Process
import Mathlib.Tactic.Convert

/-!
# The handlers run the reader

Every handler of the parser is a run of the reader on the unread bytes (`Ran`): either it leaves
the packet running and has come closer to the end of it, or it suspends the packet where the reader
is blocked (`Handled`). From this the loop: `PrintDataProcesser` runs the reader until it is
blocked, and returns there unless the reader stands at a compressed block
(`PrintDataProcesser_reaches`).
-/

namespace ThermalPrinter

open Lookahead

/-! ## Reactions of the reader -/

namespace Decoder

variable {d d' : Decoder} {u u' : List UInt8} {es : List Event} {need use : Nat}
  {f : List UInt8 → Decoder × List Event}

/-- A state that waits for arguments reacts as soon as they are there. -/
theorem arg_eq_some :
    arg need use f u = some (d', u', es) ↔
      need ≤ u.length ∧ (f (u.take use)).1 = d' ∧ u.drop use = u' ∧ (f (u.take use)).2 = es := by
  unfold arg
  split
  next h => simp [h]
  next h => simp [show ¬ need ≤ u.length by omega]

/-- A state that waits for arguments is blocked while they are not there. -/
theorem arg_eq_none : arg need use f u = none ↔ u.length < need := by
  unfold arg
  split <;> simp_all

/-- States that react without reading: each is left by its reaction. -/
def transient (d : Decoder) : Nat :=
  match d.DecodeStatus with
  | .CommandPageStart | .CommandLineEnd | .CommandPageEnd => 1
  | .CommandZipData => if d.zipData = none then 1 else 0
  | _ => 0

/-- The measure that every reaction lowers: unread bytes count double, a state that reacts without
reading counts one. -/
def rank (d : Decoder) (u : List UInt8) : Nat := 2 * u.length + d.transient

theorem transient_le_one (d : Decoder) : d.transient ≤ 1 := by
  unfold transient
  split
  · exact Nat.le_refl 1
  · exact Nat.le_refl 1
  · exact Nat.le_refl 1
  · split <;> omega
  · exact Nat.zero_le 1

/-- A reaction that reads at least one byte lowers the measure. -/
theorem rank_lt_of_length (h : u'.length < u.length) : d'.rank u' < d.rank u := by
  have := d'.transient_le_one
  unfold rank
  omega

/-- The heads of the table are between two and eight bytes long. -/
theorem head_length {h : CMDStatus × List UInt8} (hm : h ∈ CMDHead) :
    2 ≤ h.2.length ∧ h.2.length ≤ MAxHeadLength := by
  revert h
  decide

/-- A head that is found begins the bytes, and a byte follows it. -/
theorem findHead_eq_some {st : CMDStatus} {head : List UInt8} (h : findHead u = some (st, head)) :
    (st, head) ∈ CMDHead ∧ head.length < u.length ∧ u.take head.length = head := by
  refine ⟨List.mem_of_find?_eq_some h, ?_⟩
  have := List.find?_some h
  simpa using this

/-- Every reaction lowers the measure. -/
theorem react_rank (h : d.react u = some (d', u', es)) : d'.rank u' < d.rank u := by
  unfold react at h
  split at h
  case h_4 hs | h_6 hs | h_7 hs =>
    obtain ⟨-, rfl, rfl, -⟩ := arg_eq_some.1 h
    simp [rank, transient, hs, idle]
  case h_9 hs =>
    unfold fetch at h
    split at h
    next hz =>
      obtain ⟨-, rfl, rfl, -⟩ := arg_eq_some.1 h
      simp [rank, transient, hs, hz]
    next =>
      split at h
      · obtain ⟨hn, -, rfl, -⟩ := arg_eq_some.1 h
        exact rank_lt_of_length (by simp; omega)
      · cases h
  case h_13 =>
    unfold scan at h
    split at h
    next st head hf =>
      obtain ⟨hm, hlt, -⟩ := findHead_eq_some hf
      have h2 : 2 ≤ head.length := (head_length hm).1
      simp only [Option.some.injEq, Prod.mk.injEq] at h
      obtain ⟨-, rfl, -⟩ := h
      exact rank_lt_of_length (by simp; omega)
    next =>
      split at h
      next hle =>
        simp only [Option.some.injEq, Prod.mk.injEq] at h
        obtain ⟨-, rfl, -⟩ := h
        exact rank_lt_of_length (by simp [MAxHeadLength] at hle ⊢; omega)
      next => cases h
  all_goals
    obtain ⟨hn, -, rfl, -⟩ := arg_eq_some.1 h
    exact rank_lt_of_length (by simp; omega)

end Decoder

/-! ## The handlers on the unread bytes -/

namespace Command

@[simp] theorem length_unread (c : Command) : c.unread.length = c.TotalLength - c.ReadPos := by
  simp [unread, TotalLength]

theorem byteAt_eq (c : Command) (i : Nat) : c.byteAt i = c.unread.getD i 0 := by
  simp [byteAt, unread, List.getD_eq_getElem?_getD]

/-- `k` bytes can be read exactly when that many are unread. -/
theorem ReadPos_add_le {c : Command} (h : c.ReadPos ≤ c.TotalLength) (k : Nat) :
    c.ReadPos + k ≤ c.TotalLength ↔ k ≤ c.unread.length := by
  rw [length_unread]; omega

/-- More than `k` bytes can be read exactly when more than that many are unread. -/
theorem ReadPos_add_lt {c : Command} (h : c.ReadPos ≤ c.TotalLength) (k : Nat) :
    c.ReadPos + k < c.TotalLength ↔ k + 1 ≤ c.unread.length := by
  rw [length_unread]; omega

end Command

/-- The decoder of the printer. -/
abbrev Printer.decoder (s : Printer) : Decoder := s.command.toDecoder

/-- The unread bytes of the packet at hand. -/
abbrev Printer.unread (s : Printer) : List UInt8 := s.command.unread

namespace Printer

/-- The read position is inside the working buffer. -/
def InBuffer (s : Printer) : Prop := s.command.ReadPos ≤ s.command.TotalLength

/-- The printer after a reaction that reads `use` bytes. -/
def apply (s : Printer) (d : Decoder) (use : Nat) (es : List Event) : Printer :=
  { s with
    command :=
      { d with
        Buffer := s.command.Buffer, RemainderLength := s.command.RemainderLength
        ReadPos := s.command.ReadPos + use, ReturnFlag := s.command.ReturnFlag
        LineDecodeOneceFinshed := s.command.LineDecodeOneceFinshed }
    PrintBLink := s.PrintBLink ++ Event.rows es
    log := s.log ++ es }

variable {s s' s₁ s₂ : Printer} {es es₁ es₂ : List Event} {d : Decoder} {need use : Nat}
  {f : List UInt8 → Decoder × List Event}

@[simp] theorem apply_decoder : (s.apply d use es).decoder = d := rfl

@[simp] theorem apply_unread : (s.apply d use es).unread = s.unread.drop use := by
  simp [unread, Command.unread, apply]

theorem InBuffer.apply (h : s.InBuffer) (hu : use ≤ s.unread.length) :
    (s.apply d use es).InBuffer :=
  (Command.ReadPos_add_le h use).2 hu

/-- From `s` to `s'` the reader ran with the output `es`: the executed commands are logged and the
rows queued, and nothing else but the decoder and the buffer changed. -/
structure Ran (s s' : Printer) (es : List Event) : Prop where
  steps : parser.Steps s.decoder s.unread es s'.decoder s'.unread
  log : s'.log = s.log ++ es
  queue : s'.PrintBLink = s.PrintBLink ++ Event.rows es
  out : s'.out = s.out
  delays : s'.delays = s.delays
  inBuffer : s'.InBuffer

/-- The packet is suspended and the unread bytes are kept for the next one. -/
structure Suspended (s : Printer) : Prop where
  ReturnFlag : s.command.ReturnFlag = true
  remainder : s.command.RemainderLength = s.unread.length

/-- The unread remainder that the next packet is appended to. -/
def remainder (s : Printer) : List UInt8 :=
  s.command.Buffer.drop (s.command.TotalLength - s.command.RemainderLength)

/-- A suspended packet keeps exactly its unread bytes. -/
theorem Suspended.remainder_eq (h : s.Suspended) (hb : s.InBuffer) : s.remainder = s.unread := by
  have hlen : s.command.TotalLength - s.command.RemainderLength = s.command.ReadPos := by
    rw [h.remainder, Command.length_unread]
    unfold InBuffer at hb
    omega
  rw [Printer.remainder, hlen]
  rfl

theorem rows_append (es₁ es₂ : List Event) :
    Event.rows (es₁ ++ es₂) = Event.rows es₁ ++ Event.rows es₂ := by
  induction es₁ with
  | nil => rfl
  | cons e es ih => cases e <;> simp [Event.rows, ih]

theorem Ran.refl (h : s.InBuffer) : Ran s s [] :=
  ⟨.refl, by simp, by simp [Event.rows], rfl, rfl, h⟩

theorem Ran.trans (h₁ : Ran s s₁ es₁) (h₂ : Ran s₁ s₂ es₂) : Ran s s₂ (es₁ ++ es₂) where
  steps := h₁.steps.trans h₂.steps
  log := by rw [h₂.log, h₁.log, List.append_assoc]
  queue := by rw [h₂.queue, h₁.queue, rows_append, List.append_assoc]
  out := h₂.out.trans h₁.out
  delays := h₂.delays.trans h₁.delays
  inBuffer := h₂.inBuffer

/-- A reaction of the reader is a run. -/
theorem Ran.of_react (h : s.InBuffer) (hu : use ≤ s.unread.length)
    (hr : s.decoder.react s.unread = some (d, s.unread.drop use, es)) :
    Ran s (s.apply d use es) es where
  steps := .single (by rw [apply_decoder, apply_unread]; exact hr)
  log := rfl
  queue := rfl
  out := rfl
  delays := rfl
  inBuffer := h.apply hu

@[simp] theorem ReturnModle_unread : s.ReturnModle.unread = s.unread := rfl

theorem ReturnModle_suspended : s.ReturnModle.Suspended :=
  ⟨rfl, by rw [ReturnModle_unread, Command.length_unread]; rfl⟩

/-- Suspending a packet is an empty run. -/
theorem Ran.returnModle (h : s.InBuffer) : Ran s s.ReturnModle [] :=
  ⟨.refl, by simp [ReturnModle], by simp [ReturnModle, Event.rows], rfl, rfl, h⟩

/-- What a handler does: a run of the reader that either leaves the packet running, with the
measure lowered, or suspends it where the reader is blocked, outside a compressed block. -/
def Handled (s s' : Printer) : Prop :=
  ∃ es, Ran s s' es ∧
    (s'.command.ReturnFlag = false ∧ s'.decoder.rank s'.unread < s.decoder.rank s.unread ∨
      s'.Suspended ∧ parser.Blocked s'.decoder s'.unread ∧
        s'.command.DecodeStatus ≠ .CommandZipData)

/-- A handler that does the reaction of its state. -/
theorem Handled.of_react (hb : s.InBuffer) (hf : s.command.ReturnFlag = false)
    (hu : use ≤ s.unread.length)
    (hr : s.decoder.react s.unread = some (d, s.unread.drop use, es)) :
    Handled s (s.apply d use es) := by
  refine ⟨es, Ran.of_react hb hu hr, .inl ⟨hf, ?_⟩⟩
  rw [apply_decoder, apply_unread]
  exact Decoder.react_rank hr

/-- A handler that suspends the packet where its state has no reaction. -/
theorem Handled.of_blocked (hb : s.InBuffer) (hs : s.command.DecodeStatus ≠ .CommandZipData)
    (hr : s.decoder.react s.unread = none) : Handled s s.ReturnModle :=
  ⟨[], Ran.returnModle hb, .inr ⟨ReturnModle_suspended, hr, hs⟩⟩

/-- A handler that waits for arguments, given that it is the reaction of its state when they are
there and suspends the packet otherwise. -/
theorem Handled.arg (hb : s.InBuffer) (hf : s.command.ReturnFlag = false)
    (hs : s.command.DecodeStatus ≠ .CommandZipData)
    (hr : s.decoder.react s.unread = Decoder.arg need use f s.unread) (hu : use ≤ need)
    (h : s' = if need ≤ s.unread.length then
        s.apply (f (s.unread.take use)).1 use (f (s.unread.take use)).2
      else s.ReturnModle) : Handled s s' := by
  subst h
  split
  next hn =>
    refine Handled.of_react hb hf (Nat.le_trans hu hn) ?_
    rw [hr]
    exact Decoder.arg_eq_some.2 ⟨hn, rfl, rfl, rfl⟩
  next hn =>
    refine Handled.of_blocked hb hs ?_
    rw [hr]
    exact Decoder.arg_eq_none.2 (by omega)

/-- The handlers that read their arguments and leave the state. -/
theorem handle_arg (hb : s.InBuffer) (hf : s.command.ReturnFlag = false)
    (h₁ : s.command.DecodeStatus ≠ .CommandLineStart)
    (h₂ : s.command.DecodeStatus ∈ CMDHead.map Prod.fst) : Handled s s.handle := by
  have hlt := fun k => Command.ReadPos_add_lt hb k
  have hle := fun k => Command.ReadPos_add_le hb k
  cases hs : s.command.DecodeStatus
  case CommandLineStart => exact absurd hs h₁
  case CommandTotalNum | CommandZipCheck | CommandZipData | CommandNVSPID | CommandIdle =>
    rw [hs] at h₂
    exact absurd h₂ (by decide)
  case CommandSpeed =>
    refine Handled.arg hb hf (by simp [hs]) (by rw [Decoder.react, hs]) (by decide) ?_
    simp only [handle, hs, CommandSetSpeed, hlt]
    split <;> simp [apply, record, Event.rows, Command.byteAt_eq]
  case CommandDensity =>
    refine Handled.arg hb hf (by simp [hs]) (by rw [Decoder.react, hs]) (by decide) ?_
    simp only [handle, hs, CommandSetDensity, hlt]
    split <;> simp [apply, record, Event.rows, Command.byteAt_eq]
  case CommandPaperType =>
    refine Handled.arg hb hf (by simp [hs]) (by rw [Decoder.react, hs]) (by decide) ?_
    simp only [handle, hs, CommandSetPaperType, hlt]
    split <;> simp [apply, record, Event.rows, Command.byteAt_eq]
  case commandSetPID =>
    refine Handled.arg hb hf (by simp [hs]) (by rw [Decoder.react, hs]) (by decide) ?_
    simp only [handle, hs, CommandSetPID, hlt]
    split <;> simp [apply, record, Event.rows, Command.byteAt_eq, Decoder.idle]
  case CommandPageStart =>
    refine Handled.arg hb hf (by simp [hs]) (by rw [Decoder.react, hs]) (by decide) ?_
    simp [handle, hs, CommandSetPageStart, apply, record, Event.rows]
  case CommandLineEnd =>
    refine Handled.arg hb hf (by simp [hs]) (by rw [Decoder.react, hs]) (by decide) ?_
    simp [handle, hs, CommandSetLineEnd, apply, record, Event.rows, Decoder.idle]
  case CommandPageEnd =>
    refine Handled.arg hb hf (by simp [hs]) (by rw [Decoder.react, hs]) (by decide) ?_
    simp [handle, hs, CommandSetPageEnd, apply, record, Event.rows]
  case CommandZipStart =>
    refine Handled.arg hb hf (by simp [hs]) (by rw [Decoder.react, hs]) (by decide) ?_
    simp only [handle, hs, CommandZipSize, hle]
    split <;> simp [apply, Event.rows, Command.byteAt_eq]
  case commandNVSWiFi =>
    refine Handled.arg hb hf (by simp [hs]) (by rw [Decoder.react, hs]) (by decide) ?_
    simp only [handle, hs, CommandNVSWiFi, hle]
    split <;> simp [apply, record, Event.rows, Decoder.idle, bytes, List.take_take, List.drop_take]
  case commandSetBTName =>
    refine Handled.arg hb hf (by simp [hs]) (by rw [Decoder.react, hs]) (by decide) ?_
    simp only [handle, hs, CommandSetBTName, hle]
    split <;> simp [apply, record, Event.rows, Decoder.idle, bytes]

/-- The idle scan in terms of the unread bytes. -/
theorem IdleProces_eq (hb : s.InBuffer) :
    s.IdleProces =
      match Decoder.findHead s.unread with
      | some (st, head) => s.apply (s.decoder.enter st) head.length []
      | none =>
        if MAxHeadLength ≤ s.unread.length then s.apply s.decoder 1 [] else s.ReturnModle := by
  have hfind : CMDHead.find? (fun h => headMatches s.command h.2) = Decoder.findHead s.unread := by
    simp only [Decoder.findHead, headMatches, Command.ReadPos_add_lt hb, Nat.lt_iff_add_one_le]
  rw [IdleProces, hfind]
  cases Decoder.findHead s.unread with
  | some h =>
    simp only [Decoder.enter]
    split <;> simp [apply, Event.rows]
  | none => simp only [Command.ReadPos_add_le hb, apply, Event.rows, List.append_nil]

/-- The idle scan is the reaction of the idle reader. -/
theorem handle_scan (hb : s.InBuffer) (hf : s.command.ReturnFlag = false)
    (hs : s.command.DecodeStatus ≠ .CommandZipData)
    (hr : s.decoder.react s.unread = s.decoder.scan s.unread) : Handled s s.IdleProces := by
  rw [IdleProces_eq hb]
  rw [Decoder.scan] at hr
  cases hd : Decoder.findHead s.unread with
  | some h =>
    obtain ⟨st, head⟩ := h
    rw [hd] at hr
    exact Handled.of_react hb hf (Nat.le_of_lt (Decoder.findHead_eq_some hd).2.1) hr
  | none =>
    rw [hd] at hr
    by_cases hn : MAxHeadLength ≤ s.unread.length
    · simp only [hn, if_true] at hr ⊢
      exact Handled.of_react hb hf (Nat.le_trans (by decide) hn) hr
    · simp only [hn, if_false] at hr ⊢
      exact Handled.of_blocked hb hs hr

/-! ### Rows -/

/-- The flag `LineDecodeOneceFinshed`, which only `CommandSetLineStart` reads. -/
def setFinshed (s : Printer) (b : Bool) : Printer :=
  { s with command := { s.command with LineDecodeOneceFinshed := b } }

@[simp] theorem setFinshed_decoder (b : Bool) : (s.setFinshed b).decoder = s.decoder := rfl

@[simp] theorem setFinshed_unread (b : Bool) : (s.setFinshed b).unread = s.unread := rfl

/-- The flag is no part of a run. -/
theorem Ran.setFinshed_left (b : Bool) (h : Ran (s.setFinshed b) s' es) : Ran s s' es :=
  ⟨h.steps, h.log, h.queue, h.out, h.delays, h.inBuffer⟩

/-- The flag is no part of a run. -/
theorem Ran.setFinshed_right (b : Bool) (h : Ran s s' es) : Ran s (s'.setFinshed b) es :=
  ⟨h.steps, h.log, h.queue, h.out, h.delays, h.inBuffer⟩

/-- The end of a token in terms of the decoder: a queued row ends the loop. -/
theorem finishLine_eq :
    s.finishLine = (s.apply s.decoder.finish.1 0 s.decoder.finish.2).setFinshed
      (s.command.LineDecodeOneceFinshed || !s.decoder.finish.2.isEmpty) := by
  unfold finishLine Decoder.finish
  split
  next => simp [WritePrintLinkedList, record, apply, setFinshed, Event.rows, Decoder.idle]
  next => simp [apply, setFinshed, Event.rows]

/-- One turn of the row loop in terms of the decoder. -/
theorem lineToken_eq (hb : s.InBuffer) :
    s.lineToken =
      if 2 ≤ s.unread.length then
        (s.apply (s.decoder.token (s.unread.getD 0 0)).1 1
          (s.decoder.token (s.unread.getD 0 0)).2).setFinshed
          (s.command.LineDecodeOneceFinshed ||
            !(s.decoder.token (s.unread.getD 0 0)).2.isEmpty)
      else s.ReturnModle := by
  unfold lineToken Decoder.token
  cases hw : s.command.LineDeCodeWrite with
  | UserDefineCommandHead =>
    simp only [lineCommandHead, Command.ReadPos_add_lt hb, Command.byteAt_eq, Decoder.headByte]
    split
    · split
      · simp [apply, setFinshed, Event.rows]
      · rw [finishLine_eq]
        simp [apply, setFinshed]
    · rfl
  | UserDefineCommandData =>
    simp only [lineCommandData, Command.ReadPos_add_lt hb, Command.byteAt_eq, Decoder.countByte]
    split
    · rw [finishLine_eq]
      simp [apply, setFinshed]
    · rfl

/-- The row loop stops at a finished row or a suspended packet. -/
theorem lineLoop_finshed (n : Nat) (h : s.command.LineDecodeOneceFinshed = true) :
    lineLoop n s = s := by
  cases n <;> simp [lineLoop, h]

/-- The end of a token leaves the row exactly when it queues it. -/
theorem finish_DecodeStatus (d : Decoder) :
    d.finish.1.DecodeStatus = if d.finish.2 = [] then d.DecodeStatus else .CommandIdle := by
  unfold Decoder.finish
  split <;> simp [Decoder.idle]

/-- A token leaves the row exactly when it queues it. -/
theorem token_DecodeStatus (d : Decoder) (b : UInt8) :
    (d.token b).1.DecodeStatus =
      if (d.token b).2 = [] then d.DecodeStatus else .CommandIdle := by
  unfold Decoder.token
  cases d.LineDeCodeWrite with
  | UserDefineCommandHead =>
    simp only [Decoder.headByte]
    split
    next => simp
    next => exact finish_DecodeStatus _
  | UserDefineCommandData => exact finish_DecodeStatus _

/-- The row loop runs the reader until the row is queued or the packet is suspended, when it is
given a turn for every unread byte and one more. -/
theorem lineLoop_handled (n : Nat) (hb : s.InBuffer) (hf : s.command.ReturnFlag = false)
    (hs : s.command.DecodeStatus = .CommandLineStart)
    (hl : s.command.LineDecodeOneceFinshed = false) (hn : s.unread.length < n) :
    Handled s (lineLoop n s) := by
  induction n generalizing s with
  | zero => omega
  | succ n ih =>
    have hreact : s.decoder.react s.unread =
        Decoder.arg 2 1 (fun a => s.decoder.token (a.getD 0 0)) s.unread := by
      rw [Decoder.react, hs]
    simp only [lineLoop, hl, Bool.false_eq_true, if_false]
    rw [lineToken_eq hb]
    split
    next h2 =>
      have hr : s.decoder.react s.unread =
          some ((s.decoder.token (s.unread.getD 0 0)).1, s.unread.drop 1,
            (s.decoder.token (s.unread.getD 0 0)).2) := by
        have htake : (s.unread.take 1).getD 0 0 = s.unread.getD 0 0 := by
          simp [List.getD_eq_getElem?_getD]
        rw [hreact]
        exact Decoder.arg_eq_some.2 ⟨h2, by rw [htake], rfl, by rw [htake]⟩
      have hst := token_DecodeStatus s.decoder (s.unread.getD 0 0)
      generalize s.decoder.token (s.unread.getD 0 0) = r at hr hst ⊢
      have hran := Ran.of_react hb (show 1 ≤ s.unread.length by omega) hr
      have hrank := Decoder.react_rank hr
      by_cases he : r.2 = []
      · obtain ⟨es, hran', hend⟩ := ih
          (s := (s.apply r.1 1 r.2).setFinshed (s.command.LineDecodeOneceFinshed || !r.2.isEmpty))
          hran.inBuffer hf ((hst.trans (if_pos he)).trans hs) (by simp [setFinshed, hl, he])
          (by rw [setFinshed_unread, apply_unread, List.length_drop]; omega)
        refine ⟨_, hran.trans (hran'.setFinshed_left _), hend.imp (fun h => ⟨h.1, ?_⟩) id⟩
        have := h.2
        rw [setFinshed_decoder, setFinshed_unread, apply_decoder, apply_unread] at this
        omega
      · rw [lineLoop_finshed _ (by simp [setFinshed, he])]
        exact ⟨_, hran.setFinshed_right _, .inl ⟨hf, by simpa using hrank⟩⟩
    next h2 =>
      rw [lineLoop_finshed _ rfl]
      exact Handled.of_blocked hb (by simp [hs]) (hreact.trans (Decoder.arg_eq_none.2 (by omega)))

/-- Every handler but the one of block data runs the reader. -/
theorem handle_handled (hb : s.InBuffer) (hf : s.command.ReturnFlag = false)
    (hs : s.command.DecodeStatus ≠ .CommandZipData) : Handled s s.handle := by
  by_cases hl : s.command.DecodeStatus = .CommandLineStart
  · obtain ⟨es, hran, hend⟩ := lineLoop_handled (s := s.setFinshed false)
      (s.command.TotalLength + 2) hb hf hl rfl (by simp; omega)
    rw [handle, hl]
    exact ⟨es, hran.setFinshed_left _, hend⟩
  · by_cases hm : s.command.DecodeStatus ∈ CMDHead.map Prod.fst
    · exact handle_arg hb hf hl hm
    · have hscan : s.handle = s.IdleProces ∧
          s.decoder.react s.unread = s.decoder.scan s.unread := by
        cases h : s.command.DecodeStatus <;> simp_all [handle, Decoder.react, CMDHead]
      rw [hscan.1]
      exact handle_scan hb hf hs hscan.2

/-! ### Block data -/

/-- The reaction of the block data once the block is allocated. -/
theorem react_fetch {d : Decoder} {u z : List UInt8} (hs : d.DecodeStatus = .CommandZipData)
    (hz : d.zipData = some z) :
    d.react u =
      if d.Write < z.length ∧ d.Write + 1 < d.ZipSize then
        Decoder.arg 1 1
          (fun a => ({ d with zipData := some (z.set d.Write (a.getD 0 0)), Write := d.Write + 1 },
            [])) u
      else none := by
  simp only [Decoder.react, hs, Decoder.fetch, hz]

/-- The loop over the block data stores bytes as the reader does, up to the point where the reader
is blocked, and goes on from there. -/
theorem zipFetchLoop_reaches (left : Nat)
    (hb : s.InBuffer) (hf : s.command.ReturnFlag = false)
    (hs : s.command.DecodeStatus = .CommandZipData) (hz : s.command.zipData.isSome)
    (hl : left = s.command.ZipSize - s.command.Write) :
    ∃ s₁, Ran s s₁ [] ∧ parser.Blocked s₁.decoder s₁.unread ∧ s₁.command.ReturnFlag = false ∧
      s₁.command.DecodeStatus = .CommandZipData ∧
      ∀ entrance, zipFetchLoop entrance left s =
        zipFetchLoop entrance (s₁.command.ZipSize - s₁.command.Write) s₁ := by
  induction left generalizing s with
  | zero =>
    obtain ⟨z, hz⟩ := Option.isSome_iff_exists.1 hz
    refine ⟨s, Ran.refl hb, ?_, hf, hs, fun _ => by rw [← hl]⟩
    rw [Reader.Blocked]
    exact (react_fetch hs hz).trans (if_neg (by omega))
  | succ left ih =>
    obtain ⟨z, hz⟩ := Option.isSome_iff_exists.1 hz
    have hr := react_fetch (u := s.unread) hs hz
    by_cases hstore : s.command.Write < z.length ∧ s.command.Write + 1 < s.command.ZipSize
    · rw [if_pos hstore] at hr
      by_cases hu : 1 ≤ s.unread.length
      · have hr' := hr.trans (Decoder.arg_eq_some.2 ⟨hu, rfl, rfl, rfl⟩)
        have hran := Ran.of_react hb hu hr'
        obtain ⟨s₁, hran', hblk, hf', hs', heq⟩ := ih hran.inBuffer hf hs rfl
          (by simp only [apply]; omega)
        refine ⟨s₁, by simpa using hran.trans hran', hblk, hf', hs', ?_⟩
        intro entrance
        rw [← heq, zipFetchLoop, if_pos ((Command.ReadPos_add_le hb 1).2 hu), zipStore, hz,
          Option.getD_some, if_pos hstore.1]
        have hw : ¬ s.command.ZipSize ≤ s.command.Write + 1 := by omega
        simp [Bind.bind, Except.bind, hw, apply, Event.rows, Command.byteAt_eq,
          List.getD_eq_getElem?_getD]
      · exact ⟨s, Ran.refl hb, hr.trans (Decoder.arg_eq_none.2 (by omega)), hf, hs,
          fun _ => by rw [hl]⟩
    · exact ⟨s, Ran.refl hb, hr.trans (if_neg hstore), hf, hs, fun _ => by rw [hl]⟩

/-- The handler of the block data runs the reader to the point where it is blocked and goes on from
there. -/
theorem CommandZipFetchData_reaches (hb : s.InBuffer) (hf : s.command.ReturnFlag = false)
    (hs : s.command.DecodeStatus = .CommandZipData) :
    ∃ s₁, Ran s s₁ [] ∧ parser.Blocked s₁.decoder s₁.unread ∧ s₁.command.ReturnFlag = false ∧
      s₁.command.DecodeStatus = .CommandZipData ∧
      ∀ entrance, s.CommandZipFetchData entrance =
        zipFetchLoop entrance (s₁.command.ZipSize - s₁.command.Write) s₁ := by
  cases hz : s.command.zipData with
  | some z =>
    simp only [CommandZipFetchData, zipAlloc, hz]
    exact zipFetchLoop_reaches _ hb hf hs (by simp [hz]) rfl
  | none =>
    have hr : s.decoder.react s.unread = some
        ({ s.decoder with zipData := some (List.replicate s.command.ZipSize 0) },
          s.unread.drop 0, []) := by
      simp only [Decoder.react, hs, Decoder.fetch, hz]
      exact Decoder.arg_eq_some.2 ⟨Nat.zero_le _, rfl, rfl, rfl⟩
    have hran := Ran.of_react hb (Nat.zero_le _) hr
    obtain ⟨s₁, hran', hrest⟩ :=
      zipFetchLoop_reaches _ hran.inBuffer hf hs rfl rfl
    refine ⟨s₁, by simpa using hran.trans hran', ?_⟩
    simp only [CommandZipFetchData, zipAlloc, hz]
    simpa [apply, Event.rows] using hrest

/-- With room in the block and no byte unread, the packet is suspended. -/
theorem zipFetchLoop_waits (entrance : Printer → Except Halt Printer)
    (hb : s.InBuffer) (hw : s.command.Write < s.command.ZipSize) (hu : s.unread = []) :
    zipFetchLoop entrance (s.command.ZipSize - s.command.Write) s = .ok s.ReturnModle := by
  have hlen : ¬ 1 ≤ s.command.unread.length := by rw [show s.command.unread = [] from hu]; simp
  obtain ⟨left, hleft⟩ := Nat.exists_eq_add_of_lt hw
  rw [show s.command.ZipSize - s.command.Write = left + 1 by omega, zipFetchLoop,
    if_neg (fun h => hlen ((Command.ReadPos_add_le hb 1).1 h))]

/-! ## The loop -/

variable {env : Env}

@[simp] theorem PrintDataProcesser_returned (k : Nat) (h : s.command.ReturnFlag = true) :
    PrintDataProcesser env (k + 1) s = .ok s := by
  simp [PrintDataProcesser, h]

/-- One pass of the loop. -/
theorem PrintDataProcesser_succ (k : Nat) (h : s.command.ReturnFlag = false) :
    PrintDataProcesser env (k + 1) s =
      (s.dispatch (ZipDecodeEntrance env (PrintDataProcesser env k) k)).bind
        (PrintDataProcesser env k) := by
  simp [PrintDataProcesser, h, Bind.bind]

/-- The loop runs the reader until it is blocked. There it returns with the packet suspended,
unless the reader stands at a compressed block; then what is left is the rest of the pass over the
block data. -/
theorem PrintDataProcesser_reaches (env : Env) (hb : s.InBuffer)
    (hf : s.command.ReturnFlag = false) :
    ∃ s₁ es j, Ran s s₁ es ∧ parser.Blocked s₁.decoder s₁.unread ∧
      (s₁.Suspended ∧ ¬ s₁.decoder.AtBlock s₁.unread ∧
          (∀ k, PrintDataProcesser env (j + k) s = .ok s₁) ∨
        s₁.command.ReturnFlag = false ∧ s₁.decoder.AtBlock s₁.unread ∧
          ∀ k, PrintDataProcesser env (j + k + 1) s =
            (zipFetchLoop (ZipDecodeEntrance env (PrintDataProcesser env k) k)
              (s₁.command.ZipSize - s₁.command.Write) s₁).bind (PrintDataProcesser env k)) := by
  induction hn : s.decoder.rank s.unread using Nat.strongRecOn generalizing s with
  | ind n ih =>
    by_cases hs : s.command.DecodeStatus = .CommandZipData
    · obtain ⟨s₁, hran, hblk, hf₁, hs₁, heq⟩ := CommandZipFetchData_reaches hb hf hs
      have hpass : ∀ k, PrintDataProcesser env (k + 1) s =
          (zipFetchLoop (ZipDecodeEntrance env (PrintDataProcesser env k) k)
            (s₁.command.ZipSize - s₁.command.Write) s₁).bind (PrintDataProcesser env k) := by
        intro k
        rw [PrintDataProcesser_succ k hf, dispatch, if_pos hs, heq]
      by_cases hat : s₁.decoder.AtBlock s₁.unread
      · exact ⟨s₁, [], 0, hran, hblk, .inr ⟨hf₁, hat, fun k => by rw [Nat.zero_add, hpass]⟩⟩
      · have hwait : s₁.command.Write < s₁.command.ZipSize ∧ s₁.unread = [] := by
          simpa [Decoder.AtBlock, hs₁] using hat
        refine ⟨s₁.ReturnModle, [], 2, ?_, hblk, .inl ⟨ReturnModle_suspended, hat, ?_⟩⟩
        · simpa using hran.trans (Ran.returnModle hran.inBuffer)
        · intro k
          rw [show 2 + k = k + 1 + 1 by omega, hpass,
            zipFetchLoop_waits _ hran.inBuffer hwait.1 hwait.2]
          exact PrintDataProcesser_returned k rfl
    · obtain ⟨es, hran, hend⟩ := handle_handled hb hf hs
      have hpass : ∀ k, PrintDataProcesser env (k + 1) s = PrintDataProcesser env k s.handle := by
        intro k
        rw [PrintDataProcesser_succ k hf, dispatch, if_neg hs]
        rfl
      rcases hend with ⟨hf', hrank⟩ | ⟨hsus, hblk, hne⟩
      · obtain ⟨s₁, es₁, j, hran₁, hblk₁, hend₁⟩ := ih _ (hn ▸ hrank) hran.inBuffer hf' rfl
        refine ⟨s₁, es ++ es₁, j + 1, hran.trans hran₁, hblk₁, ?_⟩
        rcases hend₁ with ⟨h₁, h₂, h₃⟩ | ⟨h₁, h₂, h₃⟩
        · refine .inl ⟨h₁, h₂, ?_⟩
          intro k
          rw [show j + 1 + k = j + k + 1 by omega, hpass, h₃]
        · refine .inr ⟨h₁, h₂, ?_⟩
          intro k
          rw [show j + 1 + k + 1 = j + k + 1 + 1 by omega, hpass, h₃]
      · refine ⟨s.handle, es, 2, hran, hblk, .inl ⟨hsus, fun h => hne h.1, ?_⟩⟩
        intro k
        rw [show 2 + k = k + 1 + 1 by omega, hpass, PrintDataProcesser_returned k hsus.ReturnFlag]

end Printer

end ThermalPrinter
