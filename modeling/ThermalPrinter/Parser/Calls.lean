import ThermalPrinter.Lib.Pushdown
import ThermalPrinter.Parser.Packet
import ThermalPrinter.Parser.Pages

/-!
# The parser, interrupted

The timer interrupt takes rows from the queue at any moment, also while the data task is inside
`PrintDataManagement`. So here the task is a stack of calls (`Call`), with a step for each handler
that is run, each byte of a block that is stored, each call of `inflate` and each offer of a piece,
and between two steps rows may leave from the head of the queue (`Taken`).

A call that returns does what the uninterrupted function does, but for the queue and the number of
delays (`Run.returns`): the parser looks at the queue only to refuse a packet, and a refused piece
is offered again. So an interrupted packet is read like any other (`Returns.reads`).
-/

namespace ThermalPrinter

open Lookahead Relation

/-- The calls of the data task inside `PrintDataManagement`, each at the place where it goes on:
`PrintDataProcesser` at the top of its loop, `CommandZipFetchData` in its loop and behind its call
of `ZipDecodeEntrance`, `ZipDecodeEntrance` at its start and behind its call of `ZipDecode`,
`ZipDecode` before its next call of `inflate`, and the loop of `ZipDecode` that offers a piece until
`PrintDataManagement` accepts it. -/
inductive Call (z : Zlib)
  | PrintDataProcesser
  | zipFetchLoop (left : Nat)
  | zipFetched
  | ZipDecodeEntrance
  | ZipDecode (strm : z.z_stream) (total_out CurrentPos : Nat)
  | offer (data : List UInt8)
  | ZipDecoded (decoded : Bool)

namespace Printer

/-- The step of a call. A store outside the block that `malloc` returned has none. -/
def call (z : Zlib) : Call z → Printer → Option (Printer × List (Call z))
  | .PrintDataProcesser, s =>
    if s.command.ReturnFlag then some (s, [])
    else if s.command.DecodeStatus = .CommandZipData then
      some (s.zipAlloc,
        [.zipFetchLoop (s.command.ZipSize - s.command.Write), .PrintDataProcesser])
    else some (s.handle, [.PrintDataProcesser])
  | .zipFetchLoop 0, s => some (s, [])
  | .zipFetchLoop (left + 1), s =>
    if s.command.ReadPos + 1 ≤ s.command.TotalLength then
      match s.zipStore with
      | .error _ => none
      | .ok s =>
        if s.command.Write ≥ s.command.ZipSize then some (s, [.ZipDecodeEntrance, .zipFetched])
        else some (s, [.zipFetchLoop left])
    else some (s.ReturnModle, [])
  | .zipFetched, s => some ({ s with command := { s.command with Write := 0 } }, [])
  | .ZipDecodeEntrance, s =>
    let zipData := s.command.zipData.getD []
    let ZipSize := s.command.ZipSize
    let s := { s with command := { s.command with DecodeStatus := .CommandIdle } }.ReturnModle
    match z.inflateInit2 (zipData.take ZipSize) with
    | none => some (s, [.ZipDecoded false])
    | some strm => some (s, [.ZipDecode strm 0 0])
  | .ZipDecode strm total_out CurrentPos, s =>
    let (ret, produced, strm) := z.inflate strm DecodeMaxBytes
    let s := { s with out := produced ++ s.out.drop produced.length }
    if ret.isError then some (s, [.ZipDecoded false])
    else
      let total_out := total_out + produced.length
      let CurrentPos := total_out - CurrentPos
      some (s, [.offer (s.out.take CurrentPos),
        if DecodeMaxBytes - produced.length = 0 then .ZipDecode strm total_out total_out
        else .ZipDecoded true])
  | .offer data, s =>
    if s.PrintBLink.length < PrintLinkedListCount then
      some (s.realloc data, [.PrintDataProcesser])
    else some ({ s with delays := s.delays + 1 }, [.offer data])
  | .ZipDecoded decoded, s =>
    let s : Printer :=
      if decoded then s else { s with command := { s.command with DecodeStatus := .CommandIdle } }
    some ({ s with command := { s.command with zipData := none } }, [])

/-- The data task. -/
def dataTask (z : Zlib) : Pushdown.Task Printer (Call z) := ⟨call z⟩

/-- Rows leave from the head of the queue. -/
def Taken (s s' : Printer) : Prop := ∃ n, s' = s.takeRows n

/-! ## The queue is not looked at -/

/-- The printers agree but for the queued rows and the number of delays. -/
def Agree (s t : Printer) : Prop := ∃ rows delays, t = s.waited rows delays

section

variable {s s' t : Printer} {f : Printer → Printer}

theorem Agree.refl : Agree s s := ⟨s.PrintBLink, s.delays, rfl⟩

theorem Agree.trans (h₁ : Agree s s') (h₂ : Agree s' t) : Agree s t := by
  obtain ⟨_, _, rfl⟩ := h₁
  obtain ⟨rows, delays, rfl⟩ := h₂
  exact ⟨rows, delays, rfl⟩

/-- Rows that leave the queue make no difference. -/
theorem Agree.taken (h : Agree s t) (hints : ReflTransGen Taken s s') : Agree s' t := by
  induction hints with
  | refl => exact h
  | tail _ hlast ih =>
    obtain ⟨n, rfl⟩ := hlast
    exact Agree.trans ⟨_, _, rfl⟩ ih

/-- What does not look at the queue and at the delays keeps the agreement. -/
theorem Agree.map (hf : ∀ s rows delays, Agree (f s) (f (s.waited rows delays)))
    (h : Agree s t) : Agree (f s) (f t) := by
  obtain ⟨rows, delays, rfl⟩ := h
  exact hf s rows delays

theorem agree_finishLine (s : Printer) (rows : List LinkedListData) (delays : Nat) :
    Agree s.finishLine (s.waited rows delays).finishLine := by
  unfold finishLine waited
  dsimp only
  split <;> exact ⟨_, _, rfl⟩

theorem agree_lineToken (s : Printer) (rows : List LinkedListData) (delays : Nat) :
    Agree s.lineToken (s.waited rows delays).lineToken := by
  have hfinish (s t : Printer) (h : Agree s t) : Agree s.finishLine t.finishLine :=
    h.map agree_finishLine
  unfold lineToken lineCommandHead lineCommandData waited
  dsimp only
  split
  · split
    · split
      · exact ⟨_, _, rfl⟩
      · exact Agree.map (f := fun s => { s with command :=
          { s.command with ReadPos := s.command.ReadPos + 1 } })
          (fun _ _ _ => ⟨_, _, rfl⟩) (hfinish _ _ ⟨_, _, rfl⟩)
    · exact ⟨_, _, rfl⟩
  · split
    · exact Agree.map (f := fun s => { s with command :=
        { s.command with LineDeCodeWrite := .UserDefineCommandHead } })
        (fun _ _ _ => ⟨_, _, rfl⟩) (hfinish _ _ ⟨_, _, rfl⟩)
    · exact ⟨_, _, rfl⟩

theorem agree_lineLoop (n : Nat) (h : Agree s t) : Agree (lineLoop n s) (lineLoop n t) := by
  induction n generalizing s t with
  | zero => exact h
  | succ n ih =>
    have hfinshed : t.command.LineDecodeOneceFinshed = s.command.LineDecodeOneceFinshed := by
      obtain ⟨rows, delays, rfl⟩ := h
      rfl
    unfold lineLoop
    rw [hfinshed]
    split
    · exact h
    · exact ih (h.map agree_lineToken)

theorem agree_IdleProces (s : Printer) (rows : List LinkedListData) (delays : Nat) :
    Agree s.IdleProces (s.waited rows delays).IdleProces := by
  unfold IdleProces waited
  dsimp only
  split
  · split <;> exact ⟨_, _, rfl⟩
  · split <;> exact ⟨_, _, rfl⟩

/-- No handler looks at the queue. -/
theorem agree_handle (s : Printer) (rows : List LinkedListData) (delays : Nat) :
    Agree s.handle (s.waited rows delays).handle := by
  unfold handle
  rw [show (s.waited rows delays).command = s.command from rfl]
  cases s.command.DecodeStatus with
  | CommandSpeed =>
    unfold CommandSetSpeed waited
    dsimp only
    split <;> exact ⟨_, _, rfl⟩
  | CommandDensity =>
    unfold CommandSetDensity waited
    dsimp only
    split <;> exact ⟨_, _, rfl⟩
  | CommandPaperType =>
    unfold CommandSetPaperType waited
    dsimp only
    split <;> exact ⟨_, _, rfl⟩
  | CommandPageStart | CommandLineEnd | CommandPageEnd => exact ⟨_, _, rfl⟩
  | CommandLineStart => exact agree_lineLoop _ ⟨_, _, rfl⟩
  | CommandZipStart =>
    unfold CommandZipSize waited
    dsimp only
    split <;> exact ⟨_, _, rfl⟩
  | commandNVSWiFi =>
    unfold CommandNVSWiFi waited
    dsimp only
    split <;> exact ⟨_, _, rfl⟩
  | commandSetBTName =>
    unfold CommandSetBTName waited
    dsimp only
    split <;> exact ⟨_, _, rfl⟩
  | commandSetPID =>
    unfold CommandSetPID waited
    dsimp only
    split <;> exact ⟨_, _, rfl⟩
  | CommandTotalNum | CommandZipCheck | CommandZipData | CommandNVSPID | CommandIdle =>
    exact agree_IdleProces s rows delays

end

/-! ## A call that returns -/

section

variable {env : Env} {s s' t : Printer} {n m : Nat} {calls : List (Call env.zlib)}
  {f : Nat → Printer → Except Halt Printer}

/-- The calls return in so many steps and interrupts. -/
def Returns (z : Zlib) (n : Nat) (s : Printer) (calls : List (Call z)) (s' : Printer) : Prop :=
  (dataTask z).Run Taken n s calls s' []

/-- With enough fuel the function gives a printer that agrees with `s'`. -/
def Gives (f : Nat → Printer → Except Halt Printer) (t s' : Printer) : Prop :=
  ∃ t' N, Agree s' t' ∧ ∀ k, N ≤ k → f k t = .ok t'

/-- What `PrintDataProcesser` does in so many steps and interrupts, the uninterrupted function
does. -/
def Sound (env : Env) (n : Nat) : Prop :=
  ∀ s t s', Agree s t → Returns env.zlib n s [.PrintDataProcesser] s' →
    Gives (PrintDataProcesser env) t s'

/-- The call on top makes its step in a printer that agrees with the one before. -/
theorem Returns.top {call : Call env.zlib} (h : Returns env.zlib n s (call :: calls) s')
    (hagree : Agree s t) :
    ∃ m s₀ s₁ new, m < n ∧ Agree s₀ t ∧ Printer.call env.zlib call s₀ = some (s₁, new) ∧
      Returns env.zlib m s₁ (new ++ calls) s' := by
  obtain ⟨m, s₀, s₁, new, hm, hints, hstep, hrest⟩ := Pushdown.Task.Run.top h
  exact ⟨m, s₀, s₁, new, hm, hagree.taken hints, hstep, hrest⟩

/-- After the last call has returned, the printers agree. -/
theorem Returns.agree (h : Returns env.zlib n s [] s') (hagree : Agree s t) : Agree s' t :=
  hagree.taken (Pushdown.Task.Run.returned h).2

/-- An offer that returns has handed the piece to the parser loop. -/
theorem Returns.offered {data : List UInt8} (h : Returns env.zlib n s [.offer data] s')
    (hagree : Agree s t) :
    ∃ m s₁, m < n ∧ Agree s₁ t ∧
      Returns env.zlib m (s₁.realloc data) [.PrintDataProcesser] s' := by
  induction n using Nat.strongRecOn generalizing s with
  | ind n ih =>
    obtain ⟨m, s₀, s₁, new, hm, hagree₀, hstep, hrest⟩ := h.top hagree
    rw [Printer.call] at hstep
    split at hstep
    · cases hstep
      exact ⟨m, s₀, hm, hagree₀, hrest⟩
    · cases hstep
      have hdelay : Agree { s₀ with delays := s₀.delays + 1 } s₀ := ⟨_, _, rfl⟩
      obtain ⟨m', s₁, hm', hagree₁, hproc⟩ := ih m hm hrest (hdelay.trans hagree₀)
      exact ⟨m', s₁, Nat.lt_trans hm' hm, hagree₁, hproc⟩

/-- The offers of a piece. -/
theorem Sound.offer (hfair : env.Fair) (hsound : ∀ m < n, Sound env m) {data : List UInt8}
    (h : Returns env.zlib n s [.offer data] s') (hagree : Agree s t) :
    ∃ t' N, Agree s' t' ∧ ∀ k fuel, N ≤ k → N ≤ fuel →
      Printer.offer env (PrintDataProcesser env k) data fuel t = .ok t' := by
  obtain ⟨m, s₁, hm, hagree₁, hproc⟩ := h.offered hagree
  obtain ⟨rows, delays, i, hi⟩ := offer_accepts hfair t
  have hrealloc : Agree (s₁.realloc data) ((t.waited rows delays).realloc data) :=
    Agree.map (f := realloc data) (fun _ _ _ => ⟨_, _, rfl⟩) (hagree₁.trans ⟨_, _, rfl⟩)
  obtain ⟨t', N, hagree', hN⟩ := hsound m hm _ _ _ hrealloc hproc
  refine ⟨t', N + i + 1, hagree', fun k fuel hk hfuel => ?_⟩
  obtain ⟨j, rfl⟩ := Nat.exists_eq_add_of_le hfuel
  rw [show N + i + 1 + j = i + (N + j) + 1 by omega, hi]
  exact hN k (by omega)

/-- The end of `ZipDecodeEntrance`. -/
def endDecode (decoded : Bool) (s : Printer) : Printer :=
  let s : Printer :=
    if decoded then s else { s with command := { s.command with DecodeStatus := .CommandIdle } }
  { s with command := { s.command with zipData := none } }

theorem agree_endDecode (decoded : Bool) (h : Agree s t) :
    Agree (s.endDecode decoded) (t.endDecode decoded) := by
  cases decoded with
  | true => exact h.map (f := endDecode true) fun _ _ _ => ⟨_, _, rfl⟩
  | false => exact h.map (f := endDecode false) fun _ _ _ => ⟨_, _, rfl⟩

/-- `ZipDecodeEntrance` returns. -/
theorem Returns.decoded {decoded : Bool} (h : Returns env.zlib n s [.ZipDecoded decoded] s')
    (hagree : Agree s t) : Agree s' (t.endDecode decoded) := by
  obtain ⟨m, s₀, s₁, new, -, hagree₀, hstep, hrest⟩ := h.top hagree
  rw [Printer.call] at hstep
  cases hstep
  exact hrest.agree (agree_endDecode decoded hagree₀)

/-- The step of `ZipDecode` with an error of `inflate`. -/
theorem call_ZipDecode_error {z : Zlib} {strm : z.z_stream} (total : Nat)
    (hret : z.fails strm = true) :
    Printer.call z (.ZipDecode strm total total) s =
      some (s.draw (z.piece strm), [.ZipDecoded false]) := by
  rw [Printer.call]
  exact if_pos hret

/-- The step of `ZipDecode` without an error: the piece is offered. -/
theorem call_ZipDecode {z : Zlib} {strm : z.z_stream} (total : Nat)
    (hret : z.fails strm = false) :
    Printer.call z (.ZipDecode strm total total) s =
      some (s.draw (z.piece strm), [.offer (z.piece strm),
        if DecodeMaxBytes - (z.piece strm).length = 0 then
          .ZipDecode (z.next strm) (total + (z.piece strm).length) (total + (z.piece strm).length)
        else .ZipDecoded true]) := by
  unfold Zlib.fails at hret
  unfold Zlib.piece Zlib.next draw
  rw [Printer.call]
  simp only [hret, Bool.false_eq_true, if_false, Nat.add_sub_cancel_left, List.take_left']

/-- The decode loop, up to the end of `ZipDecodeEntrance`. -/
theorem Sound.zipLoop (hfair : env.Fair) (hsound : ∀ m < n, Sound env m)
    {strm : env.zlib.z_stream} {total : Nat} (hm : m ≤ n)
    (h : Returns env.zlib m s [.ZipDecode strm total total] s') (hagree : Agree s t) :
    ∃ decoded t' N, Agree s' (t'.endDecode decoded) ∧ ∀ k turns, N ≤ k → N ≤ turns →
      Printer.zipLoop env (PrintDataProcesser env k) k turns strm total total t =
        .ok (decoded, t') := by
  induction m using Nat.strongRecOn generalizing s t strm total with
  | ind m ih =>
    obtain ⟨m₁, s₀, s₁, new, hm₁, hagree₀, hstep, hrest⟩ := h.top hagree
    have hdraw : Agree (s₀.draw (env.zlib.piece strm)) (t.draw (env.zlib.piece strm)) :=
      Agree.map (f := (draw · (env.zlib.piece strm))) (fun _ _ _ => ⟨_, _, rfl⟩) hagree₀
    cases hret : env.zlib.fails strm with
    | true =>
      rw [call_ZipDecode_error total hret] at hstep
      cases hstep
      refine ⟨false, _, 1, hrest.decoded hdraw, fun k turns _ hturns => ?_⟩
      obtain ⟨turns, rfl⟩ : ∃ i, turns = i + 1 := ⟨turns - 1, by omega⟩
      exact zipLoop_error _ _ _ _ hret
    | false =>
      rw [call_ZipDecode total hret] at hstep
      cases hstep
      -- the offer returns first, then the rest of the loop
      obtain ⟨i, j, s₂, hij, hoffer, hrest⟩ := Pushdown.Task.Run.split [_] hrest
      obtain ⟨t₂, N, hagree₂, hN⟩ :=
        Sound.offer hfair (fun k hk => hsound k (by omega)) hoffer hdraw
      by_cases hfull : DecodeMaxBytes - (env.zlib.piece strm).length = 0
      · rw [if_pos hfull] at hrest
        obtain ⟨decoded, t', N', hagree', hN'⟩ := ih j (by omega) (by omega) hrest hagree₂
        refine ⟨decoded, t', N + N' + 1, hagree', fun k turns hk hturns => ?_⟩
        obtain ⟨turns, rfl⟩ : ∃ i, turns = i + 1 := ⟨turns - 1, by omega⟩
        rw [zipLoop_turn _ _ _ _ hret]
        refine bind_eq_ok.2 ⟨t₂, hN k k (by omega) (by omega), ?_⟩
        rw [if_pos hfull]
        exact hN' k turns (by omega) (by omega)
      · rw [if_neg hfull] at hrest
        have hend : Returns env.zlib j s₂ [.ZipDecoded true] s' := hrest
        refine ⟨true, t₂, N + 1, hend.decoded hagree₂, fun k turns hk hturns => ?_⟩
        obtain ⟨turns, rfl⟩ : ∃ i, turns = i + 1 := ⟨turns - 1, by omega⟩
        rw [zipLoop_turn _ _ _ _ hret]
        refine bind_eq_ok.2 ⟨t₂, hN k k (by omega) (by omega), ?_⟩
        rw [if_neg hfull]

/-- The entrance of the decode loop. -/
theorem Sound.ZipDecodeEntrance (hfair : env.Fair) (hsound : ∀ m < n, Sound env m) (hm : m ≤ n)
    (h : Returns env.zlib m s [.ZipDecodeEntrance] s') (hagree : Agree s t) :
    Gives (fun k => Printer.ZipDecodeEntrance env (PrintDataProcesser env k) k) t s' := by
  obtain ⟨m₁, s₀, s₁, new, hm₁, hagree₀, hstep, hrest⟩ := h.top hagree
  obtain ⟨rows, delays, rfl⟩ := hagree₀
  have hbegin : Agree
      { s₀ with command := { s₀.command with DecodeStatus := .CommandIdle } }.ReturnModle
      { s₀.waited rows delays with command :=
        { s₀.command with DecodeStatus := .CommandIdle } }.ReturnModle := ⟨_, _, rfl⟩
  rw [Printer.call] at hstep
  dsimp only at hstep
  cases hinit : env.zlib.inflateInit2
      ((s₀.command.zipData.getD []).take s₀.command.ZipSize) with
  | none =>
    rw [hinit] at hstep
    cases hstep
    refine ⟨_, 0, hrest.decoded hbegin, fun k _ => ?_⟩
    unfold Printer.ZipDecodeEntrance
    refine bind_eq_ok.2 ⟨(false, _), ?_, rfl⟩
    unfold ZipDecode
    rw [show (s₀.waited rows delays).command = s₀.command from rfl, hinit]
  | some strm =>
    rw [hinit] at hstep
    cases hstep
    obtain ⟨decoded, t', N, hagree', hN⟩ :=
      Sound.zipLoop hfair hsound (show m₁ ≤ n by omega) hrest hbegin
    refine ⟨_, N, hagree', fun k hk => ?_⟩
    unfold Printer.ZipDecodeEntrance
    refine bind_eq_ok.2 ⟨(decoded, t'), ?_, by cases decoded <;> rfl⟩
    unfold ZipDecode
    rw [show (s₀.waited rows delays).command = s₀.command from rfl, hinit]
    exact hN k k hk hk

theorem zipStore_waited (s : Printer) (rows : List LinkedListData) (delays : Nat) :
    (s.waited rows delays).zipStore = s.zipStore.map (·.waited rows delays) := by
  unfold zipStore waited
  dsimp only
  split <;> rfl

/-- The loop over the block data. -/
theorem Sound.zipFetchLoop (hfair : env.Fair) (hsound : ∀ m < n, Sound env m) {left : Nat}
    (hm : m ≤ n) (h : Returns env.zlib m s [.zipFetchLoop left] s') (hagree : Agree s t) :
    Gives (fun k => Printer.zipFetchLoop
      (Printer.ZipDecodeEntrance env (PrintDataProcesser env k) k) left) t s' := by
  induction left generalizing m s t with
  | zero =>
    obtain ⟨m₁, s₀, s₁, new, -, hagree₀, hstep, hrest⟩ := h.top hagree
    rw [Printer.call] at hstep
    cases hstep
    exact ⟨t, 0, hrest.agree hagree₀, fun _ _ => rfl⟩
  | succ left ih =>
    obtain ⟨m₁, s₀, s₁, new, hm₁, ⟨rows, delays, rfl⟩, hstep, hrest⟩ := h.top hagree
    have hcommand : (s₀.waited rows delays).command = s₀.command := rfl
    rw [Printer.call] at hstep
    split at hstep
    next hpos =>
      cases hstore : s₀.zipStore with
      | error => rw [hstore] at hstep; cases hstep
      | ok s₂ =>
        rw [hstore] at hstep
        dsimp only at hstep
        have hstore' : (s₀.waited rows delays).zipStore = .ok (s₂.waited rows delays) := by
          rw [zipStore_waited, hstore]
          rfl
        have hagree₂ : Agree s₂ (s₂.waited rows delays) := ⟨_, _, rfl⟩
        split at hstep
        next hlast =>
          cases hstep
          obtain ⟨i, j, s₃, hij, hentrance, hreset⟩ := Pushdown.Task.Run.split [_] hrest
          obtain ⟨t₃, N, hagree₃, hN⟩ :=
            Sound.ZipDecodeEntrance hfair hsound (show i ≤ n by omega) hentrance hagree₂
          obtain ⟨m₂, s₄, s₅, new, -, hagree₄, hstep, hrest⟩ := Returns.top hreset hagree₃
          rw [Printer.call] at hstep
          cases hstep
          have hreset : Agree { s₄ with command := { s₄.command with Write := 0 } }
              { t₃ with command := { t₃.command with Write := 0 } } :=
            Agree.map (f := fun s => { s with command := { s.command with Write := 0 } })
              (fun _ _ _ => ⟨_, _, rfl⟩) hagree₄
          refine ⟨_, N, hrest.agree hreset, fun k hk => ?_⟩
          change Printer.zipFetchLoop _ (left + 1) _ = _
          rw [Printer.zipFetchLoop, hcommand, if_pos hpos]
          refine bind_eq_ok.2 ⟨_, hstore', ?_⟩
          rw [show (s₁.waited rows delays).command = s₁.command from rfl, if_pos hlast]
          exact bind_eq_ok.2 ⟨t₃, hN k hk, rfl⟩
        next hlast =>
          cases hstep
          obtain ⟨t', N, hagree', hN⟩ := ih (show m₁ ≤ n by omega) hrest hagree₂
          refine ⟨t', N, hagree', fun k hk => ?_⟩
          change Printer.zipFetchLoop _ (left + 1) _ = _
          rw [Printer.zipFetchLoop, hcommand, if_pos hpos]
          refine bind_eq_ok.2 ⟨_, hstore', ?_⟩
          rw [show (s₁.waited rows delays).command = s₁.command from rfl, if_neg hlast]
          exact hN k hk
    next hpos =>
      cases hstep
      have hreturn : Agree s₀.ReturnModle (s₀.waited rows delays).ReturnModle := ⟨_, _, rfl⟩
      refine ⟨_, 0, hrest.agree hreturn, fun k _ => ?_⟩
      change Printer.zipFetchLoop _ (left + 1) _ = _
      rw [Printer.zipFetchLoop, hcommand, if_neg hpos]

/-- **An interrupted call of `PrintDataProcesser` does what the uninterrupted one does**, but for
the queue and the number of delays. -/
theorem Returns.gives (hfair : env.Fair) (n : Nat) : Sound env n := by
  induction n using Nat.strongRecOn with
  | ind n hsound =>
    intro s t s' hagree h
    obtain ⟨m, s₀, s₁, new, hm, ⟨rows, delays, rfl⟩, hstep, hrest⟩ := h.top hagree
    have hcommand : (s₀.waited rows delays).command = s₀.command := rfl
    -- what is left of the loop after a pass
    have hpass {s₁ t₁ : Printer} {m N : Nat} (hm : m < n) (hagree₁ : Agree s₁ t₁)
        (hN : ∀ k, N ≤ k → (s₀.waited rows delays).dispatch
          (Printer.ZipDecodeEntrance env (PrintDataProcesser env k) k) = .ok t₁)
        (hreturn : ¬ s₀.command.ReturnFlag = true)
        (hrest : Returns env.zlib m s₁ [.PrintDataProcesser] s') :
        Gives (PrintDataProcesser env) (s₀.waited rows delays) s' := by
      obtain ⟨t', N', hagree', hN'⟩ := hsound m hm _ _ _ hagree₁ hrest
      refine ⟨t', N + N' + 1, hagree', fun k hk => ?_⟩
      obtain ⟨k, rfl⟩ : ∃ i, k = i + 1 := ⟨k - 1, by omega⟩
      rw [PrintDataProcesser, hcommand, if_neg hreturn]
      exact bind_eq_ok.2 ⟨t₁, hN k (by omega), hN' k (by omega)⟩
    rw [Printer.call] at hstep
    split at hstep
    next hreturn =>
      cases hstep
      refine ⟨s₀.waited rows delays, 1, hrest.agree ⟨_, _, rfl⟩, fun k hk => ?_⟩
      obtain ⟨k, rfl⟩ : ∃ i, k = i + 1 := ⟨k - 1, by omega⟩
      rw [PrintDataProcesser, hcommand, if_pos hreturn]
    next hreturn =>
      split at hstep
      next hzip =>
        cases hstep
        obtain ⟨i, j, s₂, hij, hfetch, hloop⟩ := Pushdown.Task.Run.split [_] hrest
        have halloc : Agree s₀.zipAlloc (s₀.waited rows delays).zipAlloc := by
          unfold zipAlloc
          rw [hcommand]
          split <;> exact ⟨_, _, rfl⟩
        obtain ⟨t₂, N, hagree₂, hN⟩ :=
          Sound.zipFetchLoop hfair hsound (show i ≤ n by omega) hfetch halloc
        refine hpass (show j < n by omega) hagree₂ (N := N) (fun k hk => ?_) hreturn hloop
        rw [dispatch, hcommand, if_pos hzip]
        exact hN k hk
      next hzip =>
        cases hstep
        refine hpass hm (agree_handle s₀ rows delays) (N := 0) (fun k _ => ?_) hreturn hrest
        rw [dispatch, hcommand, if_neg hzip]

end

/-! ## What an interrupted packet does -/

section

variable {env : Env} {s s' s₁ : Printer} {n : Nat} {data : List UInt8}

/-- **An interrupted packet is read like any other.** -/
theorem Returns.reads (hfair : env.Fair) (hfin : env.zlib.Finite) (ht : s.decoder.Tidy)
    (hagree : Agree s₁ s)
    (h : Returns env.zlib n (s₁.realloc data) [.PrintDataProcesser] s') :
    ∃ es, Reads env.zlib s.decoder (s.remainder ++ data) es s'.decoder s'.remainder ∧
      s'.log = s.log ++ es ∧ s'.decoder.Tidy := by
  -- the uninterrupted function takes the packet with the queue empty
  have hempty : Agree (s₁.realloc data) ((s.waited [] s.delays).realloc data) :=
    Agree.map (f := realloc data) (fun _ _ _ => ⟨_, _, rfl⟩) (hagree.trans ⟨_, _, rfl⟩)
  obtain ⟨t', N, hagree', hN⟩ := Returns.gives hfair n _ _ _ hempty h
  obtain ⟨rows, delays, rfl⟩ := hagree'
  have hfeed : feed env N data (s.waited [] s.delays) = .ok (true, s'.waited rows delays) := by
    rw [feed_room (show ([] : List LinkedListData).length < PrintLinkedListCount by decide),
      hN N (Nat.le_refl N)]
    rfl
  obtain ⟨es, hreads, hlog, ht'⟩ := feed_reads hfair hfin (s := s.waited [] s.delays) ht hfeed
  exact ⟨es, hreads, hlog, ht'⟩

/-- A pass of the parser loop outside a block. -/
theorem call_handle {z : Zlib} (hf : s.command.ReturnFlag = false)
    (hs : s.command.DecodeStatus ≠ .CommandZipData) :
    Printer.call z .PrintDataProcesser s = some (s.handle, [.PrintDataProcesser]) := by
  rw [Printer.call, if_neg (by simp [hf]), if_neg hs]

/-- The parser loop returns with the packet suspended. -/
theorem call_returned {z : Zlib} (hf : s.command.ReturnFlag = true) :
    Printer.call z .PrintDataProcesser s = some (s, []) := by
  rw [Printer.call, if_pos hf]

/-- What all calls but a pass of the parser loop outside a block leave alone. -/
structure Still (s s' : Printer) : Prop where
  log : s'.log = s.log
  PageNum : s'.command.PageNum = s.command.PageNum
  queue : s'.PrintBLink = s.PrintBLink
  DotsMatric : s'.command.DotsMatric = s.command.DotsMatric

/-- A step of a call is a pass of the parser loop, or executes nothing. -/
theorem call_cases {z : Zlib} {call : Call z} {new : List (Call z)} (hb : s.InBuffer)
    (h : Printer.call z call s = some (s', new)) :
    (∃ es, Ran s s' es) ∨ s'.InBuffer ∧ Still s s' := by
  have hsame {s' : Printer} (hb' : s'.InBuffer) (hstill : Still s s') :
      (∃ es, Ran s s' es) ∨ s'.InBuffer ∧ Still s s' := .inr ⟨hb', hstill⟩
  cases call with
  | PrintDataProcesser =>
    rw [Printer.call] at h
    split at h
    · cases h
      exact hsame hb ⟨rfl, rfl, rfl, rfl⟩
    · next hreturn =>
      split at h
      · cases h
        unfold zipAlloc
        split
        · exact hsame hb ⟨rfl, rfl, rfl, rfl⟩
        · exact hsame hb ⟨rfl, rfl, rfl, rfl⟩
      · next hzip =>
        cases h
        obtain ⟨es, hran, -⟩ := handle_handled hb (by simpa using hreturn) hzip
        exact .inl ⟨es, hran⟩
  | zipFetchLoop left =>
    cases left with
    | zero =>
      cases h
      exact hsame hb ⟨rfl, rfl, rfl, rfl⟩
    | succ left =>
      rw [Printer.call] at h
      split at h
      · next hpos =>
        unfold zipStore at h
        dsimp only at h
        split at h
        · cases h
        · next hstore =>
          split at hstore
          · cases hstore
            split at h
            · cases h
              exact hsame hpos ⟨rfl, rfl, rfl, rfl⟩
            · cases h
              exact hsame hpos ⟨rfl, rfl, rfl, rfl⟩
          · cases hstore
      · cases h
        exact hsame hb ⟨rfl, rfl, rfl, rfl⟩
  | zipFetched =>
    cases h
    exact hsame hb ⟨rfl, rfl, rfl, rfl⟩
  | ZipDecodeEntrance =>
    rw [Printer.call] at h
    dsimp only at h
    split at h
    · cases h
      exact hsame hb ⟨rfl, rfl, rfl, rfl⟩
    · cases h
      exact hsame hb ⟨rfl, rfl, rfl, rfl⟩
  | ZipDecode strm total_out CurrentPos =>
    rw [Printer.call] at h
    dsimp only at h
    split at h
    · cases h
      exact hsame hb ⟨rfl, rfl, rfl, rfl⟩
    · cases h
      exact hsame hb ⟨rfl, rfl, rfl, rfl⟩
  | offer data =>
    rw [Printer.call] at h
    split at h
    · cases h
      exact hsame (Nat.zero_le _) ⟨rfl, rfl, rfl, rfl⟩
    · cases h
      exact hsame hb ⟨rfl, rfl, rfl, rfl⟩
  | ZipDecoded decoded =>
    cases decoded with
    | true =>
      cases h
      exact hsame hb ⟨rfl, rfl, rfl, rfl⟩
    | false =>
      cases h
      exact hsame hb ⟨rfl, rfl, rfl, rfl⟩

/-- A step of a call executes commands. -/
theorem call_adds {z : Zlib} {call : Call z} {new : List (Call z)} (hb : s.InBuffer)
    (h : Printer.call z call s = some (s', new)) : s'.InBuffer ∧ ∃ es, Adds s s' es := by
  rcases call_cases hb h with ⟨es, hran⟩ | ⟨hb', hstill⟩
  · exact ⟨hran.inBuffer, es, hran.adds⟩
  · exact ⟨hb', [], .of_eq hstill.log hstill.PageNum (hstill.queue ▸ List.suffix_rfl)⟩

end

end Printer

end ThermalPrinter
