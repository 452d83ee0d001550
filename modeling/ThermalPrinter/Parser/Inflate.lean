import ThermalPrinter.Parser.Simulation

/-!
# Inflating a block from inside the parser

`ZipDecode` hands the output of `inflate` to `PrintDataManagement` piece by piece. Here is what that
does in terms of the reader: the pieces are packets fed to the reader from the state in which the
block was completed, after the bytes that followed the block in its packet (`zipLoop_feeds`), as
long as the reader does not come to another compressed block on the way (`Calm`). If it does, the
call gives no result (`zipLoop_not_calm`).
-/

namespace ThermalPrinter

open Lookahead

namespace Zlib

/-- The next call of `inflate` fails. -/
def fails (z : Zlib) (strm : z.z_stream) : Bool := (z.inflate strm DecodeMaxBytes).1.isError

/-- What the next call of `inflate` puts into the output buffer. -/
def piece (z : Zlib) (strm : z.z_stream) : List UInt8 := (z.inflate strm DecodeMaxBytes).2.1

/-- The stream after the next call of `inflate`. -/
def next (z : Zlib) (strm : z.z_stream) : z.z_stream := (z.inflate strm DecodeMaxBytes).2.2

/-- The pieces that `ZipDecode` draws from a stream, and whether they end the stream (`true`) or an
error of `inflate` does. -/
inductive Output (z : Zlib) : z.z_stream → List (List UInt8) → Bool → Prop
  | error {strm : z.z_stream} : z.fails strm = true → Output z strm [] false
  | last {strm : z.z_stream} :
      z.fails strm = false → (z.piece strm).length < DecodeMaxBytes →
      Output z strm [z.piece strm] true
  | more {strm : z.z_stream} {pieces : List (List UInt8)} {ended : Bool} :
      z.fails strm = false → (z.piece strm).length = DecodeMaxBytes →
      Output z (z.next strm) pieces ended → Output z strm (z.piece strm :: pieces) ended

/-- The pieces of a stream are determined. -/
theorem Output.unique {z : Zlib} {strm : z.z_stream} {ps qs : List (List UInt8)} {b c : Bool}
    (h₁ : z.Output strm ps b) (h₂ : z.Output strm qs c) : ps = qs ∧ b = c := by
  induction h₁ generalizing qs c with
  | error he =>
    cases h₂ with
    | error => exact ⟨rfl, rfl⟩
    | last hf => rw [he] at hf; cases hf
    | more hf => rw [he] at hf; cases hf
  | last hf hl =>
    cases h₂ with
    | error he => rw [hf] at he; cases he
    | last => exact ⟨rfl, rfl⟩
    | more _ hm => omega
  | more hf hm _ ih =>
    cases h₂ with
    | error he => rw [hf] at he; cases he
    | last _ hl => omega
    | more _ _ hrest =>
      obtain ⟨rfl, rfl⟩ := ih hrest
      exact ⟨rfl, rfl⟩

/-- A stream that ends gives out at least one piece. -/
theorem Output.ne_nil {z : Zlib} {strm : z.z_stream} {pieces : List (List UInt8)}
    (h : z.Output strm pieces true) : pieces ≠ [] := by
  cases h <;> exact List.cons_ne_nil _ _

/-- zlib gives out finitely many pieces, whatever the data. -/
def Finite (z : Zlib) : Prop :=
  ∀ data strm, z.inflateInit2 data = some strm → ∃ pieces ended, z.Output strm pieces ended

end Zlib

/-! ## The block of the decoder -/

namespace Decoder

variable {d d' : Decoder} {u u' : List UInt8} {es : List Event} {z : Option (List UInt8)}
  {w n : Nat}

/-- The decoder with another block. -/
def setZip (d : Decoder) (z : Option (List UInt8)) (w n : Nat) : Decoder :=
  { d with zipData := z, Write := w, ZipSize := n }

/-- The end of a token does not look at the block. -/
theorem setZip_finish : (d.setZip z w n).finish = (d.finish.1.setZip z w n, d.finish.2) := by
  unfold finish setZip
  split <;> rfl

/-- A token does not look at the block. -/
theorem setZip_token (b : UInt8) :
    (d.setZip z w n).token b = ((d.token b).1.setZip z w n, (d.token b).2) := by
  unfold token
  rw [show (d.setZip z w n).LineDeCodeWrite = d.LineDeCodeWrite from rfl]
  cases d.LineDeCodeWrite with
  | UserDefineCommandHead =>
    simp only [headByte]
    split
    · rfl
    · exact setZip_finish (d := { d with
        DotsMatric :=
          if b &&& 0x7f ≠ 0 ∧ d.Dots < 576 then Printer.setDot d.DotsMatric d.Dots
          else d.DotsMatric
        Dots := d.Dots + 1 })
  | UserDefineCommandData =>
    exact congrArg (fun r : Decoder × List Event =>
      ({ r.1 with LineDeCodeWrite := .UserDefineCommandHead }, r.2))
      (setZip_finish (d := { d with
        DotsMatric :=
          if d.DotValue then Printer.fillDots d.DotsMatric d.Dots (b.toNat + 1) else d.DotsMatric
        Dots := d.Dots + (b.toNat + 1) }))

/-- Outside a block no reaction looks at the block. -/
theorem react_setZip (hs : d.DecodeStatus ≠ .CommandZipStart)
    (hd : d.DecodeStatus ≠ .CommandZipData) :
    (d.setZip z w n).react u = (d.react u).map fun r => (r.1.setZip z w n, r.2) := by
  have harg : ∀ {need use : Nat} {f g : List UInt8 → Decoder × List Event},
      (∀ a, g a = ((f a).1.setZip z w n, (f a).2)) →
      arg need use g u = (arg need use f u).map fun r => (r.1.setZip z w n, r.2) := by
    intro need use f g hfg
    unfold arg
    split
    · simp [hfg]
    · rfl
  have hscan : (d.setZip z w n).scan u = (d.scan u).map fun r => (r.1.setZip z w n, r.2) := by
    unfold scan
    cases findHead u with
    | some h =>
      simp only [enter, Option.map_some]
      split <;> rfl
    | none => simp only; split <;> rfl
  have hst : (d.setZip z w n).DecodeStatus = d.DecodeStatus := rfl
  cases h : d.DecodeStatus
  case CommandZipStart => exact absurd h hs
  case CommandZipData => exact absurd h hd
  case CommandLineStart =>
    rw [react, react, hst, h]
    exact harg fun a => setZip_token _
  case CommandIdle | CommandTotalNum | CommandZipCheck | CommandNVSPID =>
    rw [react, react, hst, h]
    exact hscan
  all_goals
    rw [react, react, hst, h]
    exact harg fun a => rfl

/-- Only the states of a block touch the block. -/
theorem react_zipData (hd : d.DecodeStatus ≠ .CommandZipData)
    (h : d.react u = some (d', u', es)) : d'.zipData = d.zipData ∧ d'.Write = d.Write := by
  by_cases hs : d.DecodeStatus = .CommandZipStart
  · rw [react, hs] at h
    obtain ⟨-, rfl, -, -⟩ := arg_eq_some.1 h
    exact ⟨rfl, rfl⟩
  · have hself := react_setZip (u := u) (z := d.zipData) (w := d.Write) (n := d.ZipSize) hs hd
    rw [show d.setZip d.zipData d.Write d.ZipSize = d from rfl, h, Option.map_some,
      Option.some.injEq, Prod.mk.injEq] at hself
    exact ⟨by rw [hself.1]; rfl, by rw [hself.1]; rfl⟩

end Decoder

/-- The printing side keeps taking rows while the parser waits for room in the queue. -/
def Env.Fair (env : Env) : Prop := ∀ k, ∃ j, k ≤ j ∧ 0 < env.drain j

namespace Printer

variable {s s' : Printer} {env : Env} {es : List Event}

/-- What waiting for room in the queue leaves: fewer rows, and more delays counted. -/
def waited (s : Printer) (rows : List LinkedListData) (delays : Nat) : Printer :=
  { s with PrintBLink := rows, delays := delays }

/-- With room in the queue a piece is taken at once. -/
theorem offer_room (h : s.PrintBLink.length < PrintLinkedListCount)
    (process : Printer → Except Halt Printer) (data : List UInt8) (k : Nat) :
    offer env process data (k + 1) s = process (s.realloc data) := by
  rw [offer, PrintDataManagement, if_pos h]
  cases process (s.realloc data) <;> rfl

/-- With the queue full a piece is offered again after a delay. -/
theorem offer_full (h : ¬ s.PrintBLink.length < PrintLinkedListCount)
    (process : Printer → Except Halt Printer) (data : List UInt8) (k : Nat) :
    offer env process data (k + 1) s = offer env process data k (s.os_time_dly env) := by
  rw [offer, PrintDataManagement, if_neg h]
  rfl

/-- A piece that is refused is offered again until there is room in the queue, and is then taken
once. -/
theorem offer_accepts (hfair : env.Fair) (s : Printer) :
    ∃ rows delays m, ∀ process data k,
      offer env process data (m + k + 1) s = process ((s.waited rows delays).realloc data) := by
  -- a full queue gets shorter at the next delay in which a row is taken
  induction hq : s.PrintBLink.length using Nat.strongRecOn generalizing s with
  | ind q ih =>
    obtain ⟨j, hj, hdrain⟩ := hfair s.delays
    induction hw : j - s.delays generalizing s with
    | zero =>
      by_cases hroom : s.PrintBLink.length < PrintLinkedListCount
      · exact ⟨s.PrintBLink, s.delays, 0, fun process data k => by
          rw [Nat.zero_add, offer_room hroom]; rfl⟩
      · have hjs : j = s.delays := by omega
        subst hjs
        have hlt : (s.os_time_dly env).PrintBLink.length < q := by
          unfold PrintLinkedListCount at hroom
          simp only [os_time_dly, List.length_drop]
          omega
        obtain ⟨rows, delays, m, hm⟩ := ih _ hlt _ rfl
        exact ⟨rows, delays, m + 1, fun process data k => by
          rw [show m + 1 + k + 1 = m + k + 1 + 1 by omega, offer_full hroom, hm]; rfl⟩
    | succ w ihw =>
      by_cases hroom : s.PrintBLink.length < PrintLinkedListCount
      · exact ⟨s.PrintBLink, s.delays, 0, fun process data k => by
          rw [Nat.zero_add, offer_room hroom]; rfl⟩
      · have hle : (s.os_time_dly env).PrintBLink.length ≤ q := by
          simp only [os_time_dly, List.length_drop]
          omega
        have hstep : ∃ rows delays m, ∀ process data k,
            offer env process data (m + k + 1) (s.os_time_dly env) =
              process (((s.os_time_dly env).waited rows delays).realloc data) := by
          rcases Nat.lt_or_eq_of_le hle with hlt | heq
          · exact ih _ hlt _ rfl
          · exact ihw _ heq (by simp only [os_time_dly]; omega)
              (by simp only [os_time_dly]; omega)
        obtain ⟨rows, delays, m, hm⟩ := hstep
        exact ⟨rows, delays, m + 1, fun process data k => by
          rw [show m + 1 + k + 1 = m + k + 1 + 1 by omega, offer_full hroom, hm]; rfl⟩

/-! ## More fuel -/

/-- Every result of `f` is one of `g`. -/
def Below {α : Type} (f g : α → Except Halt Printer) : Prop := ∀ a r, f a = .ok r → g a = .ok r

section
variable {f g : Printer → Except Halt Printer} {n m : Nat}

/-- A computation that gives a result is a computation and a continuation that do. -/
theorem bind_eq_ok {α β : Type} {x : Except Halt α} {k : α → Except Halt β} {b : β} :
    (x >>= k) = .ok b ↔ ∃ a, x = .ok a ∧ k a = .ok b := by
  cases x <;> simp [Bind.bind, Except.bind]

theorem offer_mono (h : Below f g) (hn : n ≤ m) (data : List UInt8) :
    ∀ {s r : Printer}, offer env f data n s = .ok r → offer env g data m s = .ok r := by
  induction n generalizing m with
  | zero => intro s r hr; cases hr
  | succ n ih =>
    obtain ⟨m, rfl⟩ : ∃ m', m = m' + 1 := ⟨m - 1, by omega⟩
    intro s r hr
    by_cases hroom : s.PrintBLink.length < PrintLinkedListCount
    · rw [offer_room hroom] at hr ⊢
      exact h _ _ hr
    · rw [offer_full hroom] at hr ⊢
      exact ih (by omega) hr

/-- The output buffer after a piece was put at its start. -/
def draw (s : Printer) (piece : List UInt8) : Printer :=
  { s with out := piece ++ s.out.drop piece.length }

@[simp] theorem draw_decoder (piece : List UInt8) : (s.draw piece).decoder = s.decoder := rfl

@[simp] theorem draw_remainder (piece : List UInt8) : (s.draw piece).remainder = s.remainder := rfl

@[simp] theorem draw_log (piece : List UInt8) : (s.draw piece).log = s.log := rfl

/-- One turn of the decode loop without an error: the piece handed on is what `inflate` put into
the output buffer, and the loop goes on if that filled the buffer. -/
theorem zipLoop_turn (process : Printer → Except Halt Printer) (fuel turns total : Nat)
    {strm : env.zlib.z_stream} (hret : env.zlib.fails strm = false) :
    zipLoop env process fuel (turns + 1) strm total total s =
      offer env process (env.zlib.piece strm) fuel (s.draw (env.zlib.piece strm)) >>= fun s =>
        if DecodeMaxBytes - (env.zlib.piece strm).length = 0 then
          zipLoop env process fuel turns (env.zlib.next strm)
            (total + (env.zlib.piece strm).length) (total + (env.zlib.piece strm).length) s
        else .ok (true, s) := by
  unfold Zlib.fails at hret
  unfold Zlib.piece Zlib.next draw
  rw [zipLoop]
  simp only [hret, Bool.false_eq_true, if_false, Nat.add_sub_cancel_left, List.take_left']

/-- A turn of the decode loop with an error ends it. -/
theorem zipLoop_error (process : Printer → Except Halt Printer) (fuel turns total : Nat)
    {strm : env.zlib.z_stream} (hret : env.zlib.fails strm = true) :
    zipLoop env process fuel (turns + 1) strm total total s =
      .ok (false, s.draw (env.zlib.piece strm)) := by
  unfold Zlib.fails at hret
  unfold Zlib.piece draw
  rw [zipLoop]
  simp [hret]

theorem zipLoop_mono (h : Below f g) (hn : n ≤ m) :
    ∀ {t t' : Nat} {strm : env.zlib.z_stream} {total : Nat} {s : Printer} {r : Bool × Printer},
      t ≤ t' → zipLoop env f n t strm total total s = .ok r →
      zipLoop env g m t' strm total total s = .ok r := by
  intro t
  induction t with
  | zero => intro _ _ _ _ _ _ hr; cases hr
  | succ t ih =>
    intro t' strm total s r ht hr
    obtain ⟨t', rfl⟩ : ∃ t'', t' = t'' + 1 := ⟨t' - 1, by omega⟩
    cases hret : env.zlib.fails strm with
    | true =>
      rw [zipLoop_error _ _ _ _ hret] at hr ⊢
      exact hr
    | false =>
      rw [zipLoop_turn _ _ _ _ hret] at hr ⊢
      obtain ⟨s₁, h₁, h₂⟩ := bind_eq_ok.1 hr
      refine bind_eq_ok.2 ⟨s₁, offer_mono h hn _ h₁, ?_⟩
      split at h₂
      next hfull => rw [if_pos hfull]; exact ih (by omega) h₂
      next hfull => rw [if_neg hfull]; exact h₂

theorem ZipDecodeEntrance_mono (h : Below f g) (hn : n ≤ m) :
    Below (ZipDecodeEntrance env f n) (ZipDecodeEntrance env g m) := by
  intro s r hr
  unfold ZipDecodeEntrance at hr ⊢
  obtain ⟨q, h₁, h₂⟩ := bind_eq_ok.1 hr
  refine bind_eq_ok.2 ⟨q, ?_, h₂⟩
  unfold ZipDecode at h₁ ⊢
  split at h₁
  next => exact h₁
  next => exact zipLoop_mono h hn hn h₁

theorem zipFetchLoop_mono (h : Below f g) (left : Nat) :
    Below (zipFetchLoop f left) (zipFetchLoop g left) := by
  induction left with
  | zero => exact fun s r hr => hr
  | succ left ih =>
    intro s r hr
    unfold zipFetchLoop at hr ⊢
    split at hr
    next hpos =>
      rw [if_pos hpos]
      obtain ⟨s₁, h₁, h₂⟩ := bind_eq_ok.1 hr
      refine bind_eq_ok.2 ⟨s₁, h₁, ?_⟩
      split at h₂
      next hw =>
        rw [if_pos hw]
        obtain ⟨s₂, h₃, h₄⟩ := bind_eq_ok.1 h₂
        exact bind_eq_ok.2 ⟨s₂, h _ _ h₃, h₄⟩
      next hw => rw [if_neg hw]; exact ih _ _ h₂
    next hpos => rw [if_neg hpos]; exact hr

/-- **More fuel changes no result.** -/
theorem PrintDataProcesser_mono (hn : n ≤ m) :
    Below (PrintDataProcesser env n) (PrintDataProcesser env m) := by
  induction n generalizing m with
  | zero => intro s r hr; cases hr
  | succ n ih =>
    obtain ⟨m, rfl⟩ : ∃ m', m = m' + 1 := ⟨m - 1, by omega⟩
    intro s r hr
    cases hf : s.command.ReturnFlag with
    | true =>
      rw [PrintDataProcesser_returned n hf] at hr
      rw [PrintDataProcesser_returned m hf, hr]
    | false =>
      have hle : n ≤ m := by omega
      rw [PrintDataProcesser_succ n hf] at hr
      rw [PrintDataProcesser_succ m hf]
      obtain ⟨s₁, h₁, h₂⟩ := bind_eq_ok.1 hr
      refine bind_eq_ok.2 ⟨s₁, ?_, ih hle _ _ h₂⟩
      unfold dispatch at h₁ ⊢
      split at h₁
      next hz =>
        rw [if_pos hz]
        exact zipFetchLoop_mono (ZipDecodeEntrance_mono (ih hle) hle) _ _ _ h₁
      next hz => rw [if_neg hz]; exact h₁

end

/-! ## A call with one packet -/

section
variable {data : List UInt8} {n m : Nat}

/-- With room in the queue a packet is accepted. -/
theorem feed_room (h : s.PrintBLink.length < PrintLinkedListCount) (fuel : Nat) :
    feed env fuel data s = (PrintDataProcesser env fuel (s.realloc data)).map (true, ·) := by
  rw [feed, PrintDataManagement, if_pos h]

/-- With the queue full a packet is refused, and nothing changes. -/
theorem feed_refused (h : ¬ s.PrintBLink.length < PrintLinkedListCount) (fuel : Nat) :
    feed env fuel data s = .ok (false, s) := by
  rw [feed, PrintDataManagement, if_neg h]

/-- More fuel changes no result of a call. -/
theorem feed_mono (hn : n ≤ m) {r : Bool × Printer} (h : feed env n data s = .ok r) :
    feed env m data s = .ok r := by
  by_cases hroom : s.PrintBLink.length < PrintLinkedListCount
  · rw [feed_room hroom] at h ⊢
    cases hp : PrintDataProcesser env n (s.realloc data) with
    | error e => rw [hp] at h; cases h
    | ok q => rwa [PrintDataProcesser_mono hn _ _ hp, ← hp]
  · rw [feed_refused hroom] at h ⊢
    exact h

end

/-! ## Compressed blocks inside a compressed block -/

/-- The block is allocated and full: no store into it is inside it. -/
def Full (d : Decoder) : Prop := ∃ z, d.zipData = some z ∧ z.length ≤ d.Write

/-- A reaction leaves a full block full. -/
theorem react_full {d d' : Decoder} {u u' : List UInt8} (hd : Full d)
    (h : d.react u = some (d', u', es)) : Full d' := by
  obtain ⟨z, hz, hw⟩ := hd
  by_cases hs : d.DecodeStatus = .CommandZipData
  · rw [react_fetch hs hz, if_neg (fun h => Nat.not_lt.2 hw h.1)] at h
    cases h
  · obtain ⟨hz', hw'⟩ := Decoder.react_zipData hs h
    exact ⟨z, hz'.trans hz, hw' ▸ hw⟩

/-- A run of the reader leaves a full block full. -/
theorem steps_full {d d' : Decoder} {u u' : List UInt8} (hd : Full d)
    (h : parser.Steps d u es d' u') : Full d' := by
  induction h with
  | refl => exact hd
  | head h _ ih => exact ih (react_full hd h)

/-- A pass over block data with nothing left to store changes nothing: the loop spins for ever. -/
theorem PrintDataProcesser_spins (hf : s.command.ReturnFlag = false)
    (hs : s.command.DecodeStatus = .CommandZipData) (hz : s.command.zipData.isSome)
    (hw : s.command.ZipSize ≤ s.command.Write) (k : Nat) :
    PrintDataProcesser env k s = .error .fuel := by
  obtain ⟨z, hz⟩ := Option.isSome_iff_exists.1 hz
  induction k with
  | zero => rfl
  | succ k ih =>
    have hleft : s.command.ZipSize - s.command.Write = 0 := by omega
    rw [PrintDataProcesser_succ k hf, dispatch, if_pos hs]
    simp only [CommandZipFetchData, zipAlloc, hz, hleft, zipFetchLoop, Except.bind]
    exact ih

/-- The loop returns where the reader is blocked, unless the reader stands at a compressed block;
and it gives no result when that block is one that is full already. -/
theorem PrintDataProcesser_result (env : Env) (hb : s.InBuffer)
    (hf : s.command.ReturnFlag = false) :
    ∃ s₁ es, Ran s s₁ es ∧ parser.Blocked s₁.decoder s₁.unread ∧
      (¬ s₁.decoder.AtBlock s₁.unread →
        s₁.Suspended ∧ ∃ j, ∀ k, j ≤ k → PrintDataProcesser env k s = .ok s₁) ∧
      (s₁.decoder.AtBlock s₁.unread → Full s₁.decoder →
        ∀ k r, PrintDataProcesser env k s ≠ .ok r) := by
  obtain ⟨s₁, es, j, hran, hblk, hend⟩ := PrintDataProcesser_reaches env hb hf
  refine ⟨s₁, es, hran, hblk, ?_⟩
  rcases hend with ⟨hsus, hat, hrun⟩ | ⟨hf₁, hat, hrun⟩
  · refine ⟨fun _ => ⟨hsus, j, ?_⟩, fun h => absurd h hat⟩
    intro k hk
    obtain ⟨i, rfl⟩ := Nat.exists_eq_add_of_le hk
    exact hrun i
  · refine ⟨fun h => absurd hat h, fun _ ⟨z, hz, hw⟩ k r hr => ?_⟩
    have hmore := PrintDataProcesser_mono (show k ≤ j + k + 1 by omega) _ _ hr
    rw [hrun] at hmore
    by_cases hsize : s₁.command.ZipSize ≤ s₁.command.Write
    · rw [show s₁.command.ZipSize - s₁.command.Write = 0 by omega, zipFetchLoop, Except.bind,
        PrintDataProcesser_spins hf₁ hat.1 (by rw [hz]; rfl) hsize] at hmore
      cases hmore
    · have hu : 1 ≤ s₁.unread.length := by
        rcases hat.2 with h | h
        · exact absurd h hsize
        · exact List.length_pos_iff.2 h
      obtain ⟨left, hleft⟩ : ∃ left, s₁.command.ZipSize - s₁.command.Write = left + 1 :=
        ⟨s₁.command.ZipSize - s₁.command.Write - 1, by omega⟩
      rw [hleft, zipFetchLoop, if_pos ((Command.ReadPos_add_le hran.inBuffer 1).2 hu), zipStore,
        hz, Option.getD_some, if_neg (Nat.not_lt.2 hw)] at hmore
      cases hmore

/-! ## The pieces -/

/-- Fed the packets one after another, the reader does not come to a compressed block. -/
def Calm : Decoder → List UInt8 → List (List UInt8) → Prop
  | _, _, [] => True
  | d, u, p :: ps => ∀ es d' u', parser.Steps d (u ++ p) es d' u' → parser.Blocked d' u' →
      ¬ d'.AtBlock u' ∧ Calm d' u' ps

/-- A piece is fed to the reader once there is room in the queue. -/
theorem offer_result (hfair : env.Fair) (s : Printer) (data : List UInt8) :
    ∃ s' es, parser.Steps s.decoder (s.remainder ++ data) es s'.decoder s'.unread ∧
      parser.Blocked s'.decoder s'.unread ∧
      (¬ s'.decoder.AtBlock s'.unread →
        s'.Suspended ∧ s'.InBuffer ∧ s'.log = s.log ++ es ∧
          ∃ j, ∀ k fuel, j ≤ k → j ≤ fuel →
            offer env (PrintDataProcesser env k) data fuel s = .ok s') ∧
      (s'.decoder.AtBlock s'.unread → Full s.decoder →
        ∀ k fuel r, offer env (PrintDataProcesser env k) data fuel s ≠ .ok r) := by
  obtain ⟨rows, delays, m, hm⟩ := offer_accepts hfair s
  have hb : ((s.waited rows delays).realloc data).InBuffer := Nat.zero_le _
  obtain ⟨s', es, hran, hblk, hcalm, hfull⟩ := PrintDataProcesser_result env hb rfl
  refine ⟨s', es, hran.steps, hblk, ?_, ?_⟩
  · intro hat
    obtain ⟨hsus, j, hj⟩ := hcalm hat
    refine ⟨hsus, hran.inBuffer, hran.log, j + m + 1, ?_⟩
    intro k fuel hk hfuel
    obtain ⟨i, rfl⟩ := Nat.exists_eq_add_of_le hfuel
    rw [show j + m + 1 + i = m + (j + i) + 1 by omega, hm, hj k (by omega)]
  · intro hat hd k fuel r hr
    have hmore := offer_mono (fun _ _ h => h) (show fuel ≤ m + fuel + 1 by omega) data hr
    rw [hm] at hmore
    exact hfull hat (steps_full hd hran.steps) _ _ hmore

variable {strm : env.zlib.z_stream} {pieces : List (List UInt8)} {ended : Bool}

/-- **The decode loop feeds the pieces to the reader**, one after another, from the state it starts
in, as long as the reader comes to no other compressed block. -/
theorem zipLoop_feeds (hfair : env.Fair) (hout : env.zlib.Output strm pieces ended) :
    ∀ (total : Nat) {s : Printer}, Calm s.decoder s.remainder pieces → s.Suspended → s.InBuffer →
      ∃ s' es j, (∀ k fuel turns, j ≤ k → j ≤ fuel → j ≤ turns →
          zipLoop env (PrintDataProcesser env k) fuel turns strm total total s =
            .ok (ended, s')) ∧
        parser.Feeds s.decoder s.remainder pieces es s'.decoder s'.remainder ∧
        s'.log = s.log ++ es ∧ s'.Suspended ∧ s'.InBuffer := by
  induction hout with
  | @error strm hret =>
    intro total s _ hsus hb
    refine ⟨s.draw (env.zlib.piece strm), [], 1, ?_, .nil, by simp,
      ⟨hsus.ReturnFlag, hsus.remainder⟩, hb⟩
    intro k fuel turns _ _ hturns
    obtain ⟨turns, rfl⟩ : ∃ t, turns = t + 1 := ⟨turns - 1, by omega⟩
    exact zipLoop_error _ _ _ _ hret
  | @last strm hret hlen =>
    intro total s hcalm _ _
    obtain ⟨s', es, hsteps, hblk, hres, -⟩ :=
      offer_result hfair (s.draw (env.zlib.piece strm)) (env.zlib.piece strm)
    rw [draw_decoder, draw_remainder] at hsteps
    obtain ⟨hsus', hb', hlog, j, hj⟩ := hres (hcalm _ _ _ hsteps hblk).1
    rw [← hsus'.remainder_eq hb'] at hsteps hblk
    refine ⟨s', es, j + 1, ?_, by simpa using Reader.Feeds.cons hsteps hblk .nil, hlog, hsus', hb'⟩
    intro k fuel turns hk hfuel hturns
    obtain ⟨turns, rfl⟩ : ∃ t, turns = t + 1 := ⟨turns - 1, by omega⟩
    rw [zipLoop_turn _ _ _ _ hret]
    refine bind_eq_ok.2 ⟨s', hj k fuel (by omega) (by omega), ?_⟩
    rw [if_neg (by omega)]
  | @more strm pieces ended hret hlen hrest ih =>
    intro total s hcalm _ _
    obtain ⟨s₁, es, hsteps, hblk, hres, -⟩ :=
      offer_result hfair (s.draw (env.zlib.piece strm)) (env.zlib.piece strm)
    rw [draw_decoder, draw_remainder] at hsteps
    obtain ⟨hat, hcalm₁⟩ := hcalm _ _ _ hsteps hblk
    obtain ⟨hsus₁, hb₁, hlog, j, hj⟩ := hres hat
    rw [← hsus₁.remainder_eq hb₁] at hsteps hblk hcalm₁
    obtain ⟨s', es', j', hj', hfeeds, hlog', hsus', hb'⟩ := ih _ hcalm₁ hsus₁ hb₁
    refine ⟨s', es ++ es', j + j' + 1, ?_,
      .cons hsteps hblk hfeeds, by rw [hlog', hlog, List.append_assoc]; rfl, hsus', hb'⟩
    intro k fuel turns hk hfuel hturns
    obtain ⟨turns, rfl⟩ : ∃ t, turns = t + 1 := ⟨turns - 1, by omega⟩
    rw [zipLoop_turn _ _ _ _ hret]
    refine bind_eq_ok.2 ⟨s₁, hj k fuel (by omega) (by omega), ?_⟩
    rw [if_pos (by omega)]
    exact hj' k fuel turns (by omega) (by omega) (by omega)

/-- A loop that spends no turn gives no result. -/
theorem zipLoop_zero (process : Printer → Except Halt Printer) (fuel total : Nat)
    (r : Bool × Printer) : zipLoop env process fuel 0 strm total total s ≠ .ok r := by
  rw [zipLoop]
  exact fun h => by cases h

/-- If the reader comes to another compressed block while the pieces of a block are fed to it, the
decode loop gives no result: it spins or stores outside the block. -/
theorem zipLoop_not_calm (hfair : env.Fair) (hout : env.zlib.Output strm pieces ended) :
    ∀ (total : Nat) {s : Printer}, ¬ Calm s.decoder s.remainder pieces → Full s.decoder →
      ∀ k fuel turns r,
        zipLoop env (PrintDataProcesser env k) fuel turns strm total total s ≠ .ok r := by
  induction hout with
  | error => intro total s hcalm; exact absurd trivial hcalm
  | @last strm hret hlen =>
    intro total s hcalm hfull k fuel turns r hr
    cases turns with
    | zero => exact zipLoop_zero _ _ _ _ hr
    | succ turns =>
      obtain ⟨s', es, hsteps, hblk, hres, hstop⟩ :=
        offer_result hfair (s.draw (env.zlib.piece strm)) (env.zlib.piece strm)
      rw [zipLoop_turn _ _ _ _ hret] at hr
      obtain ⟨s₁, h₁, -⟩ := bind_eq_ok.1 hr
      by_cases hat : s'.decoder.AtBlock s'.unread
      · exact hstop hat hfull _ _ _ h₁
      · refine hcalm fun es' d' u' hsteps' hblk' => ⟨?_, trivial⟩
        obtain ⟨rfl, rfl, -⟩ := hsteps'.unique hblk' hsteps hblk
        exact hat
  | @more strm pieces ended hret hlen hrest ih =>
    intro total s hcalm hfull k fuel turns r hr
    cases turns with
    | zero => exact zipLoop_zero _ _ _ _ hr
    | succ turns =>
      obtain ⟨s', es, hsteps, hblk, hres, hstop⟩ :=
        offer_result hfair (s.draw (env.zlib.piece strm)) (env.zlib.piece strm)
      rw [zipLoop_turn _ _ _ _ hret] at hr
      obtain ⟨s₁, h₁, h₂⟩ := bind_eq_ok.1 hr
      by_cases hat : s'.decoder.AtBlock s'.unread
      · exact hstop hat hfull _ _ _ h₁
      · obtain ⟨hsus, hb, -, j, hj⟩ := hres hat
        -- the result of the offer is the state the reader was fed to
        have hsame : s₁ = s' := by
          have := offer_mono (m := j + fuel) (PrintDataProcesser_mono (show k ≤ j + k by omega))
            (by omega) _ h₁
          rw [hj (j + k) (j + fuel) (by omega) (by omega)] at this
          exact (Except.ok.inj this).symm
        subst hsame
        rw [if_pos (by omega)] at h₂
        rw [draw_decoder, draw_remainder] at hsteps
        refine ih _ (fun hcalm' => hcalm ?_) (steps_full hfull hsteps) _ _ _ _ h₂
        intro es' d' u' hsteps' hblk'
        obtain ⟨rfl, rfl, -⟩ := hsteps'.unique hblk' hsteps hblk
        rw [hsus.remainder_eq hb] at hcalm'
        exact ⟨hat, hcalm'⟩

end Printer

end ThermalPrinter
