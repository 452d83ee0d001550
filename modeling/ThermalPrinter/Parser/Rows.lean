import ThermalPrinter.Parser.Framing

/-!
# A row as its handler decodes it

`CommandSetLineStart` is a loop over the bytes of a row that ends when the row is queued. On the
tokens of a row it queues the row that they stand for, and it never writes to the dot matrix outside
the bytes of a row, whatever it reads.
-/

namespace ThermalPrinter

namespace Printer

/-! ## What the loop writes -/

/-- The dots that the dot loop of a run writes. -/
def fillWrites (Dots : Nat) : Nat → List Nat
  | 0 => []
  | LineDots + 1 => if Dots < 576 then Dots :: fillWrites (Dots + 1) LineDots else []

/-- The dots that a turn of the loop of `CommandSetLineStart` writes. -/
def tokenWrites (s : Printer) : List Nat :=
  if s.command.ReadPos + 1 < s.command.TotalLength then
    match s.command.LineDeCodeWrite with
    | .UserDefineCommandHead =>
      if s.command.byteAt 0 &&& 0x80 = 0 ∧ s.command.byteAt 0 &&& 0x7f ≠ 0 ∧
          s.command.Dots < 576 then [s.command.Dots]
      else []
    | .UserDefineCommandData =>
      if s.command.DotValue then fillWrites s.command.Dots ((s.command.byteAt 0).toNat + 1) else []
  else []

/-- The dots `i` for which the loop executes `DotsMatric[i/8]|=Cmp[i%8]`, in order. -/
def lineWrites : Nat → Printer → List Nat
  | 0, _ => []
  | n + 1, s =>
    if s.command.LineDecodeOneceFinshed then [] else s.tokenWrites ++ lineWrites n s.lineToken

/-- The dots that `CommandSetLineStart` writes. -/
def lineStartWrites (s : Printer) : List Nat :=
  lineWrites (s.command.TotalLength + 2)
    { s with command := { s.command with LineDecodeOneceFinshed := false } }

variable {s : Printer} {m : List UInt8} {Dots n i : Nat}

theorem fillDots_eq : fillDots m Dots n = (fillWrites Dots n).foldl setDot m := by
  induction n generalizing m Dots with
  | zero => rfl
  | succ n ih =>
    rw [fillDots, fillWrites]
    split
    · rw [ih, List.foldl_cons]
    · rfl

theorem fillWrites_lt (hi : i ∈ fillWrites Dots n) : i < 576 := by
  induction n generalizing Dots with
  | zero => nomatch hi
  | succ n ih =>
    rw [fillWrites] at hi
    split at hi
    · obtain rfl | hi := List.mem_cons.1 hi
      · assumption
      · exact ih hi
    · nomatch hi

@[simp] theorem finishLine_DotsMatric : s.finishLine.command.DotsMatric = s.command.DotsMatric := by
  rw [finishLine]
  split <;> rfl

/-- A turn of the loop writes its dots. -/
theorem lineToken_DotsMatric :
    s.lineToken.command.DotsMatric = s.tokenWrites.foldl setDot s.command.DotsMatric := by
  rw [lineToken, tokenWrites]
  cases s.command.LineDeCodeWrite with
  | UserDefineCommandHead =>
    simp only [lineCommandHead]
    split
    · split
      · next hrun => rw [if_neg fun h => hrun h.1]; rfl
      · next hdot =>
        rw [finishLine_DotsMatric]
        have hzero : s.command.byteAt 0 &&& 0x80 = 0 := by simpa using hdot
        simp only [hzero, true_and]
        split <;> rfl
    · rfl
  | UserDefineCommandData =>
    simp only [lineCommandData]
    split
    · rw [finishLine_DotsMatric]
      dsimp only
      split
      · exact fillDots_eq
      · rfl
    · rfl

theorem tokenWrites_lt (hi : i ∈ s.tokenWrites) : i < 576 := by
  rw [tokenWrites] at hi
  split at hi
  · split at hi
    · split at hi
      · next h =>
        rw [List.mem_singleton.1 hi]
        exact h.2.2
      · nomatch hi
    · split at hi
      · exact fillWrites_lt hi
      · nomatch hi
  · nomatch hi

/-- **The loop writes inside the row**, and nothing else than these dots. -/
theorem lineLoop_writes :
    (lineLoop n s).command.DotsMatric = (lineWrites n s).foldl setDot s.command.DotsMatric ∧
      ∀ i ∈ lineWrites n s, i < 576 := by
  induction n generalizing s with
  | zero => exact ⟨rfl, fun i hi => absurd hi List.not_mem_nil⟩
  | succ n ih =>
    rw [lineLoop, lineWrites]
    split
    · exact ⟨rfl, fun i hi => absurd hi List.not_mem_nil⟩
    · obtain ⟨hmatrix, hlt⟩ := ih (s := s.lineToken)
      rw [hmatrix, lineToken_DotsMatric, List.foldl_append]
      refine ⟨rfl, ?_⟩
      intro i hi
      obtain hi | hi := List.mem_append.1 hi
      · exact tokenWrites_lt hi
      · exact hlt i hi

/-- The scan clears the bytes of a row and leaves the others alone. -/
theorem IdleProces_DotsMatric :
    s.IdleProces.command.DotsMatric.drop PrintlineBytes =
      s.command.DotsMatric.drop PrintlineBytes := by
  rw [IdleProces]
  split
  · dsimp only
    split
    · exact List.drop_left' (List.length_replicate ..)
    · rfl
  · split <;> rfl

/-! ## What the loop reads -/

variable {d d' : Decoder} {P use use' : Nat} {ds : List Bool} {v : List UInt8} {b : UInt8}
  {es es' : List Event} {row : List Token}

/-- Reactions one after another, up to the flag `LineDecodeOneceFinshed`. -/
theorem apply_apply (f : Bool) :
    (((s.apply d use es).setFinshed false).apply d' use' es').setFinshed f =
      (s.apply d' (use + use') (es ++ es')).setFinshed f := by
  simp only [apply, setFinshed, rows_append, List.append_assoc, Nat.add_assoc]

/-- A turn of the loop reads a byte if another one follows it. -/
theorem lineLoop_turn (hb : s.InBuffer) (hfin : s.command.LineDecodeOneceFinshed = false)
    (hunread : s.unread = b :: v) (hv : v ≠ []) :
    lineLoop (n + 1) s = lineLoop n ((s.apply (s.decoder.token b).1 1
      (s.decoder.token b).2).setFinshed (!(s.decoder.token b).2.isEmpty)) := by
  have hlen : 2 ≤ s.unread.length := by
    have := List.length_pos_iff.2 hv
    rw [hunread, List.length_cons]
    omega
  have hget : s.unread.getD 0 0 = b := by rw [hunread]; rfl
  rw [lineLoop, if_neg (by simp [hfin]), lineToken_eq hb, if_pos hlen, hget, hfin,
    Bool.false_or]

/-- **The loop on a token**: as long as the row is not full it goes on behind the token. -/
theorem lineLoop_token (hb : s.InBuffer) (hfin : s.command.LineDecodeOneceFinshed = false)
    (hd : s.decoder.Filled P ds) (hlt : ds.length < 576)
    (hw : s.decoder.LineDeCodeWrite = .UserDefineCommandHead) (t : Token)
    (hunread : s.unread = t.bytes ++ v) (hv : v ≠ []) :
    ∃ d₁ : Decoder, d₁.Filled P (ds ++ t.dots) ∧ d₁.LineDeCodeWrite = .UserDefineCommandHead ∧
      lineLoop (n + t.bytes.length) s =
        lineLoop n ((s.apply d₁.finish.1 t.bytes.length d₁.finish.2).setFinshed
          (!d₁.finish.2.isEmpty)) := by
  cases t with
  | dot gray hgray =>
    obtain ⟨d₁, hd₁, hw₁, htoken⟩ := hd.token_dot hlt hw hgray
    refine ⟨d₁, hd₁, hw₁, ?_⟩
    rw [← htoken]
    exact lineLoop_turn hb hfin hunread hv
  | run gray count hgray =>
    obtain ⟨d₀, d₁, hs₀, hd₁, hw₁, hhead, hdata⟩ := hd.token_run hw hgray
    refine ⟨d₁, hd₁, hw₁, ?_⟩
    have hfirst := lineLoop_turn (n := n + 1) hb hfin hunread (by simp)
    rw [hhead] at hfirst
    have hb₀ : (s.apply d₀ 1 []).InBuffer := hb.apply (by rw [hunread]; simp [Token.bytes])
    have hunread₀ : (s.apply d₀ 1 []).unread = count :: v := by
      rw [apply_unread, hunread]
      rfl
    have hsecond := lineLoop_turn (n := n) (s := (s.apply d₀ 1 []).setFinshed false) hb₀ rfl
      hunread₀ hv
    rw [setFinshed_decoder, apply_decoder, hdata, apply_apply] at hsecond
    exact hfirst.trans hsecond

/-- **The loop on a row**: it queues the row with its last token and ends there. -/
theorem lineLoop_row (ds : List Bool) (hb : s.InBuffer)
    (hfin : s.command.LineDecodeOneceFinshed = false) (hd : s.decoder.Filled P ds)
    (hw : s.decoder.LineDeCodeWrite = .UserDefineCommandHead)
    (hunread : s.unread = tokenBytes row ++ v) (hv : v ≠ [])
    (hlast : (ds ++ rowDots row.dropLast).length < LineDecodeDots)
    (hfull : LineDecodeDots ≤ (ds ++ rowDots row).length) (hn : (tokenBytes row).length ≤ n) :
    ∃ d', d'.DecodeStatus = .CommandIdle ∧
      lineLoop n s = (s.apply d' (tokenBytes row).length
        [.row ⟨Bitmap.pack PrintlineBytes ((ds ++ rowDots row).take LineDecodeDots), P⟩]).setFinshed
          true := by
  induction row generalizing s ds n with
  | nil =>
    exact absurd hfull (Nat.not_le.2 hlast)
  | cons t row ih =>
    have hbytes : tokenBytes (t :: row) = t.bytes ++ tokenBytes row := List.flatMap_cons
    have hdots : ds ++ rowDots (t :: row) = ds ++ t.dots ++ rowDots row := by simp [rowDots]
    have hlt : ds.length < 576 := by
      rw [List.length_append] at hlast
      exact Nat.lt_of_le_of_lt (Nat.le_add_right _ _) hlast
    rw [hbytes, List.length_append] at hn
    obtain ⟨k, rfl⟩ := Nat.exists_eq_add_of_le' (Nat.le_of_add_right_le hn)
    rw [hbytes, List.append_assoc] at hunread
    obtain ⟨d₁, hd₁, hw₁, hloop⟩ := lineLoop_token (n := k) hb hfin hd hlt hw t hunread
      (fun h => hv (List.append_eq_nil_iff.1 h).2)
    rw [hd₁.finish_eq] at hloop
    rw [hdots] at hfull ⊢
    cases row with
    | nil =>
      have hrow : ds ++ t.dots ++ rowDots [] = ds ++ t.dots := List.append_nil _
      rw [hrow] at hfull ⊢
      rw [if_pos hfull] at hloop
      refine ⟨d₁.idle, rfl, hloop.trans ?_⟩
      rw [lineLoop_finshed _ rfl, hbytes]
      simp [tokenBytes]
    | cons t' row =>
      have hlast' : (ds ++ t.dots ++ rowDots (t' :: row).dropLast).length < LineDecodeDots := by
        rw [List.dropLast_cons_cons] at hlast
        simpa [rowDots] using hlast
      have hnot : ¬ LineDecodeDots ≤ (ds ++ t.dots).length := by
        have hle :=
          (List.sublist_append_left (ds ++ t.dots) (rowDots (t' :: row).dropLast)).length_le
        exact Nat.not_le.2 (Nat.lt_of_le_of_lt hle hlast')
      rw [if_neg hnot] at hloop
      have hb₁ : (s.apply d₁ t.bytes.length []).InBuffer := by
        refine hb.apply ?_
        rw [hunread, List.length_append]
        exact Nat.le_add_right _ _
      have hunread₁ : (s.apply d₁ t.bytes.length []).unread = tokenBytes (t' :: row) ++ v := by
        rw [apply_unread, hunread, List.drop_left]
      obtain ⟨d', hidle, hrest⟩ := ih (n := k)
        (s := (s.apply d₁ t.bytes.length []).setFinshed false) _ hb₁ rfl hd₁ hw₁ hunread₁ hlast'
        hfull (by omega)
      refine ⟨d', hidle, hloop.trans (hrest.trans ?_)⟩
      rw [apply_apply, hbytes, List.length_append]
      rfl

end Printer

open Printer in
/-- **Row decoding undoes row encoding.** After the head `#<`, `CommandSetLineStart` queues the row
whose dots the tokens stand for, of 72 bytes with dot `i` in bit `7 - i % 8` of byte `i / 8`, and
ends behind the last token, idle. Whatever it reads, every byte of the dot matrix it writes to is
one of the first 72, and so is every byte that the scan clears. -/
theorem row_decoded {s : Printer} {row : List Token} {dots : List Bool} {tail : List UInt8}
    (hidle : s.command.DecodeStatus = .CommandIdle)
    (hunread : s.unread = [0x23, 0x3C] ++ (tokenBytes row ++ tail)) (htail : tail ≠ [])
    (hlen : dots.length = 576) (hdots : dots <+: rowDots row)
    (hlast : (rowDots row.dropLast).length < 576) :
    (∃ data : List UInt8, data.length = 72 ∧
        (∀ i < 576, Bitmap.dot data i = dots.getD i false) ∧
        s.handle.CommandSetLineStart.PrintBLink =
          s.PrintBLink ++ [⟨data, s.command.PageNum⟩]) ∧
      s.handle.CommandSetLineStart.command.ReadPos =
        s.command.ReadPos + 2 + (tokenBytes row).length ∧
      s.handle.CommandSetLineStart.command.DecodeStatus = .CommandIdle ∧
      ∀ p : Printer, p.CommandSetLineStart.command.DotsMatric =
          p.lineStartWrites.foldl setDot p.command.DotsMatric ∧
        (∀ i ∈ p.lineStartWrites, i / 8 < 72) ∧
        p.IdleProces.command.DotsMatric.drop 72 = p.command.DotsMatric.drop 72 := by
  have hb : s.InBuffer := by
    have hne : 0 < s.unread.length := by
      rw [hunread]
      exact Nat.succ_pos _
    rw [Command.length_unread] at hne
    exact Nat.le_of_lt (Nat.lt_of_sub_pos hne)
  have hhead : s.handle = s.apply (s.decoder.enter .CommandLineStart) 2 [] := by
    have hfind : Decoder.findHead s.unread = some (.CommandLineStart, [0x23, 0x3C]) := by
      rw [hunread]
      exact Decoder.findHead_begins (h := (.CommandLineStart, [0x23, 0x3C])) (by decide)
        (fun h => htail (List.append_eq_nil_iff.1 h).2)
    rw [handle, hidle, IdleProces_eq hb, hfind]
    rfl
  have hfull : LineDecodeDots ≤ (rowDots row).length := by
    rw [LineDecodeDots, ← hlen]
    exact hdots.length_le
  have htake : (rowDots row).take LineDecodeDots = dots := by
    rw [LineDecodeDots, ← hlen]
    exact (List.prefix_iff_eq_take.1 hdots).symm
  have hb₁ : (s.apply (s.decoder.enter .CommandLineStart) 2 []).InBuffer := by
    refine hb.apply ?_
    rw [hunread]
    exact Nat.le_add_left _ _
  have hunread₁ : (s.apply (s.decoder.enter .CommandLineStart) 2 []).unread =
      tokenBytes row ++ tail := by
    rw [apply_unread, hunread]
    rfl
  have hlen₁ : (tokenBytes row).length ≤
      (s.apply (s.decoder.enter .CommandLineStart) 2 []).command.TotalLength + 2 := by
    have hle := congrArg List.length hunread₁
    rw [Command.length_unread, List.length_append] at hle
    omega
  obtain ⟨d', hidle', hloop⟩ := lineLoop_row
    (s := (s.apply (s.decoder.enter .CommandLineStart) 2 []).setFinshed false) []
    hb₁ rfl Decoder.filled_enter rfl hunread₁ htail hlast hfull hlen₁
  rw [List.nil_append, htake] at hloop
  have hrow : s.handle.CommandSetLineStart = _ := (congrArg CommandSetLineStart hhead).trans hloop
  rw [hrow]
  refine ⟨⟨Bitmap.pack PrintlineBytes dots, Bitmap.length_pack, fun i hi => Bitmap.dot_pack hi, ?_⟩,
    rfl, hidle', fun p => ?_⟩
  · simp [apply, setFinshed, Event.rows]
  · obtain ⟨hmatrix, hlt⟩ := lineLoop_writes (n := p.command.TotalLength + 2)
      (s := p.setFinshed false)
    exact ⟨hmatrix, fun i hi => Nat.div_lt_of_lt_mul (hlt i hi), IdleProces_DotsMatric⟩

/-- The first dots of a row, and the rest of it blank. -/
def headedRow : List Token :=
  [.run 0x81 63 (by decide), .run 0x80 255 (by decide), .run 0x80 255 (by decide)]

/-- A printer that has received such a row. -/
def headedRowReceived : Printer :=
  let s := Printer.init 1
  { s with command := { s.command with Buffer := rowBytes headedRow } }

open Printer in
theorem row_decoded_headedRow :
    (∃ data : List UInt8, data.length = 72 ∧
        (∀ i < 576, Bitmap.dot data i = (rowDots headedRow).getD i false) ∧
        headedRowReceived.handle.CommandSetLineStart.PrintBLink =
          headedRowReceived.PrintBLink ++ [⟨data, headedRowReceived.command.PageNum⟩]) ∧
      headedRowReceived.handle.CommandSetLineStart.command.ReadPos =
        headedRowReceived.command.ReadPos + 2 + (tokenBytes headedRow).length ∧
      headedRowReceived.handle.CommandSetLineStart.command.DecodeStatus = .CommandIdle ∧
      ∀ p : Printer, p.CommandSetLineStart.command.DotsMatric =
          p.lineStartWrites.foldl setDot p.command.DotsMatric ∧
        (∀ i ∈ p.lineStartWrites, i / 8 < 72) ∧
        p.IdleProces.command.DotsMatric.drop 72 = p.command.DotsMatric.drop 72 :=
  row_decoded rfl rfl (by simp) (by decide +kernel) (List.prefix_refl _)
    (by decide +kernel)

end ThermalPrinter
