import ThermalPrinter.Lib.Bitmap
import ThermalPrinter.Parser.Chunking

/-!
# The framing of a page

A page is sent as `@<`, its rows and `@>`; a row is sent as `#<`, the tokens of its dots and `#>`. A
token is a single dot or a run of equal dots. The row decoder queues the row with dot 576
(`LineDecodeDots`) and is idle again, so the tokens after that dot, which the driver for wider heads
sends as well, are scanned for command heads like any other bytes. A page comes out as its rows
exactly if no head occurs in them (`page_framed_iff`).
-/

namespace ThermalPrinter

open Lookahead

/-! ## Tokens -/

/-- A token of a row: a byte whose high bit is clear is a single dot; with the high bit set, the
next byte is the length of a run, less one. The other seven bits say whether the dots are set. -/
inductive Token
  | dot (gray : UInt8) (hgray : gray &&& 0x80 = 0)
  | run (gray count : UInt8) (hgray : gray &&& 0x80 ≠ 0)

namespace Token

/-- The bytes of a token. -/
def bytes : Token → List UInt8
  | dot gray _ => [gray]
  | run gray count _ => [gray, count]

/-- The dots of a token. -/
def dots : Token → List Bool
  | dot gray _ => [decide (gray &&& 0x7f ≠ 0)]
  | run gray count _ => List.replicate (count.toNat + 1) (decide (gray &&& 0x7f ≠ 0))

end Token

/-- The dots of a row. -/
def rowDots (row : List Token) : List Bool := row.flatMap Token.dots

/-- The bytes of tokens. -/
def tokenBytes (row : List Token) : List UInt8 := row.flatMap Token.bytes

/-- The tokens left over when a row that has `Dots` dots goes on and gets all it needs. -/
def surplus (Dots : Nat) : List Token → List Token
  | [] => []
  | t :: row =>
    if LineDecodeDots ≤ Dots + t.dots.length then row else surplus (Dots + t.dots.length) row

/-- A row as it is sent. -/
def rowBytes (row : List Token) : List UInt8 := [0x23, 0x3C] ++ tokenBytes row ++ [0x23, 0x3E]

/-- A page as it is sent. -/
def pageBytes (page : List (List Token)) : List UInt8 :=
  [0x40, 0x3C] ++ page.flatMap rowBytes ++ [0x40, 0x3E]

/-- The row that is queued: the first 576 dots, eight to a byte. -/
def rowData (PageNum : Nat) (row : List Token) : LinkedListData :=
  ⟨Bitmap.pack PrintlineBytes ((rowDots row).take LineDecodeDots), PageNum⟩

/-- What rows are meant to do. -/
def rowEvents (PageNum : Nat) (rows : List (List Token)) : List Event :=
  rows.flatMap fun row => [.row (rowData PageNum row), .lineEnd]

/-- What a page is meant to do. -/
def pageEvents (PageNum : Nat) (page : List (List Token)) : List Event :=
  [.pageStart] ++ rowEvents PageNum page ++ [.pageEnd (PageNum + 1)]

/-- No command head occurs in the bytes. -/
def Headless (u : List UInt8) : Prop := ∀ h ∈ CMDHead, ¬ h.2 <:+: u

instance (u : List UInt8) : Decidable (Headless u) := by unfold Headless; infer_instance

/-! ## The dots of a row -/

namespace Printer

variable {m : List UInt8} {Dots i n : Nat}

/-- A dot of the decoder is a dot of the bitmap. -/
theorem setDot_eq : setDot m i = Bitmap.set m i := by
  have hcmp : ∀ k < 8, Cmp.getD k 0 = Bitmap.byte fun j => j == k := by decide
  rw [setDot, hcmp _ (Nat.mod_lt _ (by decide))]
  rfl

@[simp] theorem length_fillDots : (fillDots m Dots n).length = m.length := by
  induction n generalizing m Dots with
  | zero => rfl
  | succ n ih =>
    unfold fillDots
    split
    · rw [ih, setDot_eq, Bitmap.length_set]
    · rfl

/-- A run sets its dots up to dot 576 and leaves the others alone. -/
theorem dot_fillDots (hm : PrintlineBytes ≤ m.length) :
    Bitmap.dot (fillDots m Dots n) i =
      (decide (Dots ≤ i ∧ i < Dots + n ∧ i < 576) || Bitmap.dot m i) := by
  unfold PrintlineBytes at hm
  induction n generalizing m Dots with
  | zero =>
    have : ¬ (Dots ≤ i ∧ i < Dots + 0 ∧ i < 576) := by omega
    rw [fillDots, decide_eq_false this, Bool.false_or]
  | succ n ih =>
    unfold fillDots
    split
    next hlt =>
      rw [setDot_eq, ih (by rwa [Bitmap.length_set]), Bitmap.dot_set (by omega), ← Bool.or_assoc]
      congr 1
      rw [Bool.eq_iff_iff, Bool.or_eq_true, decide_eq_true_iff, beq_iff_eq, decide_eq_true_iff]
      omega
    next hge =>
      have : ¬ (Dots ≤ i ∧ i < Dots + (n + 1) ∧ i < 576) := by omega
      rw [decide_eq_false this, Bool.false_or]

end Printer

/-! ## Reading a row -/

namespace Decoder

variable {d d' : Decoder} {P : Nat} {ds : List Bool} {u v : List UInt8} {es : List Event}

/-- The decoder is in a row of page `P` that has the dots `ds`; of these the bitmap holds the first
576. -/
structure Filled (d : Decoder) (P : Nat) (ds : List Bool) : Prop where
  DecodeStatus : d.DecodeStatus = .CommandLineStart
  Dots : d.Dots = ds.length
  length : PrintlineBytes ≤ d.DotsMatric.length
  dot : ∀ i < 576, Bitmap.dot d.DotsMatric i = ds.getD i false
  PageNum : d.PageNum = P

/-- The bitmap of a filled row is the row to be queued. -/
theorem Filled.take_eq (hd : d.Filled P ds) :
    d.DotsMatric.take PrintlineBytes = Bitmap.pack PrintlineBytes (ds.take LineDecodeDots) := by
  have hlen := hd.length
  have hbytes : (d.DotsMatric.take PrintlineBytes).length = PrintlineBytes := by
    rw [List.length_take]
    omega
  refine Bitmap.ext_dot (by rw [hbytes, Bitmap.length_pack]) ?_
  intro i hi
  rw [hbytes] at hi
  rw [Bitmap.dot_take hi, Bitmap.dot_pack hi, hd.dot i hi, List.getD_eq_getElem?_getD,
    List.getD_eq_getElem?_getD, List.getElem?_take_of_lt (show i < LineDecodeDots from hi)]

/-- The end of a token: a row with enough dots is queued. -/
theorem Filled.finish_eq (hd : d.Filled P ds) :
    d.finish =
      if LineDecodeDots ≤ ds.length then
        (d.idle, [.row ⟨Bitmap.pack PrintlineBytes (ds.take LineDecodeDots), P⟩])
      else (d, []) := by
  unfold finish
  rw [hd.Dots, hd.take_eq, hd.PageNum]

/-- A row goes on with equal dots. -/
theorem Filled.append (hd : d.Filled P ds) (b : Bool) (n : Nat) :
    { d with
      DotsMatric := if b then Printer.fillDots d.DotsMatric d.Dots n else d.DotsMatric
      Dots := d.Dots + n }.Filled P (ds ++ List.replicate n b) := by
  refine ⟨hd.DecodeStatus, ?_, ?_, ?_, hd.PageNum⟩
  · rw [List.length_append, List.length_replicate, hd.Dots]
  · have hlen : (if b then Printer.fillDots d.DotsMatric d.Dots n else d.DotsMatric).length =
        d.DotsMatric.length := by
      split
      · exact Printer.length_fillDots
      · rfl
    rw [hlen]
    exact hd.length
  · intro i hi
    have hfill : Bitmap.dot
        (if b then Printer.fillDots d.DotsMatric d.Dots n else d.DotsMatric) i =
          (decide (ds.length ≤ i ∧ i < ds.length + n) && b || ds.getD i false) := by
      cases b with
      | true =>
        have hiff : (ds.length ≤ i ∧ i < ds.length + n ∧ i < 576) ↔
            (ds.length ≤ i ∧ i < ds.length + n) := by omega
        rw [if_pos rfl, Printer.dot_fillDots hd.length, hd.Dots, hd.dot i hi, Bool.and_true]
        simp only [hiff]
      | false => rw [if_neg Bool.false_ne_true, hd.dot i hi, Bool.and_false, Bool.false_or]
    simp only [hfill, List.getD_eq_getElem?_getD]
    by_cases hlt : i < ds.length
    · rw [List.getElem?_append_left hlt, decide_eq_false (by omega), Bool.false_and, Bool.false_or]
    · rw [List.getElem?_append_right (Nat.not_lt.1 hlt), List.getElem?_eq_none (Nat.not_lt.1 hlt),
        Option.getD_none, Bool.or_false, List.getElem?_replicate]
      by_cases hn : i < ds.length + n
      · rw [decide_eq_true ⟨Nat.not_lt.1 hlt, hn⟩, if_pos (by omega), Bool.true_and,
          Option.getD_some]
      · rw [decide_eq_false (fun h => hn h.2), if_neg (by omega), Bool.false_and, Option.getD_none]

/-- One byte of a row is read. -/
theorem react_token {b : UInt8} (hs : d.DecodeStatus = .CommandLineStart) (hv : v ≠ []) :
    d.react (b :: v) = some ((d.token b).1, v, (d.token b).2) := by
  have hlen : 2 ≤ (b :: v).length := by
    have := List.length_pos_iff.2 hv
    rw [List.length_cons]
    omega
  rw [react, hs]
  exact arg_eq_some.2 ⟨hlen, rfl, rfl, rfl⟩

theorem Filled.setWrite (hd : d.Filled P ds) (w : LineWrite) :
    { d with LineDeCodeWrite := w }.Filled P ds :=
  ⟨hd.DecodeStatus, hd.Dots, hd.length, hd.dot, hd.PageNum⟩

/-- The first byte of a token. -/
theorem token_head {b : UInt8} (hw : d.LineDeCodeWrite = .UserDefineCommandHead) :
    d.token b = d.headByte b := by
  unfold token
  rw [hw]

/-- The count byte of a run. -/
theorem token_data {b : UInt8} (hw : d.LineDeCodeWrite = .UserDefineCommandData) :
    d.token b =
      { d with
        DotsMatric :=
          if d.DotValue then Printer.fillDots d.DotsMatric d.Dots (b.toNat + 1) else d.DotsMatric
        Dots := d.Dots + (b.toNat + 1)
        LineDeCodeWrite := .UserDefineCommandHead }.finish := by
  have hfinish (d : Decoder) (w : LineWrite) :
      { d with LineDeCodeWrite := w }.finish =
        ({ d.finish.1 with LineDeCodeWrite := w }, d.finish.2) := by
    unfold finish
    split <;> rfl
  unfold token
  rw [hw]
  exact (hfinish { d with
    DotsMatric :=
      if d.DotValue then Printer.fillDots d.DotsMatric d.Dots (b.toNat + 1) else d.DotsMatric
    Dots := d.Dots + (b.toNat + 1) } .UserDefineCommandHead).symm

/-- A single dot is added to the row. -/
theorem Filled.token_dot {gray : UInt8} (hd : d.Filled P ds) (hlt : ds.length < 576)
    (hw : d.LineDeCodeWrite = .UserDefineCommandHead) (hgray : gray &&& 0x80 = 0) :
    ∃ d₁ : Decoder, d₁.Filled P (ds ++ (Token.dot gray hgray).dots) ∧
      d₁.LineDeCodeWrite = .UserDefineCommandHead ∧ d.token gray = d₁.finish := by
  refine ⟨_, hd.append (decide (gray &&& 0x7f ≠ 0)) 1, hw, ?_⟩
  have hset : Printer.setDot d.DotsMatric d.Dots = Printer.fillDots d.DotsMatric d.Dots 1 := by
    rw [Printer.fillDots, if_pos (hd.Dots ▸ hlt), Printer.fillDots]
  have hmatrix : (if gray &&& 0x7f ≠ 0 ∧ d.Dots < 576 then Printer.setDot d.DotsMatric d.Dots
        else d.DotsMatric) =
      if decide (gray &&& 0x7f ≠ 0) then Printer.fillDots d.DotsMatric d.Dots 1
        else d.DotsMatric := by
    rw [hset]
    simp only [hd.Dots, hlt, and_true, decide_eq_true_iff]
  rw [token_head hw, headByte, if_neg (by simpa using hgray), hmatrix]

/-- A run is added to the row with its second byte. -/
theorem Filled.token_run {gray count : UInt8} (hd : d.Filled P ds)
    (hw : d.LineDeCodeWrite = .UserDefineCommandHead) (hgray : gray &&& 0x80 ≠ 0) :
    ∃ d₀ d₁ : Decoder, d₀.DecodeStatus = .CommandLineStart ∧
      d₁.Filled P (ds ++ (Token.run gray count hgray).dots) ∧
      d₁.LineDeCodeWrite = .UserDefineCommandHead ∧ d.token gray = (d₀, []) ∧
      d₀.token count = d₁.finish := by
  -- the decoder between the two bytes of the run
  let d₀ : Decoder :=
    { d with LineDeCodeWrite := .UserDefineCommandData, DotValue := gray &&& 0x7f ≠ 0 }
  have hd₀ : d₀.Filled P ds := ⟨hd.DecodeStatus, hd.Dots, hd.length, hd.dot, hd.PageNum⟩
  have hfilled := hd₀.append (decide (gray &&& 0x7f ≠ 0)) (count.toNat + 1)
  refine ⟨d₀, _, hd.DecodeStatus, hfilled.setWrite .UserDefineCommandHead, rfl, ?_, token_data rfl⟩
  rw [token_head hw, headByte, if_pos hgray]

/-- **A token is read**: its dots are added to the row. -/
theorem Filled.steps_token (hd : d.Filled P ds) (hlt : ds.length < 576)
    (hw : d.LineDeCodeWrite = .UserDefineCommandHead) (t : Token) (hv : v ≠ []) :
    ∃ d₁ : Decoder, d₁.Filled P (ds ++ t.dots) ∧
      d₁.LineDeCodeWrite = .UserDefineCommandHead ∧
      parser.Steps d (t.bytes ++ v) d₁.finish.2 d₁.finish.1 v := by
  cases t with
  | dot gray hgray =>
    obtain ⟨d₁, hd₁, hw₁, htoken⟩ := hd.token_dot hlt hw hgray
    refine ⟨d₁, hd₁, hw₁, .single ?_⟩
    rw [Token.bytes, List.singleton_append, parser_react, react_token hd.DecodeStatus hv, htoken]
  | run gray count hgray =>
    obtain ⟨d₀, d₁, hs₀, hd₁, hw₁, hhead, hdata⟩ := hd.token_run hw hgray
    refine ⟨d₁, hd₁, hw₁, ?_⟩
    have hfirst : parser.react d (gray :: count :: v) = some (d₀, count :: v, []) := by
      rw [parser_react, react_token hd.DecodeStatus (by simp), hhead]
    refine .head hfirst (.single ?_)
    rw [parser_react, react_token hs₀ hv, hdata]

/-- **A row is read**: it is queued as soon as it has its dots, and the decoder is idle before the
tokens left over. -/
theorem Filled.steps_row {row : List Token} (hd : d.Filled P ds) (hlt : ds.length < 576)
    (hw : d.LineDeCodeWrite = .UserDefineCommandHead)
    (henough : LineDecodeDots ≤ ds.length + (rowDots row).length) (hv : v ≠ []) :
    ∃ d' : Decoder, d'.DecodeStatus = .CommandIdle ∧ d'.PageNum = P ∧
      parser.Steps d (tokenBytes row ++ v)
        [.row ⟨Bitmap.pack PrintlineBytes ((ds ++ rowDots row).take LineDecodeDots), P⟩] d'
        (tokenBytes (surplus ds.length row) ++ v) := by
  induction row generalizing d ds with
  | nil =>
    have hnone : ¬ LineDecodeDots ≤ ds.length := Nat.not_le.2 hlt
    exact absurd henough hnone
  | cons t row ih =>
    obtain ⟨d₁, hd₁, hw₁, hsteps⟩ := hd.steps_token hlt hw t
      (show tokenBytes row ++ v ≠ [] from fun h => hv (List.append_eq_nil_iff.1 h).2)
    have hbytes : tokenBytes (t :: row) ++ v = t.bytes ++ (tokenBytes row ++ v) := by
      simp [tokenBytes]
    have hdots : ds ++ rowDots (t :: row) = ds ++ t.dots ++ rowDots row := by simp [rowDots]
    rw [hd₁.finish_eq, List.length_append] at hsteps
    rw [hbytes, hdots, surplus]
    by_cases hfull : LineDecodeDots ≤ ds.length + t.dots.length
    · rw [if_pos hfull] at hsteps ⊢
      refine ⟨d₁.idle, rfl, hd₁.PageNum, ?_⟩
      rw [List.take_append_of_le_length (by rwa [List.length_append])]
      exact hsteps
    · rw [if_neg hfull] at hsteps ⊢
      have henough' : LineDecodeDots ≤ (ds ++ t.dots).length + (rowDots row).length := by
        rw [← List.length_append, ← hdots, List.length_append]
        exact henough
      obtain ⟨d', hidle, hpage, hrest⟩ := ih hd₁
        (by rw [List.length_append]; exact Nat.not_le.1 hfull) hw₁ henough'
      rw [List.length_append] at hrest
      exact ⟨d', hidle, hpage, hsteps.trans hrest⟩

/-- A row that begins has no dots. -/
theorem filled_enter : (d.enter .CommandLineStart).Filled d.PageNum [] where
  DecodeStatus := rfl
  Dots := rfl
  length := by
    simp only [enter, if_true, List.length_append, List.length_replicate]
    exact Nat.le_add_right _ _
  dot := fun i hi => Bitmap.dot_replicate_append hi
  PageNum := rfl

/-! ## The scan -/

theorem scanning_of_idle (hd : d.DecodeStatus = .CommandIdle) : d.Scanning := by
  unfold Scanning
  rw [hd]
  decide

theorem idle_eq (hd : d.DecodeStatus = .CommandIdle) : d.idle = d := by
  rw [idle, ← hd]

/-- A head that begins the bytes is found if a byte follows it. -/
theorem findHead_begins {h : CMDStatus × List UInt8} (hm : h ∈ CMDHead) (hv : v ≠ []) :
    findHead (h.2 ++ v) = some h := by
  refine findHead_iff.2 ⟨hm, ?_, List.prefix_append ..⟩
  have := List.length_pos_iff.2 hv
  rw [List.length_append]
  omega

/-- A head is entered. -/
theorem steps_head {h : CMDStatus × List UInt8} (hd : d.Scanning) (hm : h ∈ CMDHead) (hv : v ≠ []) :
    parser.Steps d (h.2 ++ v) [] (d.enter h.1) v := by
  refine .single ?_
  rw [parser_react, react_scanning hd, scan, findHead_begins hm hv]
  simp

/-- Bytes in which no head is found are skipped. -/
theorem steps_skip (hd : d.Scanning) (hlen : MAxHeadLength ≤ v.length)
    (hnone : ∀ s₁ s₂, u = s₁ ++ s₂ → s₂ ≠ [] → findHead (s₂ ++ v) = none) :
    parser.Steps d (u ++ v) [] d v := by
  induction u with
  | nil => exact .refl
  | cons b u ih =>
    have hfind := hnone [] (b :: u) rfl (by simp)
    have hle : MAxHeadLength ≤ (b :: u ++ v).length := by
      rw [List.length_append]
      omega
    have hskip : parser.react d (b :: u ++ v) = some (d, u ++ v, []) := by
      rw [parser_react, react_scanning hd, scan, hfind, if_pos hle]
      rfl
    refine .head hskip (ih fun s₁ s₂ hu hs₂ => hnone (b :: s₁) s₂ ?_ hs₂)
    rw [hu, List.cons_append]

/-- No head runs from bytes before it into a byte that begins a head `@..` or `#..`. -/
theorem findHead_none {c : UInt8} {t : List UInt8} (hu : ∀ h ∈ CMDHead, ¬ h.2 <+: u) (hne : u ≠ [])
    (hc : c = 0x40 ∨ c = 0x23) : findHead (u ++ c :: t) = none := by
  by_contra hsome
  obtain ⟨h, hfind⟩ := Option.ne_none_iff_exists'.1 hsome
  obtain ⟨hm, -, hpre⟩ := findHead_iff.1 hfind
  have hfirst : ∀ h ∈ CMDHead, 0x40 ∉ h.2.tail ∧ 0x23 ∉ h.2.tail := by decide
  rcases List.prefix_or_prefix_of_prefix hpre (List.prefix_append ..) with hin | ⟨r, hr⟩
  · exact hu h hm hin
  · cases r with
    | nil => exact hu h hm ⟨[], by rw [← hr, List.append_nil, List.append_nil]⟩
    | cons c' r =>
      rw [← hr, List.prefix_append_right_inj, List.cons_prefix_cons] at hpre
      obtain ⟨b, u, rfl⟩ := List.exists_cons_of_ne_nil hne
      have hmem : c ∈ h.2.tail := by
        rw [← hr, ← hpre.1]
        simp
      rcases hc with rfl | rfl
      · exact (hfirst h hm).1 hmem
      · exact (hfirst h hm).2 hmem

/-- Bytes without a head are skipped up to the next `@` or `#`. -/
theorem steps_headless {c : UInt8} {t : List UInt8} (hd : d.Scanning) (hu : Headless u)
    (hc : c = 0x40 ∨ c = 0x23) (hlen : MAxHeadLength ≤ (c :: t).length) :
    parser.Steps d (u ++ c :: t) [] d (c :: t) := by
  refine steps_skip hd hlen fun s₁ s₂ hs hne => findHead_none ?_ hne hc
  intro h hm hpre
  exact hu h hm (hs ▸ hpre.isInfix.trans (List.suffix_append ..).isInfix)

/-- Bytes without a head at the end of the packet are skipped until the scan waits for more. -/
theorem steps_trailing (hd : d.Scanning) (hu : Headless u) :
    ∃ u', parser.Steps d u [] d u' ∧ parser.Blocked d u' := by
  induction u with
  | nil => exact ⟨[], .refl, by rw [parser_blocked, react_scanning hd]; rfl⟩
  | cons b u ih =>
    have hnone : findHead (b :: u) = none := by
      by_contra hsome
      obtain ⟨h, hfind⟩ := Option.ne_none_iff_exists'.1 hsome
      obtain ⟨hm, -, hpre⟩ := findHead_iff.1 hfind
      exact hu h hm hpre.isInfix
    by_cases hlen : MAxHeadLength ≤ (b :: u).length
    · have hskip : parser.react d (b :: u) = some (d, u, []) := by
        rw [parser_react, react_scanning hd, scan, hnone, if_pos hlen]
        rfl
      obtain ⟨u', hsteps, hblk⟩ := ih fun h hm hin =>
        hu h hm (hin.trans (List.suffix_cons ..).isInfix)
      exact ⟨u', .head hskip hsteps, hblk⟩
    · refine ⟨b :: u, .refl, ?_⟩
      rw [parser_blocked, react_scanning hd, scan, hnone, if_neg hlen]

/-! ## Reading a page -/

/-- The commands without arguments are executed as soon as they are entered. -/
theorem react_pageStart : (d.enter .CommandPageStart).react u =
    some ({ d with DecodeStatus := .CommandIdle, PageEndFlag := false }, u, [.pageStart]) := by
  simp [enter, react, arg]

theorem react_lineEnd : (d.enter .CommandLineEnd).react u = some (d.idle, u, [.lineEnd]) := by
  simp [enter, react, arg, idle]

theorem react_pageEnd : (d.enter .CommandPageEnd).react u =
    some ({ d with
      DecodeStatus := .CommandIdle, PageEndFlag := true, PageNum := d.PageNum + 1 }, u,
      [.pageEnd (d.PageNum + 1)]) := by
  simp [enter, react, arg]

/-- The row up to the tokens left over. -/
theorem steps_row_start {row : List Token} (hd : d.DecodeStatus = .CommandIdle)
    (hdots : LineDecodeDots ≤ (rowDots row).length) (hv : v ≠ []) :
    ∃ d' : Decoder, d'.DecodeStatus = .CommandIdle ∧ d'.PageNum = d.PageNum ∧
      parser.Steps d ([0x23, 0x3C] ++ (tokenBytes row ++ v)) [.row (rowData d.PageNum row)] d'
        (tokenBytes (surplus 0 row) ++ v) := by
  have hm : ((.CommandLineStart, [0x23, 0x3C]) : CMDStatus × List UInt8) ∈ CMDHead := by decide
  have henter := steps_head (v := tokenBytes row ++ v) (scanning_of_idle hd) hm
    fun h => hv (List.append_eq_nil_iff.1 h).2
  obtain ⟨d', hidle, hpage, hrow⟩ := filled_enter.steps_row (d := d.enter .CommandLineStart)
    (by decide) rfl (by simpa using hdots) hv
  exact ⟨d', hidle, hpage, henter.trans hrow⟩

/-- The end of a row after the tokens left over. -/
theorem steps_row_end (hd : d.DecodeStatus = .CommandIdle) (hu : Headless u)
    (hlen : MAxHeadLength ≤ v.length) :
    parser.Steps d (u ++ ([0x23, 0x3E] ++ v)) [.lineEnd] d v := by
  have hv : v ≠ [] := by
    rintro rfl
    exact absurd hlen (by decide)
  have hm : ((.CommandLineEnd, [0x23, 0x3E]) : CMDStatus × List UInt8) ∈ CMDHead := by decide
  have hskip := steps_headless (t := 0x3E :: v) (scanning_of_idle hd) hu (.inr rfl)
    (by simp only [List.length_cons]; omega)
  have hend : parser.react (d.enter .CommandLineEnd) v = some (d, v, [.lineEnd]) := by
    rw [parser_react, react_lineEnd, idle_eq hd]
  exact hskip.trans ((steps_head (scanning_of_idle hd) hm hv).trans (.single hend))

/-- **Rows are read**, if no head occurs in the tokens left over. -/
theorem steps_rows {rows : List (List Token)} (hd : d.DecodeStatus = .CommandIdle)
    (hdots : ∀ row ∈ rows, LineDecodeDots ≤ (rowDots row).length)
    (hfree : ∀ row ∈ rows, Headless (tokenBytes (surplus 0 row)))
    (hlen : MAxHeadLength ≤ v.length) :
    ∃ d' : Decoder, d'.DecodeStatus = .CommandIdle ∧ d'.PageNum = d.PageNum ∧
      parser.Steps d (rows.flatMap rowBytes ++ v) (rowEvents d.PageNum rows) d' v := by
  induction rows generalizing d with
  | nil => exact ⟨d, hd, rfl, .refl⟩
  | cons row rows ih =>
    have hlen' : MAxHeadLength ≤ (rows.flatMap rowBytes ++ v).length := by
      rw [List.length_append]
      omega
    obtain ⟨d₁, hidle₁, hpage₁, hrow⟩ := steps_row_start hd (hdots row (by simp))
      (v := [0x23, 0x3E] ++ (rows.flatMap rowBytes ++ v)) (by simp)
    have hend := steps_row_end hidle₁ (hfree row (by simp)) hlen'
    obtain ⟨d', hidle', hpage', hrest⟩ := ih hidle₁
      (fun r hr => hdots r (List.mem_cons_of_mem _ hr))
      fun r hr => hfree r (List.mem_cons_of_mem _ hr)
    refine ⟨d', hidle', by rw [hpage', hpage₁], ?_⟩
    rw [hpage₁] at hrest
    have hbytes : (row :: rows).flatMap rowBytes ++ v = [0x23, 0x3C] ++ (tokenBytes row ++
        ([0x23, 0x3E] ++ (rows.flatMap rowBytes ++ v))) := by
      simp [rowBytes]
    have hevents : rowEvents d.PageNum (row :: rows) =
        [.row (rowData d.PageNum row)] ++ ([.lineEnd] ++ rowEvents d.PageNum rows) := by
      simp [rowEvents]
    rw [hbytes, hevents]
    exact hrow.trans (hend.trans hrest)

/-- The end of a page is read. -/
theorem steps_page_end (hd : d.DecodeStatus = .CommandIdle) (hv : v ≠ []) :
    ∃ d' : Decoder, d'.DecodeStatus = .CommandIdle ∧ d'.PageNum = d.PageNum + 1 ∧
      parser.Steps d ([0x40, 0x3E] ++ v) [.pageEnd (d.PageNum + 1)] d' v := by
  have hm : ((.CommandPageEnd, [0x40, 0x3E]) : CMDStatus × List UInt8) ∈ CMDHead := by decide
  refine ⟨{ d with
    DecodeStatus := .CommandIdle, PageEndFlag := true, PageNum := d.PageNum + 1 }, rfl, rfl, ?_⟩
  exact (steps_head (scanning_of_idle hd) hm hv).trans (.single react_pageEnd)

/-- The start of a page is read after bytes without a head. -/
theorem steps_page_start (hd : d.DecodeStatus = .CommandIdle) (hu : Headless u)
    (hlen : MAxHeadLength ≤ v.length) :
    ∃ d' : Decoder, d'.DecodeStatus = .CommandIdle ∧ d'.PageNum = d.PageNum ∧
      parser.Steps d (u ++ ([0x40, 0x3C] ++ v)) [.pageStart] d' v := by
  have hv : v ≠ [] := by
    rintro rfl
    exact absurd hlen (by decide)
  have hm : ((.CommandPageStart, [0x40, 0x3C]) : CMDStatus × List UInt8) ∈ CMDHead := by decide
  have hskip := steps_headless (t := 0x3C :: v) (scanning_of_idle hd) hu (.inl rfl)
    (by simp only [List.length_cons]; omega)
  refine ⟨{ d with DecodeStatus := .CommandIdle, PageEndFlag := false }, rfl, rfl, ?_⟩
  exact hskip.trans ((steps_head (scanning_of_idle hd) hm hv).trans (.single react_pageStart))

/-- A run to a scan that waits, without a command `NVS-WiFi` among the events, is disturbed by
nothing. -/
theorem undisturbed_of_steps (h : parser.Steps d u es d' v) (hblk : parser.Blocked d' v)
    (hd : d'.Scanning) (hnvs : ∀ SSID SSIDPassword, .nvs SSID SSIDPassword ∉ es) :
    d.Undisturbed u := by
  constructor
  · intro es₁ d₁ u₁ h₁ hscan hpre
    by_contra hne
    -- the scan would enter `NVS-WiFi`, and the run would not end before the command is executed
    obtain ⟨es₂, rfl, h₂⟩ := h₁.extend h hblk
    obtain ⟨w, rfl⟩ := hpre
    have hw : w ≠ [] := by
      rintro rfl
      exact hne (List.append_nil _)
    have hm : ((.commandNVSWiFi, nvsWiFi) : CMDStatus × List UInt8) ∈ CMDHead := by decide
    have hread : (d₁.enter .commandNVSWiFi).DecodeStatus = .commandNVSWiFi := rfl
    obtain ⟨es₃, rfl, h₃⟩ := (steps_head hscan hm hw).extend h₂ hblk
    cases h₃ with
    | refl => exact hd.1 (by rw [hread]; decide)
    | head hr _ =>
      rw [parser_react, react, hread] at hr
      obtain ⟨-, -, -, hes⟩ := arg_eq_some.1 hr
      exact hnvs ((w.take 64).take 32) ((w.take 64).drop 32) (by simp [← hes])
  · intro es₁ d₁ u₁ h₁ hblk₁ hat
    obtain ⟨rfl, -, -⟩ := h₁.unique hblk₁ h hblk
    exact hd.2 hat.1

/-- **A page is read**, if no head occurs in the tokens left over, nor in the bytes before and after
it. -/
theorem steps_page {page : List (List Token)} (hd : d.DecodeStatus = .CommandIdle)
    (hu : Headless u) (hdots : ∀ row ∈ page, LineDecodeDots ≤ (rowDots row).length)
    (hfree : ∀ row ∈ page, Headless (tokenBytes (surplus 0 row)))
    (hlen : MAxHeadLength ≤ v.length) (hv : Headless v) :
    ∃ (d' : Decoder) (v' : List UInt8), d'.DecodeStatus = .CommandIdle ∧
      d'.PageNum = d.PageNum + 1 ∧ parser.Blocked d' v' ∧
      parser.Steps d (u ++ (pageBytes page ++ v)) (pageEvents d.PageNum page) d' v' := by
  have hv' : v ≠ [] := by
    rintro rfl
    exact absurd hlen (by decide)
  have hlen₂ : MAxHeadLength ≤ ([0x40, 0x3E] ++ v).length := by
    rw [List.length_append]
    omega
  have hlen₁ : MAxHeadLength ≤ (page.flatMap rowBytes ++ ([0x40, 0x3E] ++ v)).length := by
    rw [List.length_append]
    omega
  obtain ⟨d₁, hidle₁, hpage₁, hstart⟩ := steps_page_start hd hu hlen₁
  obtain ⟨d₂, hidle₂, hpage₂, hrows⟩ := steps_rows hidle₁ hdots hfree hlen₂
  obtain ⟨d₃, hidle₃, hpage₃, hend⟩ := steps_page_end hidle₂ hv'
  obtain ⟨v', hrest, hblk⟩ := steps_trailing (scanning_of_idle hidle₃) hv
  refine ⟨d₃, v', hidle₃, by rw [hpage₃, hpage₂, hpage₁], hblk, ?_⟩
  rw [hpage₁] at hrows
  rw [hpage₂, hpage₁] at hend
  have hbytes : u ++ (pageBytes page ++ v) =
      u ++ ([0x40, 0x3C] ++ (page.flatMap rowBytes ++ ([0x40, 0x3E] ++ v))) := by
    simp [pageBytes]
  have hevents : pageEvents d.PageNum page =
      [.pageStart] ++ (rowEvents d.PageNum page ++ ([.pageEnd (d.PageNum + 1)] ++ [])) := by
    simp [pageEvents]
  rw [hbytes, hevents]
  exact hstart.trans (hrows.trans (hend.trans hrest))

/-- The scan comes to the first head in the bytes. -/
theorem steps_to_head (hd : d.Scanning) (hu : ¬ Headless u) (hlen : MAxHeadLength ≤ v.length) :
    ∃ s₁ s₂, u = s₁ ++ s₂ ∧ s₂ ≠ [] ∧ findHead (s₂ ++ v) ≠ none ∧
      parser.Steps d (u ++ v) [] d (s₂ ++ v) := by
  have hv : v ≠ [] := by
    rintro rfl
    exact absurd hlen (by decide)
  induction u with
  | nil => exact absurd (by decide) hu
  | cons b u ih =>
    by_cases hfind : findHead (b :: u ++ v) = none
    · have hle : MAxHeadLength ≤ (b :: u ++ v).length := by
        rw [List.length_append]
        omega
      have hskip : parser.react d (b :: u ++ v) = some (d, u ++ v, []) := by
        rw [parser_react, react_scanning hd, scan, hfind, if_pos hle]
        rfl
      have hu' : ¬ Headless u := by
        intro hfree
        refine hu ?_
        intro h hm hin
        rcases List.infix_cons_iff.1 hin with ⟨w, hw⟩ | hin
        · rw [← hw, List.append_assoc,
            findHead_begins hm fun h => hv (List.append_eq_nil_iff.1 h).2] at hfind
          cases hfind
        · exact hfree h hm hin
      obtain ⟨s₁, s₂, hs, hne, hsome, hsteps⟩ := ih hu'
      exact ⟨b :: s₁, s₂, by rw [hs, List.cons_append], hne, hsome, .head hskip hsteps⟩
    · exact ⟨[], b :: u, rfl, by simp, hfind, .refl⟩

end Decoder

/-! ## The page from packets -/

/-- The bytes from a place inside the tokens left over of a row on, up to `v` after the page. -/
def InSurplus (page : List (List Token)) (v w : List UInt8) : Prop :=
  ∃ before row after s₁ s₂, page = before ++ row :: after ∧
    tokenBytes (surplus 0 row) = s₁ ++ s₂ ∧ s₂ ≠ [] ∧
    w = s₂ ++ ([0x23, 0x3E] ++ (after.flatMap rowBytes ++ ([0x40, 0x3E] ++ v)))

namespace Printer

variable {s : Printer} {env : Env}

/-- The packets are read, unless one is refused, as page `command.PageNum` with these rows. -/
def Framed (env : Env) (s : Printer) (ps : List (Nat × List UInt8)) (page : List (List Token)) :
    Prop :=
  ∃ n, ∀ fuel, n ≤ fuel → feedAll env fuel ps s = .ok none ∨
    ∃ s', feedAll env fuel ps s = .ok (some s') ∧
      s'.log = s.log ++ pageEvents s.command.PageNum page ∧
      s'.command.DecodeStatus = .CommandIdle ∧ s'.command.PageNum = s.command.PageNum + 1

/-- While the bytes are read, no head is taken from the tokens left over. -/
def SkipsSurplus (s : Printer) (page : List (List Token)) (v : List UInt8) : Prop :=
  ∀ es d w, parser.Steps s.decoder (s.remainder ++ (pageBytes page ++ v)) es d w → d.Scanning →
    InSurplus page v w → Decoder.findHead w = none

/-- Nothing is taken from tokens left over without a head. -/
theorem skipsSurplus {page : List (List Token)} {v : List UInt8}
    (hfree : ∀ row ∈ page, Headless (tokenBytes (surplus 0 row))) : s.SkipsSurplus page v := by
  rintro es d w - - ⟨before, row, after, s₁, s₂, rfl, hs, hne, rfl⟩
  refine Decoder.findHead_none ?_ hne (.inr rfl)
  intro h hm hpre
  refine hfree row (by simp) h hm ?_
  rw [hs]
  exact hpre.isInfix.trans (List.suffix_append ..).isInfix

/-- The first head in tokens left over is taken. -/
theorem headless_of_skipsSurplus {page : List (List Token)} {v : List UInt8}
    (hidle : s.command.DecodeStatus = .CommandIdle) (hrem : Headless s.remainder)
    (hdots : ∀ row ∈ page, LineDecodeDots ≤ (rowDots row).length) (hlen : MAxHeadLength ≤ v.length)
    (hskip : s.SkipsSurplus page v) : ∀ row ∈ page, Headless (tokenBytes (surplus 0 row)) := by
  by_contra hbad
  obtain ⟨row₀, hmem₀, hrow₀⟩ : ∃ row ∈ page, ¬ Headless (tokenBytes (surplus 0 row)) := by
    simpa using hbad
  -- the first row with a head in the tokens left over
  have hfound : (page.find? fun row => decide (¬ Headless (tokenBytes (surplus 0 row)))).isSome :=
    List.find?_isSome.2 ⟨row₀, hmem₀, decide_eq_true hrow₀⟩
  obtain ⟨row, hfind⟩ := Option.isSome_iff_exists.1 hfound
  obtain ⟨hrow, before, after, rfl, hbefore⟩ := List.find?_eq_some_iff_append.1 hfind
  let rest := [0x23, 0x3E] ++ (after.flatMap rowBytes ++ ([0x40, 0x3E] ++ v))
  have hrest : MAxHeadLength ≤ rest.length := by
    simp only [rest, List.length_append]
    omega
  have hlen₂ : MAxHeadLength ≤ ([0x23, 0x3C] ++ (tokenBytes row ++ rest)).length := by
    rw [List.length_append, List.length_append]
    omega
  have hlen₁ : MAxHeadLength ≤
      (before.flatMap rowBytes ++ ([0x23, 0x3C] ++ (tokenBytes row ++ rest))).length := by
    rw [List.length_append]
    omega
  obtain ⟨d₁, hidle₁, -, hstart⟩ := Decoder.steps_page_start hidle hrem hlen₁
  obtain ⟨d₂, hidle₂, -, hrows⟩ := Decoder.steps_rows hidle₁
    (fun r (hr : r ∈ before) => hdots r (List.mem_append_left _ hr))
    (fun r hr => by simpa using hbefore r hr) hlen₂
  obtain ⟨d₃, hidle₃, -, hin⟩ := Decoder.steps_row_start hidle₂ (hdots row (by simp))
    (v := rest) (by simp [rest])
  obtain ⟨s₁, s₂, hs, hne, hsome, hhead⟩ := Decoder.steps_to_head
    (Decoder.scanning_of_idle hidle₃) (of_decide_eq_true hrow) hrest
  have hbytes : s.remainder ++ (pageBytes (before ++ row :: after) ++ v) = s.remainder ++
      ([0x40, 0x3C] ++
        (before.flatMap rowBytes ++ ([0x23, 0x3C] ++ (tokenBytes row ++ rest)))) := by
    simp [pageBytes, rowBytes, rest]
  have hsteps := hstart.trans (hrows.trans (hin.trans hhead))
  rw [← hbytes] at hsteps
  exact hsome (hskip _ _ _ hsteps (Decoder.scanning_of_idle hidle₃)
    ⟨before, row, after, s₁, s₂, rfl, hs, hne, rfl⟩)

/-- A page without heads in the tokens left over is read, from whatever packets it comes in. -/
theorem framed {page : List (List Token)} {v : List UInt8} {ps : List (Nat × List UInt8)}
    (hidle : s.command.DecodeStatus = .CommandIdle) (hrem : Headless s.remainder)
    (hdots : ∀ row ∈ page, LineDecodeDots ≤ (rowDots row).length)
    (hlen : MAxHeadLength ≤ v.length) (hv : Headless v)
    (hps : (ps.map Prod.snd).flatten = pageBytes page ++ v)
    (hfree : ∀ row ∈ page, Headless (tokenBytes (surplus 0 row))) : s.Framed env ps page := by
  obtain ⟨d, v', hidle', hpage, hblk, hsteps⟩ :=
    Decoder.steps_page hidle hrem hdots hfree hlen hv
  rw [← hps] at hsteps
  have hnvs : ∀ SSID SSIDPassword,
      Event.nvs SSID SSIDPassword ∉ pageEvents s.decoder.PageNum page := by
    simp [pageEvents, rowEvents]
  have hclear := Decoder.undisturbed_of_steps hsteps hblk (Decoder.scanning_of_idle hidle') hnvs
  obtain ⟨r, j, hrun, hres⟩ := feedAll_quiet env ps s hclear
  refine ⟨j, ?_⟩
  intro fuel hfuel
  obtain ⟨k, rfl⟩ := Nat.exists_eq_add_of_le hfuel
  cases r with
  | none => exact .inl (hrun k)
  | some s' =>
    obtain ⟨es, hlog, hfeeds⟩ := hres s' rfl
    have hne : ps.map Prod.snd ≠ [] := by
      intro h
      rw [h] at hps
      simp [pageBytes] at hps
    obtain ⟨hsteps', hblk'⟩ := hfeeds.whole Decoder.parser_stable hne hclear.1
    obtain ⟨hd, -, rfl⟩ := hsteps'.unique hblk' hsteps hblk
    refine .inr ⟨s', hrun k, hlog, ?_, ?_⟩
    · rw [← hidle', ← hd]
    · rw [← hpage, ← hd]

/-- **Page framing.** From the idle state a page is read as its rows, each from its first 576 dots,
with the page number counted once, and the tokens left over after dot 576 are skipped, exactly if no
command head occurs in the tokens left over of any row. -/
theorem page_framed_iff {page : List (List Token)} {v : List UInt8} {ps : List (Nat × List UInt8)}
    (hidle : s.command.DecodeStatus = .CommandIdle) (hrem : Headless s.remainder)
    (hdots : ∀ row ∈ page, LineDecodeDots ≤ (rowDots row).length)
    (hlen : MAxHeadLength ≤ v.length) (hv : Headless v)
    (hps : (ps.map Prod.snd).flatten = pageBytes page ++ v) :
    s.Framed env ps page ∧ s.SkipsSurplus page v ↔
      ∀ row ∈ page, Headless (tokenBytes (surplus 0 row)) :=
  ⟨fun h => headless_of_skipsSurplus hidle hrem hdots hlen h.2,
    fun hfree => ⟨framed hidle hrem hdots hlen hv hps hfree, skipsSurplus hfree⟩⟩

/-- A page of one row with a token left over. -/
theorem page_framed_iff_one :
    let page : List (List Token) := [[.run 0x81 255 (by decide), .run 0x80 255 (by decide),
      .run 0x81 63 (by decide), .run 0x80 255 (by decide)]]
    let v : List UInt8 := List.replicate 8 0
    (Printer.init 2).Framed .stored [(0, pageBytes page), (3, v)] page ∧
        (Printer.init 2).SkipsSurplus page v ↔
      ∀ row ∈ page, Headless (tokenBytes (surplus 0 row)) :=
  page_framed_iff rfl (by decide) (by decide +kernel) (by decide) (by decide) rfl

/-- More fuel changes no result of the packets. -/
theorem feedAll_mono {n m : Nat} (hn : n ≤ m) {ps : List (Nat × List UInt8)} {s : Printer}
    {r : Option Printer} (h : feedAll env n ps s = .ok r) : feedAll env m ps s = .ok r := by
  induction ps generalizing s with
  | nil => exact h
  | cons p ps ih =>
    rw [feedAll] at h ⊢
    obtain ⟨⟨accepted, s₁⟩, h₁, h₂⟩ := bind_eq_ok.1 h
    refine bind_eq_ok.2 ⟨(accepted, s₁), ?_, ?_⟩
    · exact feed_mono hn h₁
    · cases accepted with
      | false => exact h₂
      | true => exact ih h₂

/-- **A head in the tokens left over is taken for a command**: the single dots `23` and `3C` after
dot 576 begin another row, which swallows the end of the row and of the page. -/
theorem surplus_begins_row :
    let page : List (List Token) := [[.run 0x81 255 (by decide), .run 0x81 255 (by decide),
      .run 0x81 63 (by decide), .dot 0x23 (by decide), .dot 0x3C (by decide)]]
    let v : List UInt8 := List.replicate 8 0
    (∀ row ∈ page, LineDecodeDots ≤ (rowDots row).length) ∧ Headless v ∧
      ¬ (Printer.init 2).Framed .stored [(0, pageBytes page ++ v)] page := by
  intro page v
  refine ⟨by decide +kernel, by decide +kernel, fun ⟨n, hn⟩ => ?_⟩
  -- the end of the page is part of the row that the two dots begin
  have hopen : (feedAll .stored 60 [(0, pageBytes page ++ v)] (.init 2)).toOption.map
      (Option.map fun s => s.command.PageNum) = some (some 0) := by decide +kernel
  obtain ⟨r, hr, hnum⟩ := exists_ok_of_map hopen
  obtain ⟨s', rfl, hzero⟩ := Option.map_eq_some_iff.1 hnum
  have hrun := feedAll_mono (Nat.le_max_left 60 n) hr
  rcases hn _ (Nat.le_max_right 60 n) with h | ⟨s₁, h, -, -, hpage⟩
  · rw [h] at hrun
    cases hrun
  · rw [h] at hrun
    obtain rfl : s₁ = s' := by simpa using hrun
    rw [hzero] at hpage
    exact absurd hpage (by decide)

end Printer

end ThermalPrinter
