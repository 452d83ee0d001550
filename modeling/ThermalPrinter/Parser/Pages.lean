import ThermalPrinter.Parser.Inflate

/-!
# The page numbers of the rows

A row is queued with the current page number, and `CommandSetPageEnd` counts the page. So among the
executed commands every row carries the number of pages ended before it (`Numbered`), whoever calls
the parser: the reader keeps this reaction by reaction, and the parser loop keeps it through the
blocks that re-enter it (`PrintDataProcesser_adds`). On the way the loop changes the row queue only
by queueing rows at its tail, while the printing side takes them from its head.
-/

namespace ThermalPrinter

open Lookahead

/-- The number of pages ended among the events. -/
def Event.ends : List Event → Nat
  | [] => 0
  | .pageEnd _ :: es => Event.ends es + 1
  | _ :: es => Event.ends es

/-- From page `P` on, every row carries the number of the current page, and every page end the
number of the next one. -/
def Numbered : Nat → List Event → Prop
  | _, [] => True
  | P, .row LLData :: es => LLData.PageNum = P ∧ Numbered P es
  | P, .pageEnd PageNum :: es => PageNum = P + 1 ∧ Numbered (P + 1) es
  | P, _ :: es => Numbered P es

namespace Event

variable {es es₁ es₂ : List Event} {P : Nat}

theorem ends_append (es₁ es₂ : List Event) : ends (es₁ ++ es₂) = ends es₁ + ends es₂ := by
  induction es₁ with
  | nil => simp [ends]
  | cons e es ih => cases e <;> grind [ends]

/-- Events are numbered if the first ones are, and the others from the page these lead to. -/
theorem numbered_append :
    Numbered P (es₁ ++ es₂) ↔ Numbered P es₁ ∧ Numbered (P + ends es₁) es₂ := by
  induction es₁ generalizing P with
  | nil => simp [Numbered, ends]
  | cons e es ih =>
    cases e with
    | pageEnd n =>
      simp only [List.cons_append, Numbered, ends, ih, and_assoc]
      rw [show P + 1 + ends es = P + (ends es + 1) by omega]
    | row LLData => simp only [List.cons_append, Numbered, ends, ih, and_assoc]
    | _ => simp only [List.cons_append, Numbered, ends, ih]

end Event

namespace Numbered

variable {es : List Event} {P : Nat}

/-- The rows of numbered events belong to the pages from the first to the last. -/
theorem bounds (h : Numbered P es) :
    ∀ r ∈ Event.rows es, P ≤ r.PageNum ∧ r.PageNum ≤ P + Event.ends es := by
  induction es generalizing P with
  | nil => simp [Event.rows]
  | cons e es ih =>
    cases e with
    | row LLData =>
      intro r hr
      rcases List.mem_cons.1 hr with rfl | hr
      · exact ⟨Nat.le_of_eq h.1.symm, h.1 ▸ Nat.le_add_right ..⟩
      · exact ih h.2 r hr
    | pageEnd n =>
      intro r hr
      have := ih h.2 r hr
      simp only [Event.ends]
      omega
    | _ => exact ih h

/-- The rows of numbered events are in the order of their pages. -/
theorem pairwise (h : Numbered P es) :
    (Event.rows es).Pairwise fun a b => a.PageNum ≤ b.PageNum := by
  induction es generalizing P with
  | nil => exact .nil
  | cons e es ih =>
    cases e with
    | row LLData =>
      refine .cons ?_ (ih h.2)
      intro r hr
      rw [h.1]
      exact (h.2.bounds r hr).1
    | pageEnd n => exact ih h.2
    | _ => exact ih h

/-- The row after some of the events carries the number of pages ended among them. -/
theorem row_PageNum {es₁ es₂ : List Event} {r : LinkedListData}
    (h : Numbered P (es₁ ++ .row r :: es₂)) : r.PageNum = P + Event.ends es₁ :=
  (Event.numbered_append.1 h).2.1

end Numbered

/-! ## The reader -/

namespace Decoder

variable {d d' : Decoder} {u u' : List UInt8} {es : List Event} {b : UInt8}

/-- The end of a token queues a row of the current page. -/
theorem finish_numbered (d : Decoder) :
    Numbered d.PageNum d.finish.2 ∧ d.finish.1.PageNum = d.PageNum + Event.ends d.finish.2 := by
  unfold finish
  split
  · exact ⟨⟨rfl, trivial⟩, rfl⟩
  · exact ⟨trivial, rfl⟩

/-- A token queues a row of the current page, or none. -/
theorem token_numbered (d : Decoder) (b : UInt8) :
    Numbered d.PageNum (d.token b).2 ∧
      (d.token b).1.PageNum = d.PageNum + Event.ends (d.token b).2 := by
  unfold token
  cases d.LineDeCodeWrite with
  | UserDefineCommandHead =>
    simp only [headByte]
    split
    · exact ⟨trivial, rfl⟩
    · exact finish_numbered { d with
        DotsMatric :=
          if b &&& 0x7f ≠ 0 ∧ d.Dots < 576 then Printer.setDot d.DotsMatric d.Dots
          else d.DotsMatric
        Dots := d.Dots + 1 }
  | UserDefineCommandData =>
    exact finish_numbered { d with
      DotsMatric :=
        if d.DotValue then Printer.fillDots d.DotsMatric d.Dots (b.toNat + 1) else d.DotsMatric
      Dots := d.Dots + (b.toNat + 1) }

/-- **A reaction numbers its rows**: a row gets the current page, and only a page end counts. -/
theorem react_numbered (h : d.react u = some (d', u', es)) :
    Numbered d.PageNum es ∧ d'.PageNum = d.PageNum + Event.ends es := by
  unfold react at h
  split at h
  case h_5 =>
    obtain ⟨-, rfl, -, rfl⟩ := arg_eq_some.1 h
    exact token_numbered ..
  case h_9 =>
    unfold fetch at h
    split at h
    · obtain ⟨-, rfl, -, rfl⟩ := arg_eq_some.1 h
      exact ⟨trivial, rfl⟩
    · split at h
      · obtain ⟨-, rfl, -, rfl⟩ := arg_eq_some.1 h
        exact ⟨trivial, rfl⟩
      · cases h
  case h_13 =>
    unfold scan at h
    split at h
    · obtain ⟨rfl, -, rfl⟩ := by simpa only [Option.some.injEq, Prod.mk.injEq] using h
      refine ⟨trivial, ?_⟩
      unfold enter
      split <;> rfl
    · split at h
      · obtain ⟨rfl, -, rfl⟩ := by simpa only [Option.some.injEq, Prod.mk.injEq] using h
        exact ⟨trivial, rfl⟩
      · cases h
  all_goals
    obtain ⟨-, rfl, -, rfl⟩ := arg_eq_some.1 h
    simp [Numbered, Event.ends, idle]

/-- A run of the reader numbers its rows. -/
theorem steps_numbered (h : parser.Steps d u es d' u') :
    Numbered d.PageNum es ∧ d'.PageNum = d.PageNum + Event.ends es := by
  induction h with
  | refl => exact ⟨trivial, rfl⟩
  | head h _ ih =>
    obtain ⟨hnum, hpage⟩ := react_numbered h
    rw [hpage] at ih
    rw [Event.numbered_append, Event.ends_append, ← Nat.add_assoc]
    exact ⟨⟨hnum, ih.1⟩, ih.2⟩

end Decoder

/-! ## The parser loop -/

namespace Printer

variable {s s' s₁ s₂ : Printer} {es es₁ es₂ : List Event} {env : Env}

/-- From `s` to `s'` the commands `es` were executed: they are logged, their rows are numbered and
queued at the tail, and rows were taken from the head of the queue only. -/
structure Adds (s s' : Printer) (es : List Event) : Prop where
  log : s'.log = s.log ++ es
  numbered : Numbered s.command.PageNum es
  PageNum : s'.command.PageNum = s.command.PageNum + Event.ends es
  queue : s'.PrintBLink <:+ s.PrintBLink ++ Event.rows es

theorem Adds.trans (h₁ : Adds s s₁ es₁) (h₂ : Adds s₁ s₂ es₂) : Adds s s₂ (es₁ ++ es₂) where
  log := by rw [h₂.log, h₁.log, List.append_assoc]
  numbered := Event.numbered_append.2 ⟨h₁.numbered, h₁.PageNum ▸ h₂.numbered⟩
  PageNum := by rw [h₂.PageNum, h₁.PageNum, Event.ends_append, Nat.add_assoc]
  queue := by
    refine h₂.queue.trans ?_
    rw [rows_append, ← List.append_assoc]
    obtain ⟨taken, htaken⟩ := h₁.queue
    exact ⟨taken, by rw [← List.append_assoc, htaken]⟩

/-- What leaves the log and the page number alone and takes rows from the head of the queue. -/
theorem Adds.of_eq (hlog : s'.log = s.log) (hpage : s'.command.PageNum = s.command.PageNum)
    (hqueue : s'.PrintBLink <:+ s.PrintBLink) : Adds s s' [] :=
  ⟨by rw [hlog, List.append_nil], trivial, hpage, by simpa [Event.rows] using hqueue⟩

theorem Adds.refl : Adds s s [] := .of_eq rfl rfl List.suffix_rfl

/-- Commands executed after such a change. -/
theorem Adds.of_same (h : Adds s₁ s' es) (hlog : s₁.log = s.log)
    (hpage : s₁.command.PageNum = s.command.PageNum) (hqueue : s₁.PrintBLink <:+ s.PrintBLink) :
    Adds s s' es :=
  (Adds.of_eq hlog hpage hqueue).trans h

/-- A run of the reader numbers and queues its rows. -/
theorem Ran.adds (h : Ran s s' es) : Adds s s' es :=
  ⟨h.log, (Decoder.steps_numbered h.steps).1, (Decoder.steps_numbered h.steps).2,
    h.queue ▸ List.suffix_rfl⟩

/-- The computation executes commands, starting in the working buffer and ending there. -/
def Executes (f : Printer → Except Halt Printer) : Prop :=
  ∀ s s', s.InBuffer → f s = .ok s' → s'.InBuffer ∧ ∃ es, Adds s s' es

variable {process entrance : Printer → Except Halt Printer}

/-- The offers of a piece execute its commands. -/
theorem offer_adds (hp : Executes process) (data : List UInt8) (fuel : Nat) :
    Executes (offer env process data fuel) := by
  induction fuel with
  | zero => intro s s' _ hr; cases hr
  | succ fuel ih =>
    intro s s' hb hr
    by_cases hroom : s.PrintBLink.length < PrintLinkedListCount
    · rw [offer_room hroom] at hr
      obtain ⟨hb', es, hadds⟩ := hp (s.realloc data) s' (Nat.zero_le _) hr
      exact ⟨hb', es, hadds.of_same rfl rfl List.suffix_rfl⟩
    · rw [offer_full hroom] at hr
      obtain ⟨hb', es, hadds⟩ := ih (s.os_time_dly env) s' hb hr
      exact ⟨hb', es, hadds.of_same rfl rfl (List.drop_suffix ..)⟩

/-- The decode loop executes the commands of the pieces. -/
theorem zipLoop_adds (hp : Executes process) (fuel turns : Nat) {strm : env.zlib.z_stream}
    {total : Nat} {r : Bool × Printer} (hb : s.InBuffer)
    (hr : zipLoop env process fuel turns strm total total s = .ok r) :
    r.2.InBuffer ∧ ∃ es, Adds s r.2 es := by
  induction turns generalizing s strm total with
  | zero => exact (zipLoop_zero _ _ _ _ hr).elim
  | succ turns ih =>
    cases hret : env.zlib.fails strm with
    | true =>
      rw [zipLoop_error _ _ _ _ hret] at hr
      cases hr
      exact ⟨hb, [], .of_eq rfl rfl List.suffix_rfl⟩
    | false =>
      rw [zipLoop_turn _ _ _ _ hret] at hr
      obtain ⟨s₁, h₁, h₂⟩ := bind_eq_ok.1 hr
      obtain ⟨hb₁, es, hadds⟩ := offer_adds hp _ _ (s.draw (env.zlib.piece strm)) s₁ hb h₁
      have hadds := hadds.of_same (s := s) rfl rfl List.suffix_rfl
      split at h₂
      next =>
        obtain ⟨hb', es', hadds'⟩ := ih hb₁ h₂
        exact ⟨hb', es ++ es', hadds.trans hadds'⟩
      next =>
        cases h₂
        exact ⟨hb₁, es, hadds⟩

/-- The entrance of the decode loop executes the commands of the block. -/
theorem ZipDecodeEntrance_adds (hp : Executes process) (fuel : Nat) :
    Executes (ZipDecodeEntrance env process fuel) := by
  intro s s' hb hr
  unfold ZipDecodeEntrance at hr
  obtain ⟨⟨decoded, s₁⟩, h₁, h₂⟩ := bind_eq_ok.1 hr
  cases h₂
  have hdecode : s₁.InBuffer ∧ ∃ es, Adds s s₁ es := by
    unfold ZipDecode at h₁
    split at h₁
    next =>
      cases h₁
      exact ⟨hb, [], .of_eq rfl rfl List.suffix_rfl⟩
    next =>
      have hb₀ : { s with command :=
        { s.command with DecodeStatus := .CommandIdle } }.ReturnModle.InBuffer := hb
      obtain ⟨hb₁, es, hadds⟩ := zipLoop_adds hp _ _ hb₀ h₁
      exact ⟨hb₁, es, hadds.of_same rfl rfl List.suffix_rfl⟩
  obtain ⟨hb₁, es, hadds⟩ := hdecode
  cases decoded with
  | true => exact ⟨hb₁, es, hadds.log, hadds.numbered, hadds.PageNum, hadds.queue⟩
  | false => exact ⟨hb₁, es, hadds.log, hadds.numbered, hadds.PageNum, hadds.queue⟩

/-- The loop over the block data executes the commands of the block, if it inflates it. -/
theorem zipFetchLoop_adds (he : Executes entrance) (left : Nat) :
    Executes (zipFetchLoop entrance left) := by
  induction left with
  | zero =>
    intro s s' hb hr
    cases hr
    exact ⟨hb, [], .refl⟩
  | succ left ih =>
    intro s s' hb hr
    unfold zipFetchLoop at hr
    split at hr
    next hpos =>
      obtain ⟨s₁, h₁, h₂⟩ := bind_eq_ok.1 hr
      have hstore : s₁.InBuffer ∧ Adds s s₁ [] := by
        unfold zipStore at h₁
        dsimp only at h₁
        split at h₁
        · cases h₁
          exact ⟨hpos, .of_eq rfl rfl List.suffix_rfl⟩
        · cases h₁
      split at h₂
      next =>
        obtain ⟨s₂, h₃, h₄⟩ := bind_eq_ok.1 h₂
        cases h₄
        obtain ⟨hb₂, es, hadds⟩ := he _ _ hstore.1 h₃
        have hall := hstore.2.trans hadds
        exact ⟨hb₂, _, hall.log, hall.numbered, hall.PageNum, hall.queue⟩
      next =>
        obtain ⟨hb', es, hadds⟩ := ih _ _ hstore.1 h₂
        exact ⟨hb', _, hstore.2.trans hadds⟩
    next =>
      cases hr
      exact ⟨hb, [], .of_eq rfl rfl List.suffix_rfl⟩

/-- **The parser loop executes commands**: it numbers the rows it queues, also through the blocks
that re-enter it. -/
theorem PrintDataProcesser_adds (env : Env) (fuel : Nat) :
    Executes (PrintDataProcesser env fuel) := by
  induction fuel with
  | zero => intro s s' _ hr; cases hr
  | succ fuel ih =>
    intro s s' hb hr
    cases hf : s.command.ReturnFlag with
    | true =>
      rw [PrintDataProcesser_returned fuel hf] at hr
      cases hr
      exact ⟨hb, [], .refl⟩
    | false =>
      rw [PrintDataProcesser_succ fuel hf] at hr
      obtain ⟨s₁, h₁, h₂⟩ := bind_eq_ok.1 hr
      have hpass : s₁.InBuffer ∧ ∃ es, Adds s s₁ es := by
        unfold dispatch at h₁
        split at h₁
        next hs =>
          obtain ⟨s₀, hran, -, -, -, heq⟩ := CommandZipFetchData_reaches hb hf hs
          rw [heq] at h₁
          obtain ⟨hb₁, es, hadds⟩ :=
            zipFetchLoop_adds (ZipDecodeEntrance_adds ih fuel) _ _ _ hran.inBuffer h₁
          exact ⟨hb₁, _, hran.adds.trans hadds⟩
        next hs =>
          cases h₁
          obtain ⟨es, hran, -⟩ := handle_handled hb hf hs
          exact ⟨hran.inBuffer, es, hran.adds⟩
      obtain ⟨hb₁, es, hadds⟩ := hpass
      obtain ⟨hb', es', hadds'⟩ := ih _ _ hb₁ h₂
      exact ⟨hb', es ++ es', hadds.trans hadds'⟩

/-- A call of `PrintDataManagement` executes commands. -/
theorem feed_adds {fuel : Nat} {data : List UInt8} {accepted : Bool}
    (hr : feed env fuel data s = .ok (accepted, s')) : ∃ es, Adds s s' es := by
  rw [feed, PrintDataManagement] at hr
  split at hr
  next =>
    cases hp : PrintDataProcesser env fuel (s.realloc data) with
    | error e => rw [hp] at hr; cases hr
    | ok q =>
      rw [hp] at hr
      cases hr
      obtain ⟨-, es, hadds⟩ := PrintDataProcesser_adds env fuel _ _ (Nat.zero_le _) hp
      exact ⟨es, hadds.of_same rfl rfl List.suffix_rfl⟩
  next =>
    cases hr
    exact ⟨[], .refl⟩

end Printer

end ThermalPrinter
