import ThermalPrinter.Paper.Discard
import ThermalPrinter.Parser.SelfTest

/-!
# The row queue between the parser and the head

`PrintBLink` is filled by the parser, also from inside a compressed block, and by the self test, and
emptied by the motor step and by the discard loops. The label counter relies on the order of its
pages. Here the two sides are put together, and every reachable queue is in page order: its rows are
the last rows ever queued, each with the number of pages that were ended before it was queued
(`queue_in_order`).
-/

namespace ThermalPrinter

open Relation

namespace Head

variable {h : Head}

/-! ## Rows leave from the head -/

/-- The loop of `RedundantDataProcessing` takes rows from the head of the queue. -/
theorem redundantRows_suffix (PageNum : Nat) (waiting : Bool) (rows : List LinkedListData)
    (Count : Nat) : (redundantRows PageNum waiting rows Count).1 <:+ rows := by
  induction rows generalizing Count with
  | nil => exact List.suffix_rfl
  | cons row rest ih =>
    unfold redundantRows
    split
    · exact List.suffix_cons ..
    · split
      · exact List.suffix_cons ..
      · exact (ih _).trans (List.suffix_cons ..)

/-- The loop of `RedundantDataProcessingLastPage` takes rows from the head of the queue. -/
theorem lastPageLoop_suffix (PageNum : Nat) (rows : List LinkedListData) (Count : Nat) :
    lastPageLoop PageNum rows Count <:+ rows := by
  induction rows generalizing Count with
  | nil => exact List.suffix_rfl
  | cons row rest ih =>
    unfold lastPageLoop
    split
    · split
      · exact List.suffix_cons ..
      · exact (ih _).trans (List.suffix_cons ..)
    · exact List.suffix_cons ..

/-- `RedundantDataProcessing` takes rows from the head of the queue, if none arrive meanwhile. -/
theorem redundant_suffix (waiting : Bool) (h : Head) :
    (h.RedundantDataProcessing waiting []).PrintBLink <:+ h.PrintBLink := by
  rw [RedundantDataProcessing_PrintBLink]
  exact redundantRows_suffix ..

/-- `RedundantDataProcessingLastPage` takes rows from the head of the queue. -/
theorem lastPage_suffix (h : Head) :
    h.RedundantDataProcessingLastPage.PrintBLink <:+ h.PrintBLink := lastPageLoop_suffix ..

/-- What reconciles the pages takes rows from the head of the queue. -/
theorem reconcile_suffix (h : Head) : h.reconcile.1.PrintBLink <:+ h.PrintBLink := by
  have hauth : h.AuthenticPageMangement.PrintBLink = h.PrintBLink :=
    AuthenticPageMangement_PrintBLink
  unfold reconcile
  split
  next =>
    split
    · split
      · split
        · exact (lastPage_suffix _).trans (hauth ▸ List.suffix_rfl)
        · exact hauth ▸ List.suffix_rfl
      · split
        · exact redundant_suffix ..
        · exact hauth ▸ List.suffix_rfl
    · exact List.suffix_rfl
  next => exact hauth ▸ List.suffix_rfl

/-- A motor step takes rows from the head of the queue. -/
theorem PageDataCalculation_suffix (h : Head) :
    h.PageDataCalculation.PrintBLink <:+ h.PrintBLink := by
  rw [PageDataCalculation_PrintBLink]
  split
  · exact reconcile_suffix h
  · exact (List.tail_suffix _).trans (reconcile_suffix h)

end Head

/-! ## The two sides -/

/-- The parser and the head. They share the row queue and `PageEndFlag`, which are the printer's;
the head's own copies are brought up to date before each of its functions runs. -/
structure Device where
  printer : Printer
  head : Head

namespace Device

variable {D D' : Device} {env : Env} {v : UInt8} {f : Head → Head}

/-- What happens. The last action stands for everything else that changes the label counter, the gap
record and the motor, and leaves the queue alone. -/
inductive Action
  | packet (fuel : Nat) (data : List UInt8)
  | selfPrint (t : SelfTest)
  | motorStep
  | discard (waiting : Bool)
  | discardLastPage
  | other (head : Head)

/-- The device at boot. -/
def init (HeadStbLowValid : UInt8) : Device := ⟨Printer.init HeadStbLowValid, Head.init⟩

/-- A function of the head, run on the queue. -/
def onHead (f : Head → Head) (D : Device) : Device :=
  let h := f { D.head with
    PrintBLink := D.printer.PrintBLink, PageEndFlag := D.printer.command.PageEndFlag }
  { printer := { D.printer with PrintBLink := h.PrintBLink }, head := h }

/-- One action. -/
def next (env : Env) (D : Device) : Action → Except Halt Device
  | .packet fuel data => do
    let (_, s) ← Printer.feed env fuel data D.printer
    .ok { D with printer := s }
  | .selfPrint t => .ok { D with printer := D.printer.SelfPrint t }
  | .motorStep => .ok (D.onHead Head.PageDataCalculation)
  | .discard waiting => .ok (D.onHead (Head.RedundantDataProcessing waiting []))
  | .discardLastPage => .ok (D.onHead Head.RedundantDataProcessingLastPage)
  | .other head => .ok { D with head := head }

/-- One action. -/
def Step (env : Env) (D D' : Device) : Prop := ∃ a, D.next env a = .ok D'

/-- The queue is in page order and up to the current page; every row ever queued carries the number
of pages ended before; and the queue is the last of these rows. -/
structure Ordered (D : Device) : Prop where
  inOrder : Head.InOrder D.printer.PrintBLink
  bounded : ∀ r ∈ D.printer.PrintBLink, r.PageNum ≤ D.printer.command.PageNum
  numbered : ∀ es₁ r es₂, D.printer.log = es₁ ++ .row r :: es₂ → r.PageNum = Event.ends es₁
  last : D.printer.PrintBLink <:+ Event.rows D.printer.log

/-- What the log says of the queue. -/
structure Logged (D : Device) : Prop where
  numbered : Numbered 0 D.printer.log
  PageNum : D.printer.command.PageNum = Event.ends D.printer.log
  last : D.printer.PrintBLink <:+ Event.rows D.printer.log

/-- A numbered log orders the queue. -/
theorem Logged.ordered (h : D.Logged) : D.Ordered where
  inOrder := h.numbered.pairwise.sublist h.last.sublist
  bounded := by
    intro r hr
    rw [h.PageNum]
    have := (h.numbered.bounds r (h.last.subset hr)).2
    omega
  numbered := by
    intro es₁ r es₂ hlog
    have hnum := h.numbered
    rw [hlog] at hnum
    rw [hnum.row_PageNum, Nat.zero_add]
  last := h.last

theorem init_logged : (init v).Logged := ⟨trivial, rfl, List.suffix_rfl⟩

/-- A function of the head that takes rows from the head of the queue. -/
theorem onHead_adds (hf : ∀ h, (f h).PrintBLink <:+ h.PrintBLink) :
    Printer.Adds D.printer (D.onHead f).printer [] :=
  .of_eq rfl rfl (hf _)

/-- **Rows leave from the head of the queue only**, and new ones are added at its tail with the
current page number, in every action. -/
theorem step_adds (h : Step env D D') : ∃ es, Printer.Adds D.printer D'.printer es := by
  obtain ⟨a, hnext⟩ := h
  cases a with
  | packet fuel data =>
    obtain ⟨⟨accepted, s⟩, hfeed, hD'⟩ := Printer.bind_eq_ok.1 hnext
    cases hD'
    exact Printer.feed_adds hfeed
  | selfPrint t =>
    cases hnext
    exact ⟨_, Printer.SelfPrint_adds t D.printer⟩
  | motorStep =>
    cases hnext
    exact ⟨[], onHead_adds Head.PageDataCalculation_suffix⟩
  | discard waiting =>
    cases hnext
    exact ⟨[], onHead_adds (Head.redundant_suffix waiting)⟩
  | discardLastPage =>
    cases hnext
    exact ⟨[], onHead_adds Head.lastPage_suffix⟩
  | other head =>
    cases hnext
    exact ⟨[], .refl⟩

/-- An action keeps the log and the queue together. -/
theorem Logged.step (hl : D.Logged) (h : Step env D D') : D'.Logged := by
  obtain ⟨es, hadds⟩ := step_adds h
  refine ⟨?_, ?_, ?_⟩
  · rw [hadds.log, Event.numbered_append, Nat.zero_add, ← hl.PageNum]
    exact ⟨hl.numbered, hadds.numbered⟩
  · rw [hadds.PageNum, hl.PageNum, hadds.log, Event.ends_append]
  · rw [hadds.log, Printer.rows_append]
    obtain ⟨taken, htaken⟩ := hl.last
    exact hadds.queue.trans ⟨taken, by rw [← List.append_assoc, htaken]⟩

/-- **The row queue is in page order** in every reachable state, and what leaves it leaves from its
head. -/
theorem queue_in_order (h : ReflTransGen (Step env) (init v) D) :
    D.Ordered ∧ ∀ D', Step env D D' →
      ∃ es, D'.printer.log = D.printer.log ++ es ∧
        D'.printer.PrintBLink <:+ D.printer.PrintBLink ++ Event.rows es := by
  have hlogged : D.Logged := Runs.invariant (fun _ _ hl hstep => hl.step hstep) h init_logged
  refine ⟨hlogged.ordered, ?_⟩
  intro D' hstep
  obtain ⟨es, hadds⟩ := step_adds hstep
  exact ⟨es, hadds.log, hadds.queue⟩

/-- A self test at boot and a motor step. -/
theorem queue_in_order_tested :
    ∃ D : Device, (((init 2).onHead Head.PageDataCalculation).next .stored
      (.selfPrint Session.blankTest)) = .ok D ∧ D.Ordered := by
  have hrun : ∀ D, ((init 2).onHead Head.PageDataCalculation).next .stored
      (.selfPrint Session.blankTest) = .ok D → ReflTransGen (Step .stored) (init 2) D :=
    fun D hD => (ReflTransGen.refl.tail ⟨.motorStep, rfl⟩).tail ⟨.selfPrint Session.blankTest, hD⟩
  exact ⟨_, rfl, (queue_in_order (hrun _ rfl)).1⟩

end Device

end ThermalPrinter
