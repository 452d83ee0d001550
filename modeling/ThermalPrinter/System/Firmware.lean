import ThermalPrinter.Channel.Tasks
import ThermalPrinter.Paper.Job
import ThermalPrinter.Paper.Queue
import ThermalPrinter.Parser.Calls

/-!
# The whole print path

Receivers, data task, print task, self test and the two timers, all on one state. The data task is
inside `PrintDataManagement` with a stack of calls, and every step of a call may be followed by an
action of anyone else: the timer takes a row from the queue between two handlers, a receiver queues
a piece while a block is being inflated, the print task starts the motor while a page is coming in.

The parser's printer and the print task's job share the row queue and `PageEndFlag`. They are the
printer's; the job's copies are brought up to date before each of its actions.
-/

namespace ThermalPrinter

open Relation

/-- The state that the tasks and interrupts share: the channels with the parser's printer (`world`),
the calls of the data task inside `PrintDataManagement`, unless it is outside, and the print task
with the motor (`job`). `fed` records the packets that were accepted, with their channels. -/
structure Firmware (z : Zlib) where
  world : World
  calls : Option (List (Call z))
  job : Job
  fed : List (CType × List UInt8)

/-- An action of the tick, of a receiver, of the idle timer, or of the data task outside
`PrintDataManagement`. -/
inductive World.Goes : World → World → Prop
  | tick (w : World) : Goes w { w with time := w.time + 1 }
  | receive (w : World) (c : CType) (data : List UInt8) :
      w.pending c = [] → Goes w (w.receive c data)
  | malloc (w : World) (c : CType) (piece : List UInt8) (rest : List (List UInt8)) :
      w.pending c = piece :: rest → Goes w (w.malloc c piece rest)
  | Print (w : World) : Goes w w.writeTimer
  | dispatch (w : World) : w.pc = .loop → Goes w w.dispatch
  | poll (w : World) (rest : List CType) : w.pc = .poll rest → Goes w (w.pollNext rest)
  | copyHead (w : World) (c : CType) (count : Nat) (rest : List CType) :
      w.pc = .copy c count rest → Goes w (w.copyHead c count rest)

/-- A call that `SelfPrint` makes: it begins a page, queues a row, or ends the page. -/
inductive Printer.Draws : Printer → Printer → Prop
  | pageStart (s : Printer) : Draws s s.CommandSetPageStart
  | row (s : Printer) (Buffer : List UInt8) : Buffer.length = PrintlineBytes →
      Draws s (s.WritePrintLinkedListB Buffer)
  | pageEnd (s : Printer) : Draws s s.CommandSetPageEnd

namespace Firmware

variable {z : Zlib}

/-- The parser's globals. -/
abbrev printer (σ : Firmware z) : Printer := σ.world.printer

/-- The queued rows. -/
abbrev queue (σ : Firmware z) : List LinkedListData := σ.printer.PrintBLink

/-- The lines latched into the head so far. -/
abbrev latched (σ : Firmware z) : List (List UInt8) := σ.job.head.latched

/-- The parser's globals after a change. -/
def setPrinter (σ : Firmware z) (printer : Printer) : Firmware z :=
  { σ with world := { σ.world with printer := printer } }

/-- The job as its next action finds it. -/
def current (σ : Firmware z) : Job :=
  { σ.job with motor := σ.job.motor.setHead { σ.job.head with
      PrintBLink := σ.queue, PageEndFlag := σ.printer.command.PageEndFlag } }

/-- An action of the print task or of the motor, on the shared queue. -/
def onJob (a : Job.Action) (σ : Firmware z) : Firmware z :=
  let job := σ.current.next a
  { σ.setPrinter { σ.printer with PrintBLink := job.queue } with job := job }

/-- The print task and the timers, without the parser. -/
def PrintSide : Job.Action → Prop
  | .receive => False
  | _ => True

/-- One action. `accept` and `refuse` are the two branches of `PrintDataManagement`, `call` a step
inside it and `returned` its return. There are calls of the self test only if `selfTests` holds.
`others` stands for what the cover, the paper's edge and the keys do to the print task and to the
motor: anything but latching a line. -/
inductive Step (selfTests : Prop) : Firmware z → Firmware z → Prop
  | goes (σ : Firmware z) (w : World) : σ.world.Goes w → Step selfTests σ { σ with world := w }
  | refuse (σ : Firmware z) (c : CType) (count : Nat) (data : List UInt8) (rest : List CType) :
      σ.world.pc = .manage c count data rest → σ.calls = none →
      ¬ σ.queue.length < PrintLinkedListCount →
      Step selfTests σ { σ with world := σ.world.copyDone c count data rest false σ.printer }
  | accept (σ : Firmware z) (c : CType) (count : Nat) (data : List UInt8) (rest : List CType) :
      σ.world.pc = .manage c count data rest → σ.calls = none →
      σ.queue.length < PrintLinkedListCount →
      Step selfTests σ { σ.setPrinter (σ.printer.realloc data) with
        calls := some [.PrintDataProcesser], fed := σ.fed ++ [(c, data)] }
  | call (σ : Firmware z) (call : Call z) (calls new : List (Call z)) (printer : Printer) :
      σ.calls = some (call :: calls) → Printer.call z call σ.printer = some (printer, new) →
      Step selfTests σ { σ.setPrinter printer with calls := some (new ++ calls) }
  | returned (σ : Firmware z) (c : CType) (count : Nat) (data : List UInt8) (rest : List CType) :
      σ.world.pc = .manage c count data rest → σ.calls = some [] →
      Step selfTests σ { σ with
        world := σ.world.copyDone c count data rest true σ.printer, calls := none }
  | onJob (σ : Firmware z) (a : Job.Action) : PrintSide a → Step selfTests σ (σ.onJob a)
  | selfPrint (σ : Firmware z) (printer : Printer) :
      selfTests → σ.printer.Draws printer → Step selfTests σ (σ.setPrinter printer)
  | others (σ : Firmware z) (job : Job) :
      job.head.latched = σ.latched → Step selfTests σ { σ with job := job }

/-- The state at boot, after some ticks. -/
def init (z : Zlib) (HeadStbLowValid : UInt8) (time : Nat) : Firmware z where
  world := World.init HeadStbLowValid time
  calls := none
  job := Job.init []
  fed := []

end Firmware

/-! ## What an action does to the channels -/

namespace World

variable {w w' : World}

/-- Outside `PrintDataManagement` the tasks leave the parser's globals alone, accept nothing, and
put no packet in hand but the head of a list. -/
theorem Goes.printer (h : w.Goes w') : w'.printer = w.printer ∧ w'.accepted = w.accepted := by
  cases h with
  | tick | receive | malloc | Print | dispatch => exact ⟨rfl, rfl⟩
  | poll rest => cases rest <;> exact ⟨rfl, rfl⟩
  | copyHead c count rest =>
    unfold World.copyHead
    split
    · dsimp only
      split <;> exact ⟨rfl, rfl⟩
    · exact ⟨rfl, rfl⟩

/-- The tasks go on as in the world of the channels. -/
theorem Goes.step (env : Env) (h : w.Goes w') : Step env w w' := by
  cases h with
  | tick => exact .tick w
  | receive c data hp => exact .receive w c data hp
  | malloc c piece rest hp => exact .malloc w c piece rest hp
  | Print => exact .Print w
  | dispatch hp => exact .dispatch w hp
  | poll rest hp => exact .poll w rest hp
  | copyHead c count rest hp => exact .copyHead w c count rest hp

end World

end ThermalPrinter
