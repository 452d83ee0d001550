import ThermalPrinter.Channel.Tasks

/-!
# Flow control of the USB channel

The endpoint holds one packet, and the host is refused until it is read. The receive interrupt
leaves the packet there when the list is long, and the timer interrupt reads it when the list has
become short. The two interrupts have the same priority and run on the same core, so each is one
action. `USBdp.Status` says after every handler whether a packet waits at the endpoint; so every
packet is read once and in order, and the list stays short (`usb_flow`).
-/

namespace ThermalPrinter

open Relation

/-- `MaxLinkedListCount`. -/
def MaxLinkedListCount : Nat := 500

/-- `RestartRxCount`: with fewer packets in its list a channel that was stopped goes on. -/
def RestartRxCount : Nat := 50

/-- `(method==IDLE || method==own) ? full : RestartRxCount`: the packets a channel lets its list
grow to, fewer while another channel owns the printer. -/
def limit (own : printMethod) (full : Nat) (method : printMethod) : Nat :=
  if method = .IDLE ∨ method = own then full else RestartRxCount

theorem limit_le {own method : printMethod} {full : Nat} (h : RestartRxCount ≤ full) :
    limit own full method ≤ full := by
  unfold limit
  split
  · exact Nat.le_refl _
  · exact h

/-- `USBdp.Status`. -/
inductive CommStatus
  | CommIdle | CommSuspended
  deriving DecidableEq, Repr

/-- The endpoint, its interrupt, `USBdp` and the owner of the printer. The last fields record the
history: the packets the endpoint took from the host, those read from it, and those the data task
removed from the list. -/
structure Usb where
  endpoint : Option (List UInt8)
  interrupt : Bool
  Status : CommStatus
  DP : List (List UInt8)
  method : printMethod
  sent : List (List UInt8)
  read : List (List UInt8)
  popped : List (List UInt8)

namespace Usb

variable {u u' : Usb}

/-- The host offers a packet, an interrupt runs, the data task removes a packet, and the printer
changes its owner. -/
inductive Action
  | host (packet : List UInt8)
  | isr
  | task
  | pop
  | owner (method : printMethod)

/-- `usb_g_bulk_read` and `_malloc`: what is at the endpoint is queued, no bytes if nothing is. -/
def bulkRead (u : Usb) : Usb :=
  { u with
    endpoint := none
    DP := u.DP ++ [u.endpoint.getD []]
    read := u.read ++ [u.endpoint.getD []] }

/-- `USBPrinterReveiveDataIsr`. -/
def USBPrinterReveiveDataIsr (u : Usb) : Usb :=
  if u.DP.length > limit .USB MaxLinkedListCount u.method then { u with Status := .CommSuspended }
  else u.bulkRead

/-- `USBPrinterReveiveDataTask`. -/
def USBPrinterReveiveDataTask (u : Usb) : Usb :=
  if u.Status = .CommSuspended ∧ u.DP.length < RestartRxCount then
    { u.bulkRead with Status := .CommIdle }
  else u

/-- One action. A packet is refused while another one waits; the receive interrupt runs once for
every packet. -/
def next (u : Usb) : Action → Usb
  | .host packet =>
    match u.endpoint with
    | none =>
      { u with endpoint := some packet, interrupt := true, sent := u.sent ++ [packet] }
    | some _ => u
  | .isr => if u.interrupt then { u with interrupt := false }.USBPrinterReveiveDataIsr else u
  | .task => u.USBPrinterReveiveDataTask
  | .pop => { u with DP := u.DP.tail, popped := u.popped ++ u.DP.head?.toList }
  | .owner method => { u with method := method }

/-- The channel at boot. -/
def init : Usb where
  endpoint := none
  interrupt := false
  Status := .CommIdle
  DP := []
  method := .IDLE
  sent := []
  read := []
  popped := []

/-- One action. -/
def Step (u u' : Usb) : Prop := ∃ a, u' = u.next a

/-- What flow control keeps. -/
structure Flows (u : Usb) : Prop where
  interrupt : u.interrupt = true → u.endpoint.isSome ∧ u.Status = .CommIdle
  Status : u.interrupt = false → (u.Status = .CommSuspended ↔ u.endpoint.isSome)
  sent : u.sent = u.read ++ u.endpoint.toList
  read : u.read = u.popped ++ u.DP
  length : u.DP.length ≤ MaxLinkedListCount + 1

theorem init_flows : init.Flows where
  interrupt := nofun
  Status := fun _ => ⟨nofun, nofun⟩
  sent := rfl
  read := rfl
  length := Nat.zero_le _

/-- A packet that waits is read and queued. -/
theorem bulkRead_reads {packet : List UInt8} (h : u.Flows) (hp : u.endpoint = some packet) :
    u.bulkRead.sent = u.bulkRead.read ++ u.bulkRead.endpoint.toList ∧
      u.bulkRead.read = u.bulkRead.popped ++ u.bulkRead.DP ∧
      u.bulkRead.DP.length = u.DP.length + 1 := by
  refine ⟨?_, ?_, ?_⟩
  · have hsent := h.sent
    rw [hp] at hsent
    simpa [bulkRead, hp] using hsent
  · simp [bulkRead, hp, h.read]
  · simp [bulkRead]

/-- **The receive interrupt** reads the packet or records that it waits. -/
theorem Flows.isr (h : u.Flows) (hi : u.interrupt = true) :
    { u with interrupt := false }.USBPrinterReveiveDataIsr.Flows := by
  obtain ⟨hsome, hidle⟩ := h.interrupt hi
  obtain ⟨packet, hp⟩ := Option.isSome_iff_exists.1 hsome
  unfold USBPrinterReveiveDataIsr
  dsimp only
  split
  next =>
    exact ⟨nofun, fun _ => ⟨fun _ => hsome, fun _ => rfl⟩, h.sent, h.read,
      h.length⟩
  next hlen =>
    obtain ⟨hsent, hread, hlength⟩ := bulkRead_reads h hp
    have hlimit : limit .USB MaxLinkedListCount u.method ≤ MaxLinkedListCount :=
      limit_le (by decide)
    refine ⟨nofun, fun _ => ⟨?_, nofun⟩, hsent, hread, ?_⟩
    · intro hs
      have hs : u.Status = .CommSuspended := hs
      rw [hidle] at hs
      cases hs
    · have : u.bulkRead.DP.length ≤ MaxLinkedListCount + 1 := by omega
      exact this

/-- **The timer interrupt** reads the packet that waits, once the list is short. -/
theorem Flows.task (h : u.Flows) : u.USBPrinterReveiveDataTask.Flows := by
  unfold USBPrinterReveiveDataTask
  split
  next hsus =>
    obtain ⟨hsus, hlen⟩ := hsus
    have hi : u.interrupt = false := by
      by_contra hi
      have hidle := (h.interrupt (by simpa using hi)).2
      rw [hsus] at hidle
      cases hidle
    obtain ⟨packet, hp⟩ := Option.isSome_iff_exists.1 ((h.Status hi).1 hsus)
    obtain ⟨hsent, hread, hlength⟩ := bulkRead_reads h hp
    refine ⟨?_, fun _ => ⟨nofun, nofun⟩, hsent, hread, ?_⟩
    · intro hf
      have hf : u.interrupt = true := hf
      rw [hi] at hf
      cases hf
    · have : u.bulkRead.DP.length ≤ MaxLinkedListCount + 1 := by
        rw [hlength]
        unfold RestartRxCount at hlen
        unfold MaxLinkedListCount
        omega
      exact this
  next => exact h

/-- Every action keeps flow control. -/
theorem Flows.step (h : u.Flows) (hstep : Step u u') : u'.Flows := by
  obtain ⟨a, rfl⟩ := hstep
  cases a with
  | host packet =>
    unfold next
    dsimp only
    split
    next hp =>
      have hi : u.interrupt = false := by
        by_contra hi
        have hsome := (h.interrupt (by simpa using hi)).1
        rw [hp] at hsome
        cases hsome
      have hidle : u.Status = .CommIdle := by
        cases hs : u.Status with
        | CommIdle => rfl
        | CommSuspended =>
          have hsome := (h.Status hi).1 hs
          rw [hp] at hsome
          cases hsome
      have hsent := h.sent
      rw [hp] at hsent
      refine ⟨fun _ => ⟨rfl, hidle⟩, nofun, ?_, h.read, h.length⟩
      simpa using hsent
    next => exact h
  | isr =>
    unfold next
    dsimp only
    split
    next hi => exact h.isr hi
    next => exact h
  | task => exact h.task
  | pop =>
    refine ⟨h.interrupt, h.Status, h.sent, ?_, ?_⟩
    · have hread := h.read
      cases hq : u.DP with
      | nil => simpa [next, hq] using hread
      | cons packet rest => simpa [next, hq] using hread
    · have hlen : u.DP.tail.length ≤ u.DP.length := by
        rw [List.length_tail]
        omega
      exact Nat.le_trans hlen h.length
  | owner method => exact ⟨h.interrupt, h.Status, h.sent, h.read, h.length⟩

/-- **USB flow control loses and repeats nothing.** When the handlers have run, `Status` says
whether a packet waits at the endpoint; the packets sent are those read, in order, and the one that
waits; those read are the ones removed from the list and those still in it; and the list has at most
`MaxLinkedListCount + 1` packets. A packet that waits is read by the first periodic call that finds
fewer than `RestartRxCount` of them. -/
theorem usb_flow (h : ReflTransGen Step init u) :
    (u.interrupt = false → (u.Status = .CommSuspended ↔ u.endpoint.isSome)) ∧
      u.sent = u.read ++ u.endpoint.toList ∧ u.read = u.popped ++ u.DP ∧
      u.DP.length ≤ MaxLinkedListCount + 1 ∧
      (u.interrupt = false → u.DP.length < RestartRxCount → (u.next .task).read = u.sent) := by
  have hf : u.Flows := Runs.invariant (fun _ _ hf hstep => hf.step hstep) h init_flows
  refine ⟨hf.Status, hf.sent, hf.read, hf.length, ?_⟩
  intro hi hlen
  have hread : u.sent = u.read ++ u.endpoint.toList := hf.sent
  cases hp : u.endpoint with
  | none =>
    have hstatus : ¬ (u.Status = .CommSuspended ∧ u.DP.length < RestartRxCount) := by
      rintro ⟨hs, -⟩
      have hsome := (hf.Status hi).1 hs
      rw [hp] at hsome
      cases hsome
    rw [hp] at hread
    simpa [next, USBPrinterReveiveDataTask, if_neg hstatus] using hread.symm
  | some packet =>
    have hs : u.Status = .CommSuspended := (hf.Status hi).2 (by rw [hp]; rfl)
    rw [hp] at hread
    simpa [next, USBPrinterReveiveDataTask, hs, hlen, bulkRead, hp] using hread.symm

/-- While another channel owns the printer, the 52nd packet waits at the endpoint. Two packets are
removed from the list, and the next periodic call reads it. -/
theorem usb_flow_suspended :
    ∃ u, ReflTransGen Step init u ∧ u.Status = .CommSuspended ∧ u.interrupt = false ∧
      u.DP.length = 49 ∧
      ((u.interrupt = false → (u.Status = .CommSuspended ↔ u.endpoint.isSome)) ∧
        u.sent = u.read ++ u.endpoint.toList ∧ u.read = u.popped ++ u.DP ∧
        u.DP.length ≤ MaxLinkedListCount + 1 ∧
        (u.interrupt = false → u.DP.length < RestartRxCount → (u.next .task).read = u.sent)) := by
  let run : List Action :=
    [.owner .SPP] ++ (List.replicate 52 [.host [0x40], .isr]).flatten ++ [.pop, .pop]
  have hrun : ReflTransGen Step init (run.foldl next init) :=
    Runs.foldl (fun u a => ⟨a, rfl⟩) init run
  exact ⟨_, hrun, by decide +kernel, by decide +kernel, by decide +kernel, usb_flow hrun⟩

end Usb

end ThermalPrinter
