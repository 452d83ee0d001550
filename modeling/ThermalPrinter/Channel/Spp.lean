import ThermalPrinter.Channel.Usb

/-!
# Flow control of the SPP channel

The receive callback tells the peer to stop when the list is long, once (`EdrBusy`), and the timer
interrupt tells it to go on when the list has become short. The command goes to `spp_channel`, which
a receive callback sets and a disconnection clears; `EdrBusy` is cleared by the timer interrupt
alone. So a peer that was told to stop is always told to go on, but a peer that connects while the
flag is left over from an earlier connection is not told to stop (`spp_flow_iff`).
-/

namespace ThermalPrinter

open Relation

/-- The peer of an open SPP connection: its channel, and whether it has been told to stop and has
not been told to go on since. -/
structure SppPeer where
  channel : UInt16
  channel_ne : channel ≠ 0
  stopped : Bool

/-- The globals of the SPP receiver, its list, the owner of the printer and the peer. The last
fields record the history: the number of connections so far, and the one in which `EdrBusy` was set
last. -/
structure Spp where
  spp_channel : UInt16
  EdrBusy : Bool
  DP : List (List UInt8)
  method : printMethod
  peer : Option SppPeer
  connection : Nat
  busySince : Nat

namespace Spp

variable {s s' : Spp} {p : SppPeer}

/-- The callbacks of the stack, the timer interrupt, the data task, and a change of the owner. -/
inductive Action
  | connect (channel : UInt16) (hne : channel ≠ 0)
  | disconnect
  | receive (buf : List UInt8)
  | task
  | pop
  | owner (method : printMethod)

/-- `transport_spp_flow_enable`: the command reaches the peer whose channel is `spp_channel`. -/
def transport_spp_flow_enable (en : Bool) (s : Spp) : Spp :=
  if s.spp_channel ≠ 0 then
    { s with
      peer := s.peer.map fun p =>
        if p.channel = s.spp_channel then { p with stopped := en } else p }
  else s

/-- The packets the list grows to before the peer is told to stop. -/
def threshold (s : Spp) : Nat := limit .SPP 400 s.method

/-- `EdrPrinterReceiveDataISR`. -/
def EdrPrinterReceiveDataISR (data : List UInt8) (s : Spp) : Spp :=
  let s := { s with DP := s.DP ++ pieces data 0 }
  if s.DP.length > s.threshold ∧ s.EdrBusy = false then
    { s.transport_spp_flow_enable true with EdrBusy := true, busySince := s.connection }
  else s

/-- `EdrPrinterReceiveDataTask`. -/
def EdrPrinterReceiveDataTask (s : Spp) : Spp :=
  if s.DP.length < 50 ∧ s.EdrBusy then
    { s.transport_spp_flow_enable false with EdrBusy := false }
  else s

/-- `transport_spp_recieve_cbk`, for the channel of the peer that sent the data. -/
def transport_spp_recieve_cbk (channel : UInt16) (buf : List UInt8) (s : Spp) : Spp :=
  { s with spp_channel := channel }.EdrPrinterReceiveDataISR buf

/-- One action. A new connection starts with sending allowed, and only a connected peer sends. -/
def next (s : Spp) : Action → Spp
  | .connect channel hne =>
    { s with peer := some ⟨channel, hne, false⟩, connection := s.connection + 1 }
  | .disconnect => { s with spp_channel := 0, peer := none }
  | .receive buf =>
    match s.peer with
    | some p => s.transport_spp_recieve_cbk p.channel buf
    | none => s
  | .task => s.EdrPrinterReceiveDataTask
  | .pop => { s with DP := s.DP.tail }
  | .owner method => { s with method := method }

/-- The channel at boot. -/
def init : Spp where
  spp_channel := 0
  EdrBusy := false
  DP := []
  method := .IDLE
  peer := none
  connection := 0
  busySince := 0

/-- One action. -/
def Step (s s' : Spp) : Prop := ∃ a, s' = s.next a

/-- What flow control owes the peer: after a receive callback that leaves more packets than the
threshold it is stopped, and a stopped peer goes on after the first periodic call that finds fewer
than 50. -/
def Meets (s : Spp) : Action → Prop
  | .receive buf => (s.next (.receive buf)).DP.length > s.threshold →
      ∀ p, (s.next (.receive buf)).peer = some p → p.stopped = true
  | .task => s.DP.length < 50 → ∀ p, (s.next .task).peer = some p → p.stopped = false
  | _ => True

/-- A receive callback that leaves more packets than the threshold does not find `EdrBusy` left over
from an earlier connection. -/
def Allows (s : Spp) : Action → Prop
  | .receive buf => s.DP.length + (pieces buf 0).length > s.threshold → s.peer.isSome →
      s.EdrBusy = true → s.busySince = s.connection
  | _ => True

/-- A stopped peer is the one that `EdrBusy` and `spp_channel` speak of. -/
structure Holds (s : Spp) : Prop where
  stopped : ∀ p, s.peer = some p → p.stopped = true → s.EdrBusy = true ∧ s.spp_channel = p.channel
  busy : ∀ p, s.peer = some p → s.EdrBusy = true → (p.stopped = true ↔ s.busySince = s.connection)
  busySince : s.busySince ≤ s.connection

theorem init_holds : init.Holds where
  stopped := nofun
  busy := nofun
  busySince := Nat.le_refl _

/-- A command to the channel of the peer reaches it. -/
theorem flow_enable_peer (hp : s.peer = some p) (hch : s.spp_channel = p.channel) (en : Bool) :
    (s.transport_spp_flow_enable en).peer = some { p with stopped := en } := by
  unfold transport_spp_flow_enable
  rw [if_pos (hch ▸ p.channel_ne), hp, Option.map_some, if_pos hch.symm]

/-- A command changes at most `stopped` of the peer. -/
theorem flow_enable_some {en : Bool} (h : (s.transport_spp_flow_enable en).peer = some p) :
    ∃ q, s.peer = some q ∧ p.channel = q.channel ∧ (p.stopped = en ∨ p = q) := by
  unfold transport_spp_flow_enable at h
  split at h
  next =>
    obtain ⟨q, hq, rfl⟩ := Option.map_eq_some_iff.1 h
    refine ⟨q, hq, ?_⟩
    split
    · exact ⟨rfl, .inl rfl⟩
    · exact ⟨rfl, .inr rfl⟩
  next => exact ⟨p, h, rfl, .inr rfl⟩

@[simp] theorem flow_enable_spp_channel (en : Bool) :
    (s.transport_spp_flow_enable en).spp_channel = s.spp_channel := by
  unfold transport_spp_flow_enable
  split <;> rfl

@[simp] theorem flow_enable_connection (en : Bool) :
    (s.transport_spp_flow_enable en).connection = s.connection := by
  unfold transport_spp_flow_enable
  split <;> rfl

@[simp] theorem flow_enable_busySince (en : Bool) :
    (s.transport_spp_flow_enable en).busySince = s.busySince := by
  unfold transport_spp_flow_enable
  split <;> rfl

/-- The state of a receive callback before it decides whether to tell the peer to stop. -/
def queued (s : Spp) (p : SppPeer) (buf : List UInt8) : Spp :=
  { s with spp_channel := p.channel, DP := s.DP ++ pieces buf 0 }

/-- What a receive callback does. -/
theorem receive_eq (hp : s.peer = some p) (buf : List UInt8) :
    s.next (.receive buf) =
      if s.DP.length + (pieces buf 0).length > s.threshold ∧ s.EdrBusy = false then
        { (s.queued p buf).transport_spp_flow_enable true with
          EdrBusy := true, busySince := s.connection }
      else s.queued p buf := by
  unfold next
  rw [hp]
  simp only [transport_spp_recieve_cbk, EdrPrinterReceiveDataISR, List.length_append]
  rfl

/-- A receive callback keeps the correspondence. -/
theorem Holds.receive (h : s.Holds) (buf : List UInt8) : (s.next (.receive buf)).Holds := by
  cases hp : s.peer with
  | none =>
    unfold next
    rw [hp]
    exact h
  | some p =>
    have hq : (s.queued p buf).peer = some p := hp
    have hconn : ((s.queued p buf).transport_spp_flow_enable true).connection = s.connection :=
      flow_enable_connection true
    rw [receive_eq hp]
    split
    next =>
      refine ⟨fun q hq' _ => ⟨rfl, ?_⟩, ?_, ?_⟩
      · rw [flow_enable_peer hq rfl] at hq'
        cases hq'
        exact flow_enable_spp_channel true
      · intro q hq' _
        rw [flow_enable_peer hq rfl] at hq'
        cases hq'
        exact ⟨fun _ => hconn.symm, fun _ => rfl⟩
      · exact Nat.le_of_eq hconn.symm
    next =>
      refine ⟨?_, ?_, h.busySince⟩
      · intro q hq' hstop
        obtain rfl : p = q := Option.some.inj (hq.symm.trans hq')
        exact ⟨(h.stopped p hp hstop).1, rfl⟩
      · intro q hq' hbusy
        obtain rfl : p = q := Option.some.inj (hq.symm.trans hq')
        exact h.busy p hp hbusy

/-- A periodic call keeps the correspondence, and leaves no peer stopped if it releases the
channel. -/
theorem Holds.task (h : s.Holds) : (s.next .task).Holds ∧
    (s.DP.length < 50 → ∀ p, (s.next .task).peer = some p → p.stopped = false) := by
  have hnext : s.next .task =
      if s.DP.length < 50 ∧ s.EdrBusy then
        { s.transport_spp_flow_enable false with EdrBusy := false } else s := rfl
  -- the command reaches the peer that is stopped
  have hfree : ∀ p, (s.transport_spp_flow_enable false).peer = some p → p.stopped = false := by
    intro p hp
    obtain ⟨q, hq, -, hstop | rfl⟩ := flow_enable_some hp
    · exact hstop
    · by_contra hstop
      obtain ⟨-, hch⟩ := h.stopped p hq (by simpa using hstop)
      rw [flow_enable_peer hq hch] at hp
      exact hstop (by rw [← Option.some.inj hp])
  rw [hnext]
  split
  next =>
    refine ⟨⟨?_, nofun, ?_⟩, fun _ => hfree⟩
    · intro p hp hstop
      rw [hfree p hp] at hstop
      cases hstop
    · have hsince : (s.transport_spp_flow_enable false).busySince ≤
          (s.transport_spp_flow_enable false).connection := by
        rw [flow_enable_busySince, flow_enable_connection]
        exact h.busySince
      exact hsince
  next hcond =>
    refine ⟨h, ?_⟩
    intro hlen p hp
    by_contra hstop
    exact hcond ⟨hlen, (h.stopped p hp (by simpa using hstop)).1⟩

/-- Every action keeps the correspondence. -/
theorem Holds.step (h : s.Holds) (hstep : Step s s') : s'.Holds := by
  obtain ⟨a, rfl⟩ := hstep
  cases a with
  | connect channel hne =>
    refine ⟨?_, ?_, Nat.le_succ_of_le h.busySince⟩
    · intro p hp hstop
      cases hp
      cases hstop
    · intro p hp _
      cases hp
      refine ⟨nofun, ?_⟩
      intro heq
      have hle := h.busySince
      have heq : s.busySince = s.connection + 1 := heq
      omega
  | disconnect => exact ⟨nofun, nofun, h.busySince⟩
  | receive buf => exact h.receive buf
  | task => exact h.task.1
  | pop => exact ⟨h.stopped, h.busy, h.busySince⟩
  | owner method => exact ⟨h.stopped, h.busy, h.busySince⟩

/-- **SPP flow control follows the queue** in every state of every run, exactly if the receive
callback does not find `EdrBusy` left over from an earlier connection. -/
theorem spp_flow_iff (h : ReflTransGen Step init s) (a : Action) : s.Meets a ↔ s.Allows a := by
  have hold : s.Holds := Runs.invariant (fun _ _ hs hstep => hs.step hstep) h init_holds
  cases a with
  | receive buf =>
    cases hp : s.peer with
    | none =>
      have hnext : (s.next (.receive buf)).peer = none := by
        unfold next
        rw [hp]
        exact hp
      refine iff_of_true ?_ ?_
      · intro _ p hp'
        rw [hnext] at hp'
        cases hp'
      · intro _ hsome
        rw [hp] at hsome
        cases hsome
    | some p =>
      have hq : (s.queued p buf).peer = some p := hp
      simp only [Meets, Allows]
      rw [receive_eq hp]
      by_cases hlong : s.DP.length + (pieces buf 0).length > s.threshold
      · by_cases hbusy : s.EdrBusy = true
        · -- nothing is told: the peer has been stopped in this connection, or it is not
          rw [if_neg (by simp [hbusy])]
          have hlen : (s.queued p buf).DP.length > s.threshold := by
            rw [queued, List.length_append]
            exact hlong
          constructor
          · intro hmeets _ _ _
            exact (hold.busy p hp hbusy).1 (hmeets hlen p hq)
          · intro hallows _ q hq'
            obtain rfl : p = q := Option.some.inj (hq.symm.trans hq')
            exact (hold.busy p hp hbusy).2 (hallows hlong (by rw [hp]; rfl) hbusy)
        · rw [if_pos ⟨hlong, by simpa using hbusy⟩]
          refine iff_of_true ?_ fun _ _ hbusy' => absurd hbusy' hbusy
          intro _ q hq'
          rw [flow_enable_peer hq rfl] at hq'
          cases hq'
          rfl
      · rw [if_neg fun hcond => hlong hcond.1]
        refine iff_of_true ?_ fun hlong' => absurd hlong' hlong
        intro hlen
        rw [queued, List.length_append] at hlen
        exact absurd hlen hlong
  | task => exact iff_of_true hold.task.2 trivial
  | _ => exact iff_of_true trivial trivial

/-- Another channel owns the printer, and the peer sends its 51st packet: it is told to stop. -/
theorem spp_flow_iff_stopped :
    ∃ s, ReflTransGen Step init s ∧ (s.next (.receive [0])).DP.length > s.threshold ∧
      s.EdrBusy = false ∧ (s.next (.receive [0])).peer.map SppPeer.stopped = some true ∧
      (s.Meets (.receive [0]) ↔ s.Allows (.receive [0])) := by
  let run : List Action :=
    [.owner .USB, .connect 1 (by decide)] ++ List.replicate 50 (.receive [0])
  have hrun : ReflTransGen Step init (run.foldl next init) :=
    Runs.foldl (fun s a => ⟨a, rfl⟩) init run
  exact ⟨_, hrun, by decide +kernel, by decide +kernel, by decide +kernel, spp_flow_iff hrun _⟩

/-- **A peer that connects with `EdrBusy` left over is not told to stop**: another channel owns the
printer, the first peer sends 51 packets, is told to stop and disconnects, and the second one sends
a packet. -/
theorem next_peer_unheld :
    ∃ s, ReflTransGen Step init s ∧ s.EdrBusy = true ∧ ¬ s.Meets (.receive [0]) := by
  let run : List Action := [.owner .USB, .connect 1 (by decide)] ++
    List.replicate 51 (.receive [0]) ++ [.disconnect, .connect 1 (by decide)]
  let s := run.foldl next init
  have hrun : ReflTransGen Step init s := Runs.foldl (fun s a => ⟨a, rfl⟩) init run
  have hbusy : s.EdrBusy = true := by decide +kernel
  have hlong : (s.next (.receive [0])).DP.length > s.threshold := by decide +kernel
  have hpeer : (s.next (.receive [0])).peer.map SppPeer.stopped = some false := by decide +kernel
  refine ⟨s, hrun, hbusy, ?_⟩
  intro hmeets
  obtain ⟨p, hp, hstop⟩ := Option.map_eq_some_iff.1 hpeer
  have hstopped := hmeets hlong p hp
  rw [hstop] at hstopped
  cases hstopped

end Spp

end ThermalPrinter
