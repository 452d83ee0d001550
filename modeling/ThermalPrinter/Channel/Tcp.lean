import Mathlib.Data.List.Nodup
import ThermalPrinter.Channel.Tasks

/-!
# The TCP server

The accept thread puts a record for every client into a list, and the receive thread takes the last
one, receives until the connection ends and quits it. `disableTCPTask` quits the record of the
session from outside. A `Tcp` is the state between two atomic actions of these three; an action is
one access to what they share, and the list functions are closed.

The receive thread asks about the socket of a record right after the record has been freed, so no
session ends without a read after a free. The flag that stops the accept thread is raised after the
receive thread has found the record, so the accept thread, which looks at it first, waits for
another client. In the runs where this client comes only when no record is linked (as it does where
the flag is raised in time, `head_of_gated`), where `disableTCPTask` quits only the session of a
receive thread that waits in `sock_recv`, and where the accept thread has logged a record before it
is freed, this read is the only one: there is one session at a time, and the record of a connection
that has ended is freed once (`tcp_sessions`).
-/

namespace ThermalPrinter

open Relation

/-- Where a thread is in `tcp_client_quit(priv)`: at the test of `OEMQuitFlag`, at its assignment,
at `closesocket`, at `list_del`, and where the socket is given back and the record is freed. -/
inductive QuitPc
  | test (priv : Nat)
  | set (priv : Nat)
  | close (priv : Nat)
  | del (priv : Nat)
  | free (priv : Nat)
  deriving DecidableEq, Repr

/-- Where the accept thread is: before its loop, at `calloc`, at the loop on `SocketTaskRunning`, in
`sock_accept`, at `list_add_tail`, at the log line that prints the record's address, or returned. -/
inductive AcceptPc
  | start
  | calloc
  | gate (client_info : Nat)
  | accept (client_info : Nat)
  | link (client_info : Nat)
  | print (client_info : Nat)
  | done
  deriving DecidableEq, Repr

/-- Where the receive thread is: at `get_tcp_client_info`, at the test of what it returned, at the
copy of the record, at the assignments of the two flags, at the read of the record's socket, in
`sock_recv`, in `tcp_client_quit`, after it, and at `isSocketClosed`. -/
inductive RecvPc
  | poll
  | polled
  | copy
  | clear
  | raise
  | read
  | recv (fd : Option Nat)
  | quit (pc : QuitPc)
  | finish
  | check
  deriving DecidableEq, Repr

/-- Where `disableTCPTask` is: not running, at the test of `client_infoCCC`, in `tcp_client_quit`,
and at its last line. -/
inductive DisablePc
  | idle
  | check
  | quit (pc : QuitPc)
  | last
  deriving DecidableEq, Repr

/-- The accept thread is in `sock_accept`. -/
def AcceptPc.waits : AcceptPc → Bool
  | .accept _ => true
  | _ => false

/-- The receive thread is in `sock_recv`. -/
def RecvPc.waits : RecvPc → Bool
  | .recv _ => true
  | _ => false

/-- The record that the receive thread is about to free. -/
def RecvPc.frees : RecvPc → Option Nat
  | .quit (.free priv) => some priv
  | _ => none

/-- The record for which `disableTCPTask` is about to test `OEMQuitFlag`. -/
def DisablePc.tests : DisablePc → Option Nat
  | .quit (.test priv) => some priv
  | _ => none

/-- The record that it quits, having tested the flag. -/
def DisablePc.quits : DisablePc → Option Nat
  | .quit (.set priv) | .quit (.close priv) | .quit (.del priv) | .quit (.free priv) => some priv
  | _ => none

/-- The record that it is about to free. -/
def DisablePc.frees : DisablePc → Option Nat
  | .quit (.free priv) => some priv
  | _ => none

/-- The records, the list, the globals and the threads. Records are numbered by `calloc`, `fresh`
being the next one, and the socket that `sock_accept` returns has the number of its record. The
sockets of `ended` have lost their connection, and those of `closed` have been closed here.

The last fields record the history: the records that were linked, those that were freed (once for
every `free`), the reads of a freed record, the calls of `isSocketClosed`, and the actions of the
receive thread. -/
structure Tcp where
  fresh : Nat
  fd : Nat → Option Nat
  client_head : List Nat
  SocketTaskRunning : Bool
  OEMQuitFlag : Bool
  client_infoCCC : Option Nat
  tcp_client_info_sang : Option Nat
  DP : List (List UInt8)
  ended : List Nat
  closed : List Nat
  accept : AcceptPc
  recv : RecvPc
  disable : DisablePc
  linked : List Nat
  freed : List Nat
  readsAfterFree : Nat
  checks : Nat
  turns : Nat

namespace Tcp

variable {s s' : Tcp} {r : Nat}

/-- A thread reads a record. -/
def read (record : Nat) (s : Tcp) : Tcp :=
  if record ∈ s.freed then { s with readsAfterFree := s.readsAfterFree + 1 } else s

/-- The walk over the list reads every record in it. -/
def readAll (records : List Nat) (s : Tcp) : Tcp := records.foldl (fun s record => s.read record) s

/-- `sock_recv` fails on a socket that is NULL, has been closed or has lost its connection. -/
def failed (fd : Option Nat) (s : Tcp) : Bool :=
  match fd with
  | none => true
  | some socket => socket ∈ s.ended || socket ∈ s.closed

/-- `tcp_client_quit`: one action, and where the thread is then, unless it has returned. -/
def tcp_client_quit (pc : QuitPc) (s : Tcp) : Tcp × Option QuitPc :=
  match pc with
  | .test priv => (s, if s.OEMQuitFlag = false then some (.set priv) else none)
  | .set priv => ({ s with OEMQuitFlag := true }, some (.close priv))
  | .close priv => ({ s.read priv with closed := (s.fd priv).toList ++ s.closed }, some (.del priv))
  | .del priv => ({ s.read priv with client_head := s.client_head.erase priv }, some (.free priv))
  | .free priv =>
    ({ s.read priv with fd := Function.update s.fd priv none, freed := priv :: s.freed }, none)

/-- One action of `Printer_Tcp_Sock_Accpet`; `ok` says whether `calloc` or `sock_accept`
succeeds. -/
def Printer_Tcp_Sock_Accpet (ok : Bool) (s : Tcp) : Tcp :=
  match s.accept with
  | .start => { s with SocketTaskRunning := false, accept := .calloc }
  | .calloc =>
    if ok then
      { s with
        fresh := s.fresh + 1
        fd := Function.update s.fd s.fresh none
        accept := .gate s.fresh }
    else { s with accept := .done }
  | .gate client_info =>
    { s with accept := if s.SocketTaskRunning then .gate client_info else .accept client_info }
  | .accept client_info =>
    if ok then
      { s with
        fd := Function.update s.fd client_info (some client_info)
        accept := .link client_info }
    else { s with accept := .done }
  | .link client_info =>
    { s with
      client_head := s.client_head ++ [client_info]
      linked := client_info :: s.linked
      accept := .print client_info }
  | .print client_info => { s.read client_info with accept := .calloc }
  | .done => s

/-- The receive thread waits in `sock_recv`. -/
def blocked (data : List UInt8) (s : Tcp) : Bool :=
  match s.recv with
  | .recv fd => data.isEmpty && !s.failed fd
  | _ => false

/-- One action of `Printer_Tcp_Recv_handler`; `data` is what has arrived. A null pointer is not
followed. -/
def Printer_Tcp_Recv_handler (data : List UInt8) (s : Tcp) : Tcp :=
  match s.recv with
  | .poll =>
    { s.readAll s.client_head with client_infoCCC := s.client_head.getLast?, recv := .polled }
  | .polled => { s with recv := if s.client_infoCCC.isNone then .poll else .copy }
  | .copy =>
    match s.client_infoCCC with
    | some client_info =>
      { s.read client_info with tcp_client_info_sang := s.fd client_info, recv := .clear }
    | none => s
  | .clear => { s with OEMQuitFlag := false, recv := .raise }
  | .raise => { s with SocketTaskRunning := true, recv := .read }
  | .read =>
    match s.client_infoCCC with
    | some client_info => { s.read client_info with recv := .recv (s.fd client_info) }
    | none => s
  | .recv fd =>
    if s.failed fd then
      { s with recv := s.client_infoCCC.elim .finish fun client_info => .quit (.test client_info) }
    else { s with DP := s.DP ++ pieces (data.take 1024) 0, recv := .read }
  | .quit pc =>
    { (s.tcp_client_quit pc).1 with recv := (s.tcp_client_quit pc).2.elim .finish .quit }
  | .finish =>
    { s with tcp_client_info_sang := none, SocketTaskRunning := false, recv := .check }
  | .check =>
    match s.client_infoCCC with
    | some client_info => { s.read client_info with checks := s.checks + 1, recv := .poll }
    | none => s

/-- One action of `disableTCPTask`. -/
def disableTCPTask (s : Tcp) : Tcp :=
  match s.disable with
  | .idle => { s with tcp_client_info_sang := none, disable := .check }
  | .check =>
    { s with
      disable := s.client_infoCCC.elim .last fun client_info => .quit (.test client_info) }
  | .quit pc =>
    { (s.tcp_client_quit pc).1 with disable := (s.tcp_client_quit pc).2.elim .last .quit }
  | .last => { s with SocketTaskRunning := false, disable := .idle }

/-- The three threads, and the end of a connection. -/
inductive Action
  | accept (ok : Bool)
  | recv (data : List UInt8)
  | disable
  | ends (socket : Nat)

/-- One action. -/
def next (s : Tcp) : Action → Tcp
  | .accept ok => s.Printer_Tcp_Sock_Accpet ok
  | .recv data =>
    if s.blocked data then s
    else { s.Printer_Tcp_Recv_handler data with turns := s.turns + 1 }
  | .disable => s.disableTCPTask
  | .ends socket => { s with ended := socket :: s.ended }

/-- The server when its threads are forked. -/
def init : Tcp where
  fresh := 0
  fd := fun _ => none
  client_head := []
  SocketTaskRunning := false
  OEMQuitFlag := false
  client_infoCCC := none
  tcp_client_info_sang := none
  DP := []
  ended := []
  closed := []
  accept := .start
  recv := .poll
  disable := .idle
  linked := []
  freed := []
  readsAfterFree := 0
  checks := 0
  turns := 0

/-- One action. -/
def Step (s s' : Tcp) : Prop := ∃ a, s' = s.next a

/-- What the server relies on: a client connects only when no record is linked, which it cannot do
earlier where the flag is raised before the accept thread looks at it (`head_of_gated`);
`disableTCPTask` gets past the test of `OEMQuitFlag` only for the session of a receive thread that
waits in `sock_recv`, which goes on when its record has been freed; and the accept thread has logged
a record before it is freed. -/
def Allows (s : Tcp) : Action → Prop
  | .accept ok => ok = true → s.accept.waits = true → s.client_head = []
  | .recv data =>
    s.blocked data = true ∨ s.disable.quits = none ∧ ∀ r ∈ s.recv.frees, s.accept ≠ .print r
  | .disable =>
    (∀ r ∈ s.disable.tests,
      s.OEMQuitFlag = true ∨ s.recv.waits = true ∧ s.client_infoCCC = some r) ∧
      ∀ r ∈ s.disable.frees, s.accept ≠ .print r
  | .ends _ => True

instance Allows.decidable (s : Tcp) : (a : Action) → Decidable (s.Allows a)
  | .accept _ => inferInstanceAs (Decidable (_ → _ → _))
  | .recv _ => inferInstanceAs (Decidable (_ ∨ _ ∧ _))
  | .disable => inferInstanceAs (Decidable (_ ∧ _))
  | .ends _ => .isTrue trivial

/-- One allowed action. -/
def Allowed (s s' : Tcp) : Prop := ∃ a, s.Allows a ∧ s' = s.next a

/-- The receive thread has a session with the record. -/
def Session (s : Tcp) (record : Nat) : Prop :=
  s.client_infoCCC = some record ∧ record ∈ s.client_head

/-- The connection has ended: the client has gone, or the socket was closed here. -/
def Over (s : Tcp) (socket : Nat) : Prop := socket ∈ s.ended ∨ socket ∈ s.closed

/-- The record of the session has left the list and is about to be freed. -/
def Unlinked (s : Tcp) (record : Nat) : Prop :=
  s.client_infoCCC = some record ∧ record ∈ s.linked ∧ record ∉ s.client_head ∧
    record ∉ s.freed ∧ s.Over record

/-- The record has been linked and has not been freed. -/
def Pending (s : Tcp) (record : Nat) : Prop :=
  record ∈ s.client_head ∨ s.recv.frees = some record ∨ s.disable.frees = some record

/-- What the receive thread relies on at each place. Its session may have been quit by
`disableTCPTask` while it is in `sock_recv`, which then fails, and the test of `OEMQuitFlag` tells
it. -/
def RecvOk (s : Tcp) : RecvPc → Prop
  | .poll => True
  | .polled => ∀ r, s.client_infoCCC = some r → r ∈ s.client_head
  | .copy | .clear => ∃ r, s.Session r
  | .raise | .read => s.OEMQuitFlag = false ∧ ∃ r, s.Session r
  | .recv fd => ∃ r, s.client_infoCCC = some r ∧ fd = some r ∧
      (s.disable.quits = some r ∨ s.OEMQuitFlag = false ∧ r ∈ s.client_head ∨
        s.OEMQuitFlag = true ∧ r ∈ s.freed ∧ r ∈ s.closed)
  | .quit (.test r) =>
    s.OEMQuitFlag = false ∧ s.Session r ∧ s.Over r ∨
      s.OEMQuitFlag = true ∧ s.client_infoCCC = some r ∧ r ∈ s.freed
  | .quit (.set r) | .quit (.close r) | .quit (.del r) => s.Session r ∧ s.Over r
  | .quit (.free r) => s.Unlinked r
  | .finish | .check => ∃ r, s.client_infoCCC = some r ∧ r ∈ s.freed

/-- The record the accept thread has not linked yet is its own and will be the only one, and the one
that it logs is live. -/
def AcceptOk (s : Tcp) : AcceptPc → Prop
  | .gate r | .accept r => r < s.fresh ∧ r ∉ s.linked
  | .link r => r < s.fresh ∧ r ∉ s.linked ∧ s.fd r = some r ∧ s.client_head = []
  | .print r => r ∉ s.freed
  | _ => True

/-- Past the test of the flag, `disableTCPTask` quits the session of the receive thread. -/
def DisableOk (s : Tcp) : DisablePc → Prop
  | .quit (.set r) => s.recv = .recv (some r) ∧ s.Session r
  | .quit (.close r) => s.recv = .recv (some r) ∧ s.OEMQuitFlag = true ∧ s.Session r
  | .quit (.del r) =>
    s.recv = .recv (some r) ∧ s.OEMQuitFlag = true ∧ s.Session r ∧ r ∈ s.closed
  | .quit (.free r) =>
    s.recv = .recv (some r) ∧ s.OEMQuitFlag = true ∧ s.Unlinked r ∧ r ∈ s.closed
  | _ => True

/-- What holds of the records: those in the list have been linked, are live and have their socket,
and there is at most one; those freed were freed once, after their connection ended; and the only
reads of a freed record are those of `isSocketClosed`. -/
structure Records (s : Tcp) : Prop where
  linked_lt : ∀ r ∈ s.linked, r < s.fresh
  head_linked : ∀ r ∈ s.client_head, r ∈ s.linked
  freed_linked : ∀ r ∈ s.freed, r ∈ s.linked
  head_length : s.client_head.length ≤ 1
  live : ∀ r ∈ s.client_head, r ∉ s.freed
  socket : ∀ r ∈ s.client_head, s.fd r = some r
  freed_nodup : s.freed.Nodup
  freed_over : ∀ r ∈ s.freed, s.Over r
  reads : s.readsAfterFree = s.checks

/-- What the threads keep. -/
structure Inv (s : Tcp) : Prop where
  records : s.Records
  accept : s.AcceptOk s.accept
  recv : s.RecvOk s.recv
  disable : s.DisableOk s.disable
  linked : ∀ r ∈ s.linked, s.Pending r ∨ r ∈ s.freed

theorem init_inv : init.Inv where
  records := ⟨nofun, nofun, nofun, Nat.zero_le _, nofun, nofun, .nil, nofun, rfl⟩
  accept := trivial
  recv := trivial
  disable := trivial
  linked := nofun

theorem read_of_live (h : r ∉ s.freed) : s.read r = s := if_neg h

theorem read_of_freed (h : r ∈ s.freed) :
    s.read r = { s with readsAfterFree := s.readsAfterFree + 1 } := if_pos h

theorem readAll_of_live : ∀ {rs : List Nat}, (∀ r ∈ rs, r ∉ s.freed) → s.readAll rs = s
  | [], _ => rfl
  | r :: rs, h => by
    have hread : s.read r = s := read_of_live (h r (List.mem_cons_self ..))
    have hrest : s.readAll rs = s :=
      readAll_of_live fun r hr => h r (List.mem_cons_of_mem _ hr)
    calc s.readAll (r :: rs) = (s.read r).readAll rs := rfl
      _ = s.readAll rs := by rw [hread]
      _ = s := hrest

/-! ## The records -/

/-- The list is the record that it has. -/
theorem Records.head_eq (h : s.Records) (hr : r ∈ s.client_head) : s.client_head = [r] := by
  have hlen := h.head_length
  cases hhead : s.client_head with
  | nil =>
    rw [hhead] at hr
    cases hr
  | cons a rest =>
    rw [hhead] at hlen hr
    obtain rfl : rest = [] := List.eq_nil_of_length_eq_zero (by simpa using hlen)
    rw [List.mem_singleton.1 hr]

/-- Two records of the list are one. -/
theorem Records.head_unique (h : s.Records) {q : Nat} (hq : q ∈ s.client_head)
    (hr : r ∈ s.client_head) : q = r :=
  List.mem_singleton.1 (h.head_eq hr ▸ hq)

/-- A write to the socket of a record that is not in the list. -/
theorem Records.update_fd (h : s.Records) (hr : r ∉ s.client_head) (fd : Option Nat) :
    ∀ q ∈ s.client_head, Function.update s.fd r fd q = some q := by
  intro q hq
  have hne : q ≠ r := fun heq => hr (heq ▸ hq)
  rw [Function.update_of_ne hne]
  exact h.socket q hq

/-! The actions of `tcp_client_quit` on the record of a session. -/

theorem quit_test : s.tcp_client_quit (.test r) =
    (s, if s.OEMQuitFlag = false then some (.set r) else none) := rfl

theorem Records.quit_close (h : s.Records) (hr : r ∈ s.client_head) :
    s.tcp_client_quit (.close r) = ({ s with closed := r :: s.closed }, some (.del r)) := by
  rw [tcp_client_quit, read_of_live (h.live r hr), h.socket r hr]
  rfl

theorem Records.quit_del (h : s.Records) (hr : r ∈ s.client_head) :
    s.tcp_client_quit (.del r) = ({ s with client_head := [] }, some (.free r)) := by
  rw [tcp_client_quit, read_of_live (h.live r hr), h.head_eq hr, List.erase_cons_head]

theorem Unlinked.quit_free (h : s.Unlinked r) : s.tcp_client_quit (.free r) =
    ({ s with fd := Function.update s.fd r none, freed := r :: s.freed }, none) := by
  rw [tcp_client_quit, read_of_live h.2.2.2.1]

theorem Records.close (h : s.Records) : Records { s with closed := r :: s.closed } :=
  { h with freed_over := fun q hq => (h.freed_over q hq).imp_right (List.mem_cons_of_mem _) }

theorem Records.del (h : s.Records) : Records { s with client_head := [] } :=
  { h with head_linked := nofun, head_length := Nat.zero_le _, live := nofun, socket := nofun }

theorem Records.free (h : s.Records) (hu : s.Unlinked r) :
    Records { s with fd := Function.update s.fd r none, freed := r :: s.freed } := by
  obtain ⟨-, hl, hh, hf, ho⟩ := hu
  refine { h with
    freed_linked := ?_, live := ?_, socket := h.update_fd hh none,
    freed_nodup := List.nodup_cons.2 ⟨hf, h.freed_nodup⟩, freed_over := ?_ }
  · intro q hq
    obtain rfl | hq := List.mem_cons.1 hq
    · exact hl
    · exact h.freed_linked q hq
  · intro q hq hfreed
    obtain rfl | hfreed := List.mem_cons.1 hfreed
    · exact hh hq
    · exact h.live q hq hfreed
  · intro q hq
    obtain rfl | hq := List.mem_cons.1 hq
    · exact ho
    · exact h.freed_over q hq

/-- What the accept thread relies on is kept when the record of a session leaves the list. -/
theorem AcceptOk.del (h : s.AcceptOk s.accept) :
    AcceptOk { s with client_head := [] } s.accept := by
  revert h
  cases s.accept with
  | link q => exact fun ⟨hlt, hnew, hfd, _⟩ => ⟨hlt, hnew, hfd, rfl⟩
  | _ => exact id

/-- And when it is freed: it is not the one of the accept thread, which has logged it. -/
theorem AcceptOk.free (h : s.AcceptOk s.accept) (hl : r ∈ s.linked)
    (hlogged : s.accept ≠ .print r) :
    AcceptOk { s with fd := Function.update s.fd r none, freed := r :: s.freed } s.accept := by
  revert h hlogged
  cases s.accept with
  | link q =>
    rintro ⟨hlt, hnew, hfd, hhead⟩ -
    have hne : q ≠ r := fun heq => hnew (heq ▸ hl)
    exact ⟨hlt, hnew, (Function.update_of_ne hne ..).trans hfd, hhead⟩
  | print q =>
    intro hlive hlogged hfreed
    obtain rfl | hfreed := List.mem_cons.1 hfreed
    · exact hlogged rfl
    · exact hlive hfreed
  | _ => exact fun h _ => h

/-! ## The actions -/

/-- An action leaves alone what the receive thread is doing, and only adds records to the list. -/
structure Frame (s s' : Tcp) : Prop where
  recv : s'.recv = s.recv
  quits : s'.disable.quits = s.disable.quits
  frees : s'.disable.frees = s.disable.frees
  client_infoCCC : s'.client_infoCCC = s.client_infoCCC
  OEMQuitFlag : s'.OEMQuitFlag = s.OEMQuitFlag
  freed : s'.freed = s.freed
  closed : s'.closed = s.closed
  ended : ∀ r ∈ s.ended, r ∈ s'.ended
  linked : ∀ r ∈ s.linked, r ∈ s'.linked
  client_head : ∀ r ∈ s.client_head, r ∈ s'.client_head
  new : ∀ r ∈ s.linked, r ∈ s'.client_head → r ∈ s.client_head

theorem Frame.over (hf : Frame s s') (h : s.Over r) : s'.Over r := by
  rw [Over, hf.closed]
  exact h.imp_left (hf.ended r)

theorem Frame.session (hf : Frame s s') (h : s.Session r) : s'.Session r :=
  ⟨hf.client_infoCCC.trans h.1, hf.client_head r h.2⟩

theorem Frame.unlinked (hf : Frame s s') (h : s.Unlinked r) : s'.Unlinked r := by
  obtain ⟨hinfo, hl, hh, hfree, ho⟩ := h
  refine ⟨hf.client_infoCCC.trans hinfo, hf.linked r hl, fun hh' => hh (hf.new r hl hh'), ?_,
    hf.over ho⟩
  rwa [hf.freed]

theorem Frame.pending (hf : Frame s s') (h : s.Pending r) : s'.Pending r := by
  rw [Pending, hf.recv, hf.frees]
  exact h.imp_left (hf.client_head r)

/-- Such an action keeps what the receive thread relies on. -/
theorem Frame.recvOk (hf : Frame s s') (h : s.RecvOk s.recv) : s'.RecvOk s'.recv := by
  rw [hf.recv]
  revert h
  cases s.recv with
  | poll => exact id
  | polled => exact fun h r hr => hf.client_head r (h r (hf.client_infoCCC ▸ hr))
  | copy | clear => exact fun ⟨r, hs⟩ => ⟨r, hf.session hs⟩
  | raise | read => exact fun ⟨hflag, r, hs⟩ => ⟨hf.OEMQuitFlag.trans hflag, r, hf.session hs⟩
  | recv fd =>
    rintro ⟨r, hinfo, rfl, h⟩
    refine ⟨r, hf.client_infoCCC.trans hinfo, rfl, ?_⟩
    rw [hf.quits, hf.OEMQuitFlag, hf.freed, hf.closed]
    exact h.imp_right (Or.imp_left (And.imp_right (hf.client_head r)))
  | quit pc =>
    cases pc with
    | test r =>
      simp only [RecvOk, hf.OEMQuitFlag, hf.freed, hf.client_infoCCC]
      exact Or.imp_left fun ⟨hflag, hs, ho⟩ => ⟨hflag, hf.session hs, hf.over ho⟩
    | set r | close r | del r => exact fun ⟨hs, ho⟩ => ⟨hf.session hs, hf.over ho⟩
    | free r => exact hf.unlinked
  | finish | check =>
    exact fun ⟨r, hinfo, hfreed⟩ => ⟨r, hf.client_infoCCC.trans hinfo, hf.freed ▸ hfreed⟩

/-- And what `disableTCPTask` relies on. -/
theorem Frame.disableOk (hf : Frame s s') (hdisable : s'.disable = s.disable)
    (h : s.DisableOk s.disable) : s'.DisableOk s'.disable := by
  rw [hdisable]
  revert h
  cases s.disable with
  | quit pc =>
    cases pc with
    | test r => exact id
    | set r => exact fun ⟨hrecv, hs⟩ => ⟨hf.recv.trans hrecv, hf.session hs⟩
    | close r =>
      exact fun ⟨hrecv, hflag, hs⟩ =>
        ⟨hf.recv.trans hrecv, hf.OEMQuitFlag.trans hflag, hf.session hs⟩
    | del r =>
      exact fun ⟨hrecv, hflag, hs, hc⟩ =>
        ⟨hf.recv.trans hrecv, hf.OEMQuitFlag.trans hflag, hf.session hs, hf.closed ▸ hc⟩
    | free r =>
      exact fun ⟨hrecv, hflag, hu, hc⟩ =>
        ⟨hf.recv.trans hrecv, hf.OEMQuitFlag.trans hflag, hf.unlinked hu, hf.closed ▸ hc⟩
  | _ => exact id

theorem Inv.accept_frame (h : s.Inv) {ok : Bool} : Frame s (s.Printer_Tcp_Sock_Accpet ok) := by
  have haccept := h.accept
  unfold Printer_Tcp_Sock_Accpet
  split
  case h_5 c hpc =>
    rw [hpc] at haccept
    refine ⟨rfl, rfl, rfl, rfl, rfl, rfl, rfl, fun _ => id,
      fun r hr => List.mem_cons_of_mem _ hr, fun r hr => List.mem_append_left _ hr, ?_⟩
    intro r hr hhead
    obtain hhead | hhead := List.mem_append.1 hhead
    · exact hhead
    · exact absurd (List.mem_singleton.1 hhead ▸ hr) haccept.2.1
  case h_6 c hpc =>
    rw [hpc] at haccept
    rw [read_of_live haccept]
    exact ⟨rfl, rfl, rfl, rfl, rfl, rfl, rfl, fun _ => id, fun _ => id, fun _ => id,
      fun _ _ => id⟩
  all_goals
    try split
    all_goals exact ⟨rfl, rfl, rfl, rfl, rfl, rfl, rfl, fun _ => id, fun _ => id,
      fun _ => id, fun _ _ => id⟩

/-- Such an action keeps the invariant if it keeps what is said of the records and of the accept
thread. -/
theorem Inv.frame (h : s.Inv) (hf : Frame s s') (hrecords : s'.Records)
    (haccept : s'.AcceptOk s'.accept) (hdisable : s'.disable = s.disable)
    (hlinked : ∀ r ∈ s'.linked, r ∈ s.linked ∨ r ∈ s'.client_head) : s'.Inv where
  records := hrecords
  accept := haccept
  recv := hf.recvOk h.recv
  disable := hf.disableOk hdisable h.disable
  linked r hr := by
    rw [hf.freed]
    obtain hr | hr := hlinked r hr
    · exact (h.linked r hr).imp_left hf.pending
    · exact .inl (.inl hr)

/-- What the accept thread links is a new record, with its socket, and the only one. -/
theorem Inv.accept_records (h : s.Inv) (ok : Bool) : (s.Printer_Tcp_Sock_Accpet ok).Records := by
  have hrec := h.records
  have haccept := h.accept
  unfold Printer_Tcp_Sock_Accpet
  split
  next => exact { hrec with }
  next =>
    split
    · have hfresh : s.fresh ∉ s.client_head :=
        fun hh => Nat.lt_irrefl _ (hrec.linked_lt _ (hrec.head_linked _ hh))
      exact { hrec with
        linked_lt := fun r hr => Nat.lt_succ_of_lt (hrec.linked_lt r hr)
        socket := hrec.update_fd hfresh none }
    · exact { hrec with }
  next => exact { hrec with }
  next c hpc =>
    rw [hpc] at haccept
    split
    · exact { hrec with
        socket := hrec.update_fd (fun hh => haccept.2 (hrec.head_linked _ hh)) _ }
    · exact { hrec with }
  next c hpc =>
    rw [hpc] at haccept
    obtain ⟨hlt, hnew, hfd, hempty⟩ := haccept
    have hhead : ∀ q ∈ s.client_head ++ [c], q = c := by
      intro q hq
      rw [hempty] at hq
      exact List.mem_singleton.1 hq
    refine { hrec with
      linked_lt := ?_, head_linked := ?_, freed_linked := ?_, head_length := ?_, live := ?_,
      socket := ?_ }
    · intro q hq
      obtain rfl | hq := List.mem_cons.1 hq
      · exact hlt
      · exact hrec.linked_lt q hq
    · exact fun q hq => List.mem_cons.2 (.inl (hhead q hq))
    · exact fun q hq => List.mem_cons_of_mem _ (hrec.freed_linked q hq)
    · dsimp only
      rw [hempty]
      exact Nat.le_refl 1
    · intro q hq hfreed
      rw [hhead q hq] at hfreed
      exact hnew (hrec.freed_linked c hfreed)
    · intro q hq
      rw [hhead q hq]
      exact hfd
  next c hpc =>
    rw [hpc] at haccept
    rw [read_of_live haccept]
    exact { hrec with }
  next => exact hrec

/-- A client that connects finds no record linked, and its record will be logged before it is
freed. -/
theorem Inv.accept_ok (h : s.Inv) {ok : Bool} (hallows : s.Allows (.accept ok)) :
    AcceptOk (s.Printer_Tcp_Sock_Accpet ok) (s.Printer_Tcp_Sock_Accpet ok).accept := by
  have haccept := h.accept
  unfold Printer_Tcp_Sock_Accpet
  split
  next => trivial
  next =>
    split
    · exact ⟨Nat.lt_succ_self _, fun hl => Nat.lt_irrefl _ (h.records.linked_lt _ hl)⟩
    · trivial
  next c hpc =>
    rw [hpc] at haccept
    dsimp only
    split <;> exact haccept
  next c hpc =>
    rw [hpc] at haccept
    split
    next hok =>
      have hempty : s.client_head = [] := hallows hok (by rw [hpc]; rfl)
      exact ⟨haccept.1, haccept.2, Function.update_self .., hempty⟩
    next => trivial
  next c hpc =>
    rw [hpc] at haccept
    exact fun hfreed => haccept.2.1 (h.records.freed_linked c hfreed)
  next => trivial
  next hpc =>
    rw [hpc]
    trivial

/-- The accept thread keeps the invariant. -/
theorem Inv.accept_step (h : s.Inv) {ok : Bool} (hallows : s.Allows (.accept ok)) :
    (s.Printer_Tcp_Sock_Accpet ok).Inv := by
  refine h.frame h.accept_frame (h.accept_records ok) (h.accept_ok hallows) ?_ ?_
  · have hread (c : Nat) : (s.read c).disable = s.disable := by
      unfold read
      split <;> rfl
    unfold Printer_Tcp_Sock_Accpet
    split
    case h_6 c _ => exact hread c
    all_goals
      try split
      all_goals rfl
  · have hread (c : Nat) : (s.read c).linked = s.linked := by
      unfold read
      split <;> rfl
    unfold Printer_Tcp_Sock_Accpet
    split
    case h_5 c _ =>
      intro r hr
      obtain rfl | hr := List.mem_cons.1 hr
      · exact .inr (List.mem_append_right _ (List.mem_singleton_self _))
      · exact .inl hr
    case h_6 c _ => exact fun r hr => .inl (hread c ▸ hr)
    all_goals
      try split
      all_goals exact fun _ => .inl

/-- A connection ends. -/
theorem ends_frame (socket : Nat) : Frame s (s.next (.ends socket)) :=
  ⟨rfl, rfl, rfl, rfl, rfl, rfl, rfl, fun _ hr => List.mem_cons_of_mem _ hr, fun _ => id,
    fun _ => id, fun _ _ => id⟩

theorem Inv.ends_step (h : s.Inv) (socket : Nat) : (s.next (.ends socket)).Inv :=
  h.frame (ends_frame socket)
    { h.records with
      freed_over := fun r hr => (ends_frame socket).over (h.records.freed_over r hr) }
    h.accept rfl fun _ => .inl

/-- A receive thread whose session `disableTCPTask` is quitting. -/
theorem recvOk_of_quits (hrecv : s.recv = .recv (some r)) (hinfo : s.client_infoCCC = some r)
    (hquits : s.disable.quits = some r) : s.RecvOk s.recv := by
  rw [hrecv]
  exact ⟨r, hinfo, rfl, .inl hquits⟩

/-- `disableTCPTask` gets past the test only for the session of the receive thread. -/
theorem Inv.disable_passes (h : s.Inv) (hallows : s.Allows .disable)
    (hpc : s.disable = .quit (.test r)) (hflag : s.OEMQuitFlag = false) :
    s.recv = .recv (some r) ∧ s.Session r := by
  have htests : s.disable.tests = some r := by rw [hpc]; rfl
  obtain hset | ⟨hwaits, hinfo⟩ := hallows.1 r htests
  · rw [hflag] at hset
    cases hset
  · have hrecv := h.recv
    cases hr : s.recv with
    | recv fd =>
      rw [hr] at hrecv
      obtain ⟨q, hq, rfl, hplace⟩ := hrecv
      obtain rfl : r = q := Option.some.inj (hinfo.symm.trans hq)
      obtain hquits | ⟨-, hhead⟩ | ⟨hset, -⟩ := hplace
      · rw [hpc] at hquits
        cases hquits
      · exact ⟨rfl, hq, hhead⟩
      · rw [hflag] at hset
        cases hset
    | _ =>
      rw [hr] at hwaits
      cases hwaits

theorem DisablePc.frees_of_quits {d : DisablePc} (h : d.quits = none) : d.frees = none := by
  cases d with
  | quit pc =>
    cases pc with
    | free => cases h
    | _ => rfl
  | _ => rfl

theorem disableOk_of_quits {d : DisablePc} (h : d.quits = none) : s.DisableOk d := by
  cases d with
  | quit pc =>
    cases pc with
    | test => trivial
    | _ => cases h
  | _ => trivial

variable {d : DisablePc} {running : Bool} {sang : Option Nat}

/-- Where it quits nothing, `disableTCPTask` leaves all that the others look at. -/
theorem disable_frame (hold : s.disable.quits = none) (hnew : d.quits = none) :
    Frame s { s with
      SocketTaskRunning := running, tcp_client_info_sang := sang, disable := d } :=
  ⟨rfl, hnew.trans hold.symm,
    (DisablePc.frees_of_quits hnew).trans (DisablePc.frees_of_quits hold).symm, rfl, rfl, rfl,
    rfl, fun _ => id, fun _ => id, fun _ => id, fun _ _ => id⟩

theorem Inv.disable_rest (h : s.Inv) (hold : s.disable.quits = none) (hnew : d.quits = none) :
    Inv { s with SocketTaskRunning := running, tcp_client_info_sang := sang, disable := d } := by
  have hf : Frame s { s with
      SocketTaskRunning := running, tcp_client_info_sang := sang, disable := d } :=
    disable_frame hold hnew
  exact ⟨{ h.records with }, h.accept, hf.recvOk h.recv, disableOk_of_quits hnew,
    fun r hr => (h.linked r hr).imp_left hf.pending⟩

/-- Where nobody is about to free a record, those that were linked are in the list or freed. -/
theorem Inv.linked_of_frees (h : s.Inv) (hrecv : s.recv.frees = none)
    (hdisable : s.disable.frees = none) (q : Nat) (hq : q ∈ s.linked) :
    q ∈ s.client_head ∨ q ∈ s.freed := by
  obtain (hq | hq | hq) | hq := h.linked q hq
  · exact .inl hq
  · rw [hrecv] at hq
    cases hq
  · rw [hdisable] at hq
    cases hq
  · exact .inr hq

/-- The actions of `tcp_client_quit`, called by `disableTCPTask`, keep the invariant. -/
theorem Inv.disable_quit (h : s.Inv) (hallows : s.Allows .disable) {pc : QuitPc}
    (hpc : s.disable = .quit pc) :
    Inv { (s.tcp_client_quit pc).1 with
      disable := (s.tcp_client_quit pc).2.elim .last .quit } := by
  have hdisable := h.disable
  rw [hpc] at hdisable
  -- while the receive thread waits
  have hlinked {r : Nat} (hrecv : s.recv = .recv (some r)) (hfrees : s.disable.frees = none) :=
    h.linked_of_frees (by rw [hrecv]; rfl) hfrees
  cases pc with
  | test r =>
    rw [quit_test]
    cases hflag : s.OEMQuitFlag with
    | true => exact h.disable_rest (by rw [hpc]; rfl) rfl
    | false =>
      obtain ⟨hrecv, hs⟩ := h.disable_passes hallows hpc hflag
      exact ⟨{ h.records with }, h.accept, recvOk_of_quits hrecv hs.1 rfl, ⟨hrecv, hs⟩,
        fun q hq => (hlinked hrecv (by rw [hpc]; rfl) q hq).imp_left .inl⟩
  | set r =>
    obtain ⟨hrecv, hs⟩ := hdisable
    exact ⟨{ h.records with }, h.accept, recvOk_of_quits hrecv hs.1 rfl, ⟨hrecv, rfl, hs⟩,
      fun q hq => (hlinked hrecv (by rw [hpc]; rfl) q hq).imp_left .inl⟩
  | close r =>
    obtain ⟨hrecv, hflag, hs⟩ := hdisable
    rw [h.records.quit_close hs.2]
    exact ⟨{ h.records.close with }, h.accept, recvOk_of_quits hrecv hs.1 rfl,
      ⟨hrecv, hflag, hs, List.mem_cons_self ..⟩,
      fun q hq => (hlinked hrecv (by rw [hpc]; rfl) q hq).imp_left .inl⟩
  | del r =>
    obtain ⟨hrecv, hflag, hs, hc⟩ := hdisable
    rw [h.records.quit_del hs.2]
    refine ⟨{ h.records.del with }, h.accept.del, recvOk_of_quits hrecv hs.1 rfl,
      ⟨hrecv, hflag, ⟨hs.1, h.records.head_linked r hs.2, nofun, h.records.live r hs.2, .inr hc⟩,
        hc⟩, fun q hq => ?_⟩
    obtain hq | hq := hlinked hrecv (by rw [hpc]; rfl) q hq
    · rw [h.records.head_unique hq hs.2]
      exact .inl (.inr (.inr rfl))
    · exact .inr hq
  | free r =>
    obtain ⟨hrecv, hflag, hu, hc⟩ := hdisable
    rw [hu.quit_free]
    refine ⟨{ h.records.free hu with },
      h.accept.free hu.2.1 (hallows.2 r (by rw [hpc]; rfl)), ?_, trivial, fun q hq => ?_⟩
    · dsimp only
      rw [hrecv]
      exact ⟨r, hu.1, rfl, .inr (.inr ⟨hflag, List.mem_cons_self .., hc⟩)⟩
    · obtain (hq | hq | hq) | hq := h.linked q hq
      · exact .inl (.inl hq)
      · exact .inl (.inr (.inl hq))
      · rw [hpc] at hq
        cases hq
        exact .inr (List.mem_cons_self ..)
      · exact .inr (List.mem_cons_of_mem _ hq)

/-- `disableTCPTask` keeps the invariant. -/
theorem Inv.disable_step (h : s.Inv) (hallows : s.Allows .disable) : s.disableTCPTask.Inv := by
  unfold disableTCPTask
  split
  next hpc => exact h.disable_rest (by rw [hpc]; rfl) rfl
  next hpc =>
    refine h.disable_rest (by rw [hpc]; rfl) ?_
    cases s.client_infoCCC <;> rfl
  next pc hpc => exact h.disable_quit hallows hpc
  next hpc => exact h.disable_rest (by rw [hpc]; rfl) rfl

/-- The actions of `tcp_client_quit`, called by the receive thread, keep the invariant. -/
theorem Inv.recv_quit (h : s.Inv) (hquits : s.disable.quits = none)
    (hlogged : ∀ r ∈ s.recv.frees, s.accept ≠ .print r) {pc : QuitPc} (hpc : s.recv = .quit pc) :
    Inv { (s.tcp_client_quit pc).1 with recv := (s.tcp_client_quit pc).2.elim .finish .quit } := by
  have hrecv := h.recv
  rw [hpc] at hrecv
  have hfrees := DisablePc.frees_of_quits hquits
  have hlinked (hrecv : s.recv.frees = none) := h.linked_of_frees hrecv hfrees
  cases pc with
  | test r =>
    rw [quit_test]
    have hlive : ∀ q ∈ s.linked, q ∈ s.client_head ∨ q ∈ s.freed := hlinked (by rw [hpc]; rfl)
    obtain ⟨hflag, hs, ho⟩ | ⟨hflag, hinfo, hfreed⟩ := hrecv
    · rw [if_pos hflag]
      exact ⟨{ h.records with }, h.accept, ⟨hs, ho⟩, disableOk_of_quits hquits,
        fun q hq => (hlive q hq).imp_left .inl⟩
    · rw [if_neg (by rw [hflag]; exact Bool.noConfusion)]
      exact ⟨{ h.records with }, h.accept, ⟨r, hinfo, hfreed⟩, disableOk_of_quits hquits,
        fun q hq => (hlive q hq).imp_left .inl⟩
  | set r =>
    exact ⟨{ h.records with }, h.accept, hrecv, disableOk_of_quits hquits,
      fun q hq => (hlinked (by rw [hpc]; rfl) q hq).imp_left .inl⟩
  | close r =>
    obtain ⟨hs, ho⟩ := hrecv
    rw [h.records.quit_close hs.2]
    exact ⟨{ h.records.close with }, h.accept, ⟨hs, ho.imp_right (List.mem_cons_of_mem _)⟩,
      disableOk_of_quits hquits, fun q hq => (hlinked (by rw [hpc]; rfl) q hq).imp_left .inl⟩
  | del r =>
    obtain ⟨hs, ho⟩ := hrecv
    rw [h.records.quit_del hs.2]
    refine ⟨{ h.records.del with }, h.accept.del,
      ⟨hs.1, h.records.head_linked r hs.2, nofun, h.records.live r hs.2, ho⟩,
      disableOk_of_quits hquits, fun q hq => ?_⟩
    obtain hq | hq := hlinked (by rw [hpc]; rfl) q hq
    · rw [h.records.head_unique hq hs.2]
      exact .inl (.inr (.inl rfl))
    · exact .inr hq
  | free r =>
    have hu : s.Unlinked r := hrecv
    rw [hu.quit_free]
    refine ⟨{ h.records.free hu with }, h.accept.free hu.2.1 (hlogged r (by rw [hpc]; rfl)),
      ⟨r, hu.1, List.mem_cons_self ..⟩, disableOk_of_quits hquits, fun q hq => ?_⟩
    obtain (hq | hq | hq) | hq := h.linked q hq
    · exact .inl (.inl hq)
    · rw [hpc] at hq
      cases hq
      exact .inr (List.mem_cons_self ..)
    · rw [hfrees] at hq
      cases hq
    · exact .inr (List.mem_cons_of_mem _ hq)

/-- The receive thread keeps the invariant. -/
theorem Inv.recv_step (h : s.Inv) (hquits : s.disable.quits = none)
    (hlogged : ∀ r ∈ s.recv.frees, s.accept ≠ .print r) (data : List UInt8) :
    (s.Printer_Tcp_Recv_handler data).Inv := by
  have hrecv := h.recv
  have hdisable {s' : Tcp} : s'.DisableOk s.disable := disableOk_of_quits hquits
  have hlinked (hrecv : s.recv.frees = none) (q : Nat) (hq : q ∈ s.linked) {P : Prop} :
      (q ∈ s.client_head ∨ P) ∨ q ∈ s.freed :=
    (h.linked_of_frees hrecv (DisablePc.frees_of_quits hquits) q hq).imp_left .inl
  unfold Printer_Tcp_Recv_handler
  split
  next hpc =>
    rw [readAll_of_live h.records.live]
    exact ⟨{ h.records with }, h.accept, fun r hr => List.mem_of_getLast? hr, hdisable,
      fun q hq => hlinked (by rw [hpc]; rfl) q hq⟩
  next hpc =>
    rw [hpc] at hrecv
    refine ⟨{ h.records with }, h.accept, ?_, hdisable,
      fun q hq => hlinked (by rw [hpc]; rfl) q hq⟩
    dsimp only
    cases hinfo : s.client_infoCCC with
    | none => trivial
    | some r => exact ⟨r, rfl, hrecv r hinfo⟩
  next hpc =>
    rw [hpc] at hrecv
    obtain ⟨r, hs⟩ := hrecv
    rw [hs.1]
    dsimp only
    rw [read_of_live (h.records.live r hs.2)]
    exact ⟨{ h.records with }, h.accept, ⟨r, hs⟩, hdisable,
      fun q hq => hlinked (by rw [hpc]; rfl) q hq⟩
  next hpc =>
    rw [hpc] at hrecv
    exact ⟨{ h.records with }, h.accept, ⟨rfl, hrecv⟩, hdisable,
      fun q hq => hlinked (by rw [hpc]; rfl) q hq⟩
  next hpc =>
    rw [hpc] at hrecv
    exact ⟨{ h.records with }, h.accept, hrecv, hdisable,
      fun q hq => hlinked (by rw [hpc]; rfl) q hq⟩
  next hpc =>
    rw [hpc] at hrecv
    obtain ⟨hflag, r, hs⟩ := hrecv
    rw [hs.1]
    dsimp only
    rw [read_of_live (h.records.live r hs.2)]
    exact ⟨{ h.records with }, h.accept,
      ⟨r, hs.1, h.records.socket r hs.2, .inr (.inl ⟨hflag, hs.2⟩)⟩, hdisable,
      fun q hq => hlinked (by rw [hpc]; rfl) q hq⟩
  next fd hpc =>
    rw [hpc] at hrecv
    obtain ⟨r, hinfo, rfl, hplace⟩ := hrecv
    have hplace := hplace.resolve_left (by rw [hquits]; exact nofun)
    split
    next hfail =>
      have hover : s.Over r := by simpa [failed, Over] using hfail
      rw [hinfo]
      refine ⟨{ h.records with }, h.accept, ?_, hdisable,
        fun q hq => hlinked (by rw [hpc]; rfl) q hq⟩
      obtain ⟨hflag, hhead⟩ | ⟨hflag, hfreed, -⟩ := hplace
      · exact .inl ⟨hflag, ⟨rfl, hhead⟩, hover⟩
      · exact .inr ⟨hflag, rfl, hfreed⟩
    next hfail =>
      obtain ⟨hflag, hhead⟩ | ⟨-, -, hclosed⟩ := hplace
      · exact ⟨{ h.records with }, h.accept, ⟨hflag, r, hinfo, hhead⟩, hdisable,
          fun q hq => hlinked (by rw [hpc]; rfl) q hq⟩
      · exact absurd (by simp [failed, hclosed]) hfail
  next pc hpc => exact h.recv_quit hquits hlogged hpc
  next hpc =>
    rw [hpc] at hrecv
    exact ⟨{ h.records with }, h.accept, hrecv, hdisable,
      fun q hq => hlinked (by rw [hpc]; rfl) q hq⟩
  next hpc =>
    rw [hpc] at hrecv
    obtain ⟨r, hinfo, hfreed⟩ := hrecv
    rw [hinfo]
    dsimp only
    rw [read_of_freed hfreed]
    exact ⟨{ h.records with reads := congrArg (· + 1) h.records.reads }, h.accept, trivial,
      hdisable, fun q hq => hlinked (by rw [hpc]; rfl) q hq⟩

/-- The count of the actions is only looked at by those who ask about a run. -/
theorem Inv.turns (h : s.Inv) (n : Nat) : Inv { s with turns := n } := by
  have hf : Frame s { s with turns := n } :=
    ⟨rfl, rfl, rfl, rfl, rfl, rfl, rfl, fun _ => id, fun _ => id, fun _ => id, fun _ _ => id⟩
  exact ⟨{ h.records with }, h.accept, hf.recvOk h.recv, hf.disableOk rfl h.disable, h.linked⟩

/-- Every allowed action keeps the invariant. -/
theorem Inv.step (h : s.Inv) (hstep : Allowed s s') : s'.Inv := by
  obtain ⟨a, hallows, rfl⟩ := hstep
  cases a with
  | accept ok => exact h.accept_step hallows
  | recv data =>
    unfold next
    dsimp only
    split
    next => exact h
    next hblocked =>
      obtain ⟨hquits, hlogged⟩ := hallows.resolve_left hblocked
      exact (h.recv_step hquits hlogged data).turns _
  | disable => exact h.disable_step hallows
  | ends socket => exact h.ends_step socket

/-! ## The end of a session -/

/-- The actions of the receive thread until the record, whose connection has ended, is freed.
`disableTCPTask` frees the record that it quits without any. A receive thread whose session was quit
by it finds the flag set, and has a session with the next record before it ends that. -/
def rank (s : Tcp) (record : Nat) : Nat :=
  if s.disable.quits = some record then 1 else
    match s.recv with
    | .recv _ => if s.OEMQuitFlag then 16 else 6
    | .quit (.test _) => if s.OEMQuitFlag then 15 else 5
    | .quit (.set _) => 4
    | .quit (.close _) => 3
    | .quit (.del _) => 2
    | .quit (.free priv) => if priv = record then 1 else 15
    | .finish => 14
    | .check => 13
    | .poll => 12
    | .polled => if s.client_infoCCC.isSome then 11 else 13
    | .copy => 10
    | .clear => 9
    | .raise => 8
    | .read => 7

theorem rank_pos : 1 ≤ s.rank r := by
  unfold rank
  repeat' split
  all_goals omega

theorem rank_le : s.rank r ≤ 16 := by
  unfold rank
  repeat' split
  all_goals omega

/-- A pending record that nobody is about to free is in the list. -/
theorem Pending.head (hp : s.Pending r) (hrecv : s.recv.frees = none)
    (hdisable : s.disable.frees = none) : r ∈ s.client_head := by
  obtain hp | hp | hp := hp
  · exact hp
  · rw [hrecv] at hp
    cases hp
  · rw [hdisable] at hp
    cases hp

/-- An action of `tcp_client_quit` brings the `free` of a pending record nearer. -/
theorem Inv.quit_rank (h : s.Inv) (hquits : s.disable.quits = none) (hp : s.Pending r)
    {pc : QuitPc} (hpc : s.recv = .quit pc) :
    r ∈ (s.Printer_Tcp_Recv_handler []).freed ∨
      ((s.Printer_Tcp_Recv_handler []).Pending r ∧
        (s.Printer_Tcp_Recv_handler []).rank r < s.rank r) := by
  have hrecv := h.recv
  have hhead (hfrees : s.recv.frees = none) : r ∈ s.client_head :=
    hp.head hfrees (DisablePc.frees_of_quits hquits)
  rw [hpc] at hrecv
  unfold Printer_Tcp_Recv_handler
  rw [hpc]
  dsimp only
  cases pc with
  | test q =>
    rw [quit_test]
    obtain ⟨hflag, -⟩ | ⟨hflag, -⟩ := hrecv
    · rw [if_pos hflag]
      refine .inr ⟨.inl (hhead (by rw [hpc]; rfl)), ?_⟩
      simp [rank, hquits, hpc, hflag]
    · rw [if_neg (by rw [hflag]; exact Bool.noConfusion)]
      refine .inr ⟨.inl (hhead (by rw [hpc]; rfl)), ?_⟩
      simp [rank, hquits, hpc, hflag]
  | set q =>
    refine .inr ⟨.inl (hhead (by rw [hpc]; rfl)), ?_⟩
    simp [rank, hquits, hpc, tcp_client_quit]
  | close q =>
    rw [h.records.quit_close hrecv.1.2]
    refine .inr ⟨.inl (hhead (by rw [hpc]; rfl)), ?_⟩
    simp [rank, hquits, hpc]
  | del q =>
    rw [h.records.quit_del hrecv.1.2]
    obtain rfl : q = r := h.records.head_unique hrecv.1.2 (hhead (by rw [hpc]; rfl))
    refine .inr ⟨.inr (.inl rfl), ?_⟩
    simp [rank, hquits, hpc]
  | free q =>
    have hu : s.Unlinked q := hrecv
    rw [hu.quit_free]
    by_cases hq : q = r
    · exact .inl (List.mem_cons.2 (.inl hq.symm))
    · refine .inr ⟨.inl ?_, ?_⟩
      · obtain hp | hp | hp := hp
        · exact hp
        · rw [hpc] at hp
          cases hp
          exact absurd rfl hq
        · rw [DisablePc.frees_of_quits hquits] at hp
          cases hp
      · simp [rank, hquits, hpc, hq]

/-- An action of the receive thread brings the `free` of a pending record nearer. -/
theorem Inv.recv_rank (h : s.Inv) (hquits : s.disable.quits = none) (hp : s.Pending r)
    (ho : s.Over r) (data : List UInt8) :
    r ∈ (s.Printer_Tcp_Recv_handler data).freed ∨
      ((s.Printer_Tcp_Recv_handler data).Pending r ∧
        (s.Printer_Tcp_Recv_handler data).rank r < s.rank r) := by
  have hrecv := h.recv
  have hhead (hfrees : s.recv.frees = none) : r ∈ s.client_head :=
    hp.head hfrees (DisablePc.frees_of_quits hquits)
  unfold Printer_Tcp_Recv_handler
  split
  next hpc =>
    have hr := hhead (by rw [hpc]; rfl)
    have hlast : s.client_head.getLast? = some r := by rw [h.records.head_eq hr]; rfl
    rw [readAll_of_live h.records.live]
    refine .inr ⟨.inl hr, ?_⟩
    simp [rank, hquits, hpc, hlast]
  next hpc =>
    refine .inr ⟨.inl (hhead (by rw [hpc]; rfl)), ?_⟩
    cases hinfo : s.client_infoCCC with
    | none => simp [rank, hquits, hpc, hinfo]
    | some q => simp [rank, hquits, hpc, hinfo]
  next hpc =>
    have hr := hhead (by rw [hpc]; rfl)
    rw [hpc] at hrecv
    obtain ⟨q, hs⟩ := hrecv
    rw [hs.1]
    dsimp only
    rw [read_of_live (h.records.live q hs.2)]
    refine .inr ⟨.inl hr, ?_⟩
    simp [rank, hquits, hpc]
  next hpc =>
    refine .inr ⟨.inl (hhead (by rw [hpc]; rfl)), ?_⟩
    simp [rank, hquits, hpc]
  next hpc =>
    refine .inr ⟨.inl (hhead (by rw [hpc]; rfl)), ?_⟩
    simp [rank, hquits, hpc]
  next hpc =>
    have hr := hhead (by rw [hpc]; rfl)
    rw [hpc] at hrecv
    obtain ⟨hflag, q, hs⟩ := hrecv
    rw [hs.1]
    dsimp only
    rw [read_of_live (h.records.live q hs.2)]
    refine .inr ⟨.inl hr, ?_⟩
    simp [rank, hquits, hpc, hflag]
  next fd hpc =>
    have hr := hhead (by rw [hpc]; rfl)
    rw [hpc] at hrecv
    obtain ⟨q, hinfo, rfl, hplace⟩ := hrecv
    have hplace := hplace.resolve_left (by rw [hquits]; exact nofun)
    -- the socket is the one of the record, or one that was closed: `sock_recv` fails
    obtain ⟨hflag, hhead⟩ | ⟨hflag, -, hclosed⟩ := hplace
    · have hfail : s.failed (some q) = true := by
        rw [h.records.head_unique hhead hr]
        simpa [failed, Over] using ho
      rw [if_pos hfail, hinfo]
      refine .inr ⟨.inl hr, ?_⟩
      simp [rank, hquits, hpc, hflag]
    · rw [if_pos (by simp [failed, hclosed]), hinfo]
      refine .inr ⟨.inl hr, ?_⟩
      simp [rank, hquits, hpc, hflag]
  next pc hpc =>
    have hquit := h.quit_rank hquits hp hpc
    unfold Printer_Tcp_Recv_handler at hquit
    rw [hpc] at hquit
    exact hquit
  next hpc =>
    refine .inr ⟨.inl (hhead (by rw [hpc]; rfl)), ?_⟩
    simp [rank, hquits, hpc]
  next hpc =>
    have hr := hhead (by rw [hpc]; rfl)
    rw [hpc] at hrecv
    obtain ⟨q, hinfo, hfreed⟩ := hrecv
    rw [hinfo]
    dsimp only
    rw [read_of_freed hfreed]
    refine .inr ⟨.inl hr, ?_⟩
    simp [rank, hquits, hpc]

@[simp] theorem read_freed : (s.read r).freed = s.freed := by
  unfold read
  split <;> rfl

@[simp] theorem read_ended : (s.read r).ended = s.ended := by
  unfold read
  split <;> rfl

@[simp] theorem read_closed : (s.read r).closed = s.closed := by
  unfold read
  split <;> rfl

@[simp] theorem readAll_freed : ∀ (rs : List Nat) (s : Tcp), (s.readAll rs).freed = s.freed
  | [], _ => rfl
  | r :: rs, s => (readAll_freed rs (s.read r)).trans read_freed

@[simp] theorem readAll_ended : ∀ (rs : List Nat) (s : Tcp), (s.readAll rs).ended = s.ended
  | [], _ => rfl
  | r :: rs, s => (readAll_ended rs (s.read r)).trans read_ended

@[simp] theorem readAll_closed : ∀ (rs : List Nat) (s : Tcp), (s.readAll rs).closed = s.closed
  | [], _ => rfl
  | r :: rs, s => (readAll_closed rs (s.read r)).trans read_closed

/-- What has ended stays so, and what is freed. -/
theorem quit_keeps (pc : QuitPc) :
    (∀ r, s.Over r → (s.tcp_client_quit pc).1.Over r) ∧
      ∀ r ∈ s.freed, r ∈ (s.tcp_client_quit pc).1.freed := by
  cases pc with
  | close q =>
    refine ⟨fun r hr => ?_, fun r hr => by simpa [tcp_client_quit] using hr⟩
    simp only [Over, tcp_client_quit, read_ended]
    exact hr.imp_right (List.mem_append_right _)
  | del q => simp [Over, tcp_client_quit]
  | free q =>
    simp only [Over, tcp_client_quit, read_ended, read_closed]
    exact ⟨fun _ => id, fun r hr => List.mem_cons_of_mem _ hr⟩
  | test q | set q => exact ⟨fun _ => id, fun _ => id⟩

theorem recv_keeps (data : List UInt8) :
    (∀ r, s.Over r → (s.Printer_Tcp_Recv_handler data).Over r) ∧
      ∀ r ∈ s.freed, r ∈ (s.Printer_Tcp_Recv_handler data).freed := by
  unfold Printer_Tcp_Recv_handler
  split
  case h_8 pc _ => exact quit_keeps pc
  all_goals
    try split
    all_goals simp [Over]

/-- The record of a connection that has ended is freed before the receive thread has made `n`
actions. -/
def Due (s : Tcp) (record n : Nat) : Prop :=
  s.Over record ∧ (record ∈ s.freed ∨ (s.Pending record ∧ s.rank record + s.turns ≤ n))

theorem Due.frame {n : Nat} (h : s.Due r n) (hf : Frame s s') (hturns : s'.turns = s.turns) :
    s'.Due r n := by
  obtain ⟨ho, h⟩ := h
  have hrank : s'.rank r = s.rank r := by
    unfold rank
    rw [hf.recv, hf.quits, hf.client_infoCCC, hf.OEMQuitFlag]
  refine ⟨hf.over ho, ?_⟩
  rw [hf.freed, hrank, hturns]
  exact h.imp_right (And.imp_left hf.pending)

theorem rank_of_quits (h : s.disable.quits = some r) : s.rank r = 1 := if_pos h

/-- `disableTCPTask` frees the record that it quits, and keeps the date of the others. -/
theorem Due.disable_quit {n : Nat} (h : s.Due r n) (hinv : s.Inv) (hallows : s.Allows .disable)
    {pc : QuitPc} (hpc : s.disable = .quit pc) :
    Due { (s.tcp_client_quit pc).1 with
      disable := (s.tcp_client_quit pc).2.elim .last .quit } r n := by
  have hdisable := hinv.disable
  rw [hpc] at hdisable
  obtain ⟨ho, h⟩ := h
  obtain ⟨hover, hfreed⟩ := quit_keeps (s := s) pc
  obtain hr | ⟨hp, hn⟩ := h
  · exact ⟨hover r ho, .inl (hfreed r hr)⟩
  have hpos : 1 ≤ s.rank r := rank_pos
  -- the record of the session, while the receive thread waits, is the only one in the list
  have hsession {q : Nat} (hrecv : s.recv = .recv (some q)) (hs : s.Session q)
      (hfrees : s.disable.frees = none) : q = r :=
    hinv.records.head_unique hs.2 (hp.head (by rw [hrecv]; rfl) hfrees)
  refine ⟨hover r ho, ?_⟩
  cases pc with
  | test q =>
    have hq : s.disable.quits = none := by rw [hpc]; rfl
    rw [quit_test]
    cases hflag : s.OEMQuitFlag with
    | true =>
      have hf : Frame s { s with disable := .last } := disable_frame hq rfl
      exact (Due.frame ⟨ho, .inr ⟨hp, hn⟩⟩ hf rfl).2
    | false =>
      obtain ⟨hrecv, hs⟩ := hinv.disable_passes hallows hpc hflag
      obtain rfl := hsession hrecv hs (by rw [hpc]; rfl)
      refine .inr ⟨.inl hs.2, ?_⟩
      rw [rank_of_quits rfl]
      exact (Nat.add_le_add_right hpos _).trans hn
  | set q =>
    obtain ⟨hrecv, hs⟩ := hdisable
    obtain rfl := hsession hrecv hs (by rw [hpc]; rfl)
    refine .inr ⟨.inl hs.2, ?_⟩
    rw [rank_of_quits rfl]
    exact (Nat.add_le_add_right hpos _).trans hn
  | close q =>
    obtain ⟨hrecv, -, hs⟩ := hdisable
    obtain rfl := hsession hrecv hs (by rw [hpc]; rfl)
    rw [hinv.records.quit_close hs.2]
    refine .inr ⟨.inl hs.2, ?_⟩
    rw [rank_of_quits rfl]
    exact (Nat.add_le_add_right hpos _).trans hn
  | del q =>
    obtain ⟨hrecv, -, hs, -⟩ := hdisable
    obtain rfl := hsession hrecv hs (by rw [hpc]; rfl)
    rw [hinv.records.quit_del hs.2]
    refine .inr ⟨.inr (.inr rfl), ?_⟩
    rw [rank_of_quits rfl]
    exact (Nat.add_le_add_right hpos _).trans hn
  | free q =>
    obtain ⟨hrecv, hflag, hu, -⟩ := hdisable
    rw [hu.quit_free]
    by_cases hq : q = r
    · exact .inl (List.mem_cons.2 (.inl hq.symm))
    · refine .inr ⟨.inl ?_, ?_⟩
      · obtain hp | hp | hp := hp
        · exact hp
        · rw [hrecv] at hp
          cases hp
        · rw [hpc] at hp
          cases hp
          exact absurd rfl hq
      · have hrank : s.rank r = 16 := by simp [rank, hpc, DisablePc.quits, hq, hrecv, hflag]
        rw [hrank] at hn
        simpa [rank, DisablePc.quits, hrecv, hflag] using hn

/-- Every allowed action keeps the date. -/
theorem Due.step {n : Nat} (h : s.Due r n) (hinv : s.Inv) (hstep : Allowed s s') : s'.Due r n := by
  obtain ⟨a, hallows, rfl⟩ := hstep
  cases a with
  | accept ok =>
    refine h.frame hinv.accept_frame ?_
    have hread (c : Nat) : (s.read c).turns = s.turns := by
      unfold read
      split <;> rfl
    unfold next Printer_Tcp_Sock_Accpet
    dsimp only
    split
    case h_6 c _ => exact hread c
    all_goals
      try split
      all_goals rfl
  | disable =>
    unfold next disableTCPTask
    dsimp only
    split
    next hpc => exact h.frame (disable_frame (by rw [hpc]; rfl) rfl) rfl
    next hpc =>
      refine h.frame (disable_frame (by rw [hpc]; rfl) ?_) rfl
      cases s.client_infoCCC <;> rfl
    next pc hpc => exact h.disable_quit hinv hallows hpc
    next hpc => exact h.frame (disable_frame (by rw [hpc]; rfl) rfl) rfl
  | ends socket => exact h.frame (ends_frame socket) rfl
  | recv data =>
    unfold next
    dsimp only
    split
    next => exact h
    next hblocked =>
      obtain ⟨hquits, -⟩ := hallows.resolve_left hblocked
      obtain ⟨ho, h⟩ := h
      obtain ⟨hover, hfreed⟩ := recv_keeps (s := s) data
      refine ⟨hover r ho, ?_⟩
      obtain hr | ⟨hp, hn⟩ := h
      · exact .inl (hfreed r hr)
      · refine (hinv.recv_rank hquits hp ho data).imp_right fun ⟨hp', hlt⟩ => ⟨hp', ?_⟩
        have hrank : rank { s.Printer_Tcp_Recv_handler data with turns := s.turns + 1 } r =
            (s.Printer_Tcp_Recv_handler data).rank r := rfl
        rw [hrank]
        dsimp only
        omega

/-- The record of a connection that has ended is freed after at most 16 actions of the receive
thread. -/
theorem Inv.freed_of_over (h : s.Inv) (hl : r ∈ s.linked) (ho : s.Over r)
    (hrun : ReflTransGen Allowed s s') (hturns : s.turns + 16 ≤ s'.turns) : r ∈ s'.freed := by
  have hle : s.rank r ≤ 16 := rank_le
  have hdue : s.Due r (s.turns + 16) :=
    ⟨ho, (h.linked r hl).symm.imp_right fun hp => ⟨hp, by omega⟩⟩
  obtain ⟨-, -, hf | ⟨-, hn⟩⟩ := Runs.invariant
    (fun t t' (ht : t.Inv ∧ t.Due r (s.turns + 16)) hstep =>
      ⟨ht.1.step hstep, ht.2.step ht.1 hstep⟩) hrun ⟨h, hdue⟩
  · exact hf
  · have hpos : 1 ≤ s'.rank r := rank_pos
    omega

/-! ## When a client connects -/

@[simp] theorem read_client_head : (s.read r).client_head = s.client_head := by
  unfold read
  split <;> rfl

@[simp] theorem readAll_client_head :
    ∀ (rs : List Nat) (s : Tcp), (s.readAll rs).client_head = s.client_head
  | [], _ => rfl
  | r :: rs, s => (readAll_client_head rs (s.read r)).trans read_client_head

theorem read_accept : (s.read r).accept = s.accept := by
  unfold read
  split <;> rfl

theorem readAll_accept :
    ∀ (rs : List Nat) (s : Tcp), (s.readAll rs).accept = s.accept
  | [], _ => rfl
  | r :: rs, s => (readAll_accept rs (s.read r)).trans read_accept

/-- Only the accept thread puts a record into the list. -/
theorem quit_empty (pc : QuitPc) : (s.tcp_client_quit pc).1.accept = s.accept ∧
    (s.client_head = [] → (s.tcp_client_quit pc).1.client_head = []) := by
  cases pc with
  | test q | set q => exact ⟨rfl, id⟩
  | close q | free q => exact ⟨read_accept, fun h => read_client_head.trans h⟩
  | del q =>
    refine ⟨read_accept, fun h => ?_⟩
    rw [tcp_client_quit, h]
    rfl

theorem recv_empty (data : List UInt8) : (s.Printer_Tcp_Recv_handler data).accept = s.accept ∧
    (s.client_head = [] → (s.Printer_Tcp_Recv_handler data).client_head = []) := by
  unfold Printer_Tcp_Recv_handler
  split
  case h_8 pc _ => exact quit_empty pc
  all_goals
    try split
    all_goals simp [read_accept, readAll_accept]

/-- The accept thread looks at the flag when no record is linked, or finds it raised. -/
def Gated (s : Tcp) : Action → Prop
  | .accept _ => ∀ client_info, s.accept = .gate client_info →
      s.client_head = [] ∨ s.SocketTaskRunning = true
  | _ => True

/-- Where the flag is raised before the accept thread looks at it, a client connects only when no
record is linked. -/
theorem head_of_gated
    (hrun : ReflTransGen (fun s s' : Tcp => ∃ a, s.Gated a ∧ s' = s.next a) init s) :
    s.accept.waits = true → s.client_head = [] := by
  induction hrun with
  | refl => exact fun h => by cases h
  | @tail s _ _ hstep ih =>
    obtain ⟨a, hgated, rfl⟩ := hstep
    cases a with
    | accept ok =>
      unfold next Printer_Tcp_Sock_Accpet
      dsimp only
      split
      case h_3 c hpc =>
        split
        next => exact fun h => by cases h
        next hlowered => exact fun _ => (hgated c hpc).resolve_right hlowered
      case h_6 => exact fun h => by cases h
      case h_7 => exact ih
      all_goals
        try split
        all_goals exact fun h => by cases h
    | recv data =>
      unfold next
      dsimp only
      split
      next => exact ih
      next =>
        obtain ⟨haccept, hempty⟩ := recv_empty (s := s) data
        exact fun h => hempty (ih (haccept ▸ h))
    | disable =>
      unfold next disableTCPTask
      dsimp only
      split
      case h_3 pc _ =>
        obtain ⟨haccept, hempty⟩ := quit_empty (s := s) pc
        exact fun h => hempty (ih (haccept ▸ h))
      all_goals exact ih
    | ends socket => exact ih

/-! ## Sessions -/

/-- **One TCP session at a time, and one `free` for each**, in the runs of allowed actions: there is
at most one record in the list and it is live, a record is freed at most once and after its
connection has ended, and one whose connection has ended is freed before the receive thread has made
16 more actions. No freed record is read exactly if the receive thread has not handled the end of a
connection, where it asks `isSocketClosed` about the record that has just been freed. -/
theorem tcp_sessions (h : ReflTransGen Allowed init s) :
    s.client_head.length ≤ 1 ∧ (∀ r ∈ s.client_head, r < s.fresh ∧ r ∉ s.freed) ∧
      s.freed.Nodup ∧ (∀ r ∈ s.freed, r ∈ s.linked ∧ s.Over r) ∧
      (∀ r ∈ s.linked, s.Over r → ∀ s', ReflTransGen Allowed s s' →
        s.turns + 16 ≤ s'.turns → r ∈ s'.freed) ∧
      (s.readsAfterFree = 0 ↔ s.checks = 0) := by
  have hinv : s.Inv := Runs.invariant (fun _ _ ht hstep => ht.step hstep) h init_inv
  have hrec := hinv.records
  refine ⟨hrec.head_length, fun r hr => ⟨?_, hrec.live r hr⟩, hrec.freed_nodup,
    fun r hr => ⟨hrec.freed_linked r hr, hrec.freed_over r hr⟩,
    fun r hl ho s' => hinv.freed_of_over hl ho, by rw [hrec.reads]⟩
  exact hrec.linked_lt r (hrec.head_linked r hr)

/-- Two sessions: the first client goes, and `disableTCPTask` ends the session with the second,
which `sock_recv` tells the receive thread. The next client is waited for. -/
def twoSessions : List Action :=
  .replicate 8 (.accept true) ++ .replicate 6 (.recv []) ++ [.recv [64, 62], .recv [], .ends 0] ++
    .replicate 9 (.recv []) ++ .replicate 5 (.accept true) ++ .replicate 7 (.recv []) ++
    .replicate 8 .disable ++ .replicate 5 (.recv [])

/-- Both records are freed, each once, and no other read of them is made than after each session. -/
theorem tcp_sessions_two :
    let s := twoSessions.foldl next init
    s.freed = [1, 0] ∧ s.checks = 2 ∧
    s.client_head.length ≤ 1 ∧ (∀ r ∈ s.client_head, r < s.fresh ∧ r ∉ s.freed) ∧
      s.freed.Nodup ∧ (∀ r ∈ s.freed, r ∈ s.linked ∧ s.Over r) ∧
      (∀ r ∈ s.linked, s.Over r → ∀ s', ReflTransGen Allowed s s' →
        s.turns + 16 ≤ s'.turns → r ∈ s'.freed) ∧
      (s.readsAfterFree = 0 ↔ s.checks = 0) :=
  ⟨by decide +kernel, by decide +kernel,
    tcp_sessions (Runs.Along.run (P := Allows) (f := next) (fun _ a ha => ⟨a, ha, rfl⟩)
      (by decide +kernel))⟩

/-- **Two records are linked, a freed record is read, and a record is freed twice**: a second client
is accepted before the receive thread has raised the flag; a session ends; and `disableTCPTask`
quits the record of the first session before the receive thread has cleared `OEMQuitFlag`. -/
theorem sessions_overlap :
    (∃ s, ReflTransGen Step init s ∧ s.client_head = [0, 1]) ∧
      (∃ s, ReflTransGen Step init s ∧ s.freed = [0] ∧ s.readsAfterFree = 1) ∧
      ∃ s, ReflTransGen Step init s ∧ s.freed = [0, 0] := by
  have hrun : ∀ as : List Action, ReflTransGen Step init (as.foldl next init) :=
    Runs.foldl (fun s a => ⟨a, rfl⟩) init
  refine ⟨⟨_, hrun (.replicate 10 (.accept true)), ?_⟩,
    ⟨_, hrun (.replicate 6 (.accept true) ++ .replicate 6 (.recv []) ++ [.ends 0] ++
      .replicate 8 (.recv [])), ?_, ?_⟩,
    ⟨_, hrun (.replicate 6 (.accept true) ++ [.recv []] ++ .replicate 8 .disable ++
      .replicate 11 (.recv [])), ?_⟩⟩
  all_goals decide +kernel

end Tcp

end ThermalPrinter
