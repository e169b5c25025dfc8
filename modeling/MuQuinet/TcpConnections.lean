import MuQuinet.Lib.Machines
import MuQuinet.Lib.Outcomes
import MuQuinet.RequestHandler
import MuQuinet.TcpIntegrity

namespace MuQuinet.TcpConnections

open MuQuinet.Lib.Machines
open MuQuinet.Lib.Outcomes
open MuQuinet.Buffers
open MuQuinet.Sockets
open MuQuinet.Pcbs
open MuQuinet.RequestHandler
open MuQuinet.TcpIntegrity
open MuQuinet.TcpLayer
open MuQuinet.Wire

/-- A `TcpPcb` and the socket that keeps it alive. -/
structure Connection where
  pcb : TcpPcb
  so : Socket
deriving DecidableEq, Repr

/-- The calls a `TcpPcb` gets, and what the event loop does with its socket. -/
inductive Label
  | connect (port : UInt16) (faddr : UInt32) (fport : UInt16)
  | setOnConnEstabCB (rrChannel : Nat)
  | send (port : UInt16) (buf : List UInt8)
  | recv (peerAddr : SockaddrIn) (skbuf : SocketBuffer) (next : List SocketBuffer)
  | socket (op : SocketOp)

namespace Connection

def slot (c : Connection) : Slot TcpPcb :=
  { pcb := some c.pcb, socket := some c.so }

def recv (c : Connection) (peerAddr : SockaddrIn) (skbuf : SocketBuffer)
    (next : List SocketBuffer) : Slot TcpPcb × List Event :=
  TcpPcb.recv c.slot c.pcb peerAddr skbuf next

def step (c : Connection) : Label → Option Connection
  | .connect port faddr fport =>
      some { c with pcb := (TcpPcb.connect port c.pcb faddr fport).2.1 }
  | .setOnConnEstabCB rrChannel =>
      some { c with pcb := { c.pcb with onConnEstabCB := some rrChannel } }
  | .send port buf => some { c with pcb := (TcpPcb.send port c.pcb buf).2.1 }
  | .recv peerAddr skbuf next => do
      let slot := (c.recv peerAddr skbuf next).1
      let pcb ← slot.pcb
      let so ← slot.socket
      some { pcb := pcb, so := so }
  | .socket op => (op.run c.so).toOption.map fun so => { c with so := so }

end Connection

/-- The lives of a `TcpPcb` from its construction on. -/
def machine : Machine Connection Label where
  initial c := ∃ stackAddr sendUnack sendNext irs recvNext nonblocking,
    c =
      { pcb := .new stackAddr sendUnack sendNext irs recvNext
        so := { type := .TCP, nonblocking := nonblocking } }
  next := Connection.step

/-- The PCB that `TcpPcb::recv` leaves. -/
def pcbAfter (pcb : TcpPcb) (skbuf : SocketBuffer) : TcpPcb :=
  match pcb.connState with
  | .SYN_SENT => (pcb.recvSynSent (tcphdr skbuf)).1
  | .ESTABLISHED =>
      if (TcpPcb.locatePayload skbuf).payloadLen ≠ 0 then
        { pcb.recvAck (tcphdr skbuf) with
          recvNext := TcpPcb.nextAfter (TcpPcb.locatePayload skbuf) }
      else pcb.recvAck (tcphdr skbuf)
  | _ => pcb

/-- What `TcpPcb::recv` does besides. -/
def eventsOf (c : Connection) (skbuf : SocketBuffer) : List Event :=
  match c.pcb.connState with
  | .SYN_SENT => (c.pcb.recvSynSent (tcphdr skbuf)).2
  | .ESTABLISHED =>
      if (TcpPcb.locatePayload skbuf).payloadLen ≠ 0 then
        (if c.so.recvQ.length > recvQlimit then []
          else [.queued (TcpPcb.locatePayload skbuf)]) ++
          [.acked ((pcbAfter c.pcb skbuf).ack2peer (pcbAfter c.pcb skbuf).recvNext)]
      else []
  | _ => []

/-- A segment finds the socket of a live connection, and leaves it alive. -/
theorem recv_eq (c : Connection) (peerAddr : SockaddrIn) (skbuf : SocketBuffer)
    (next : List SocketBuffer) :
    ∃ so, c.recv peerAddr skbuf next =
      ({ pcb := some (pcbAfter c.pcb skbuf), socket := some so }, eventsOf c skbuf) := by
  unfold Connection.recv TcpPcb.recv eventsOf pcbAfter
  cases c.pcb.connState with
  | SYN_SENT => exact ⟨c.so, rfl⟩
  | ESTABLISHED =>
      dsimp only
      split
      · exact ⟨c.so.putToRecvQ peerAddr (TcpPcb.locatePayload skbuf :: next), rfl⟩
      · exact ⟨c.so, rfl⟩
  | _ => exact ⟨c.so, rfl⟩

theorem step_socket_eq_some {c c' : Connection} {op : SocketOp}
    (h : c.step (.socket op) = some c') : c'.pcb = c.pcb ∧ op.run c.so = .ok c'.so := by
  obtain ⟨so, hrun, rfl⟩ := Option.map_eq_some_iff.mp h
  exact ⟨rfl, toOption_eq_some_iff.mp hrun⟩

theorem step_recv_eq_some {c c' : Connection} {peerAddr : SockaddrIn} {skbuf : SocketBuffer}
    {next : List SocketBuffer} (h : c.step (.recv peerAddr skbuf next) = some c') :
    c'.pcb = pcbAfter c.pcb skbuf := by
  obtain ⟨so, hrecv⟩ := recv_eq c peerAddr skbuf next
  simp only [Connection.step, hrecv, Option.bind_eq_bind, Option.bind_some,
    Option.some.injEq] at h
  exact h ▸ rfl

theorem send_closed {pcb : TcpPcb} (h : pcb.connState = .CLOSED) (port : UInt16)
    (buf : List UInt8) :
    ∃ base, (TcpPcb.send port pcb buf).2.1 =
      { pcb with
        toPcb := base, connState := .SYN_SENT, sendUnack := iss, sendNext := iss + 1 } := by
  refine ⟨(pcb.toPcb.send port).2.1, ?_⟩
  simp only [TcpPcb.send, h]

theorem send_estab {pcb : TcpPcb} (h : pcb.connState = .ESTABLISHED) (port : UInt16)
    (buf : List UInt8) :
    ∃ base, (TcpPcb.send port pcb buf).2.1 =
      { pcb with toPcb := base, sendNext := pcb.sendNext + .ofNat buf.length } := by
  refine ⟨(pcb.toPcb.send port).2.1, ?_⟩
  simp only [TcpPcb.send, h]

theorem send_synSent {pcb : TcpPcb} (h : pcb.connState = .SYN_SENT) (port : UInt16)
    (buf : List UInt8) :
    ∃ base, (TcpPcb.send port pcb buf).2.1 = { pcb with toPcb := base } := by
  refine ⟨(pcb.toPcb.send port).2.1, ?_⟩
  simp only [TcpPcb.send, h]

/-- `TcpPcb::connect` is a `send` of nothing on a PCB with a peer. -/
theorem connect_eq_send (port : UInt16) (pcb : TcpPcb) (faddr : UInt32) (fport : UInt16) :
    ∃ port' base, (TcpPcb.connect port pcb faddr fport).2.1 =
      (TcpPcb.send port' { pcb with toPcb := base } []).2.1 :=
  ⟨_, _, rfl⟩

/-- A PCB is closed, waits for the answer to its SYN, or is established. -/
structure ClientState (pcb : TcpPcb) : Prop where
  connState : pcb.connState = .CLOSED ∨ pcb.connState = .SYN_SENT ∨ pcb.connState = .ESTABLISHED
  synSent : pcb.connState = .SYN_SENT → pcb.sendUnack = iss ∧ pcb.sendNext = iss + 1

theorem ClientState.send {pcb : TcpPcb} (h : ClientState pcb) (port : UInt16)
    (buf : List UInt8) : ClientState (TcpPcb.send port pcb buf).2.1 := by
  rcases h.connState with hclosed | hsynSent | hestab
  · obtain ⟨base, heq⟩ := send_closed hclosed port buf
    rw [heq]
    exact ⟨.inr (.inl rfl), fun _ => ⟨rfl, rfl⟩⟩
  · obtain ⟨base, heq⟩ := send_synSent hsynSent port buf
    rw [heq]
    exact ⟨h.connState, h.synSent⟩
  · obtain ⟨base, heq⟩ := send_estab hestab port buf
    rw [heq]
    refine ⟨h.connState, ?_⟩
    intro hsynSent
    rw [hestab] at hsynSent
    cases hsynSent

/-- On a connected PCB, `send` moves at most `send_next`. -/
theorem send_connected {pcb : TcpPcb} (h : ClientState pcb) (hconnected : pcb.connState ≠ .CLOSED)
    (port : UInt16) (buf : List UInt8) :
    (TcpPcb.send port pcb buf).2.1.sendNext =
        pcb.sendNext + .ofNat (if pcb.connState = .ESTABLISHED then buf.length else 0) ∧
      (TcpPcb.send port pcb buf).2.1.sendUnack = pcb.sendUnack ∧
      (TcpPcb.send port pcb buf).2.1.connState = pcb.connState := by
  rcases h.connState with hclosed | hsynSent | hestab
  · exact absurd hclosed hconnected
  · obtain ⟨base, heq⟩ := send_synSent hsynSent port buf
    rw [heq, hsynSent]
    exact ⟨(UInt32.add_zero _).symm, rfl, rfl⟩
  · obtain ⟨base, heq⟩ := send_estab hestab port buf
    rw [heq, hestab]
    exact ⟨rfl, rfl, rfl⟩

theorem pcbAfter_synSent {pcb : TcpPcb} (h : pcb.connState = .SYN_SENT) (skbuf : SocketBuffer) :
    pcbAfter pcb skbuf = (pcb.recvSynSent (tcphdr skbuf)).1 := by
  simp only [pcbAfter, h]

theorem pcbAfter_estab {pcb : TcpPcb} (h : pcb.connState = .ESTABLISHED) (skbuf : SocketBuffer) :
    ∃ recvNext, pcbAfter pcb skbuf =
      { pcb.recvAck (tcphdr skbuf) with recvNext := recvNext } := by
  simp only [pcbAfter, h]
  split
  · exact ⟨_, rfl⟩
  · exact ⟨_, rfl⟩

@[simp] theorem recvAck_sendNext (pcb : TcpPcb) (hdr : TcpHeader) :
    (pcb.recvAck hdr).sendNext = pcb.sendNext := by
  unfold TcpPcb.recvAck
  split <;> rfl

theorem recvAck_sendUnack (pcb : TcpPcb) (hdr : TcpHeader) :
    (pcb.recvAck hdr).sendUnack =
      if hdr.ack = true ∧ pcb.sendUnack < ntohl hdr.ackSeq then ntohl hdr.ackSeq
      else pcb.sendUnack := by
  unfold TcpPcb.recvAck
  simp only [Bool.and_eq_true, decide_eq_true_eq, gt_iff_lt]
  split <;> rfl

@[simp] theorem pcbAfter_sendNext (pcb : TcpPcb) (skbuf : SocketBuffer) :
    (pcbAfter pcb skbuf).sendNext = pcb.sendNext := by
  unfold pcbAfter
  split
  · rfl
  · split
    · exact recvAck_sendNext pcb (tcphdr skbuf)
    · exact recvAck_sendNext pcb (tcphdr skbuf)
  · rfl

theorem connState_pcbAfter {pcb : TcpPcb} (h : ClientState pcb) (skbuf : SocketBuffer) :
    (pcb.connState = .CLOSED ∧ pcbAfter pcb skbuf = pcb) ∨
      (pcbAfter pcb skbuf).connState = .ESTABLISHED := by
  rcases h.connState with hclosed | hsynSent | hestab
  · left
    simp only [pcbAfter, hclosed, and_self]
  · right
    rw [pcbAfter_synSent hsynSent]
    rfl
  · right
    obtain ⟨recvNext, heq⟩ := pcbAfter_estab hestab skbuf
    rw [heq]
    exact (recvAck_connState _ _).trans hestab

theorem ClientState.pcbAfter {pcb : TcpPcb} (h : ClientState pcb) (skbuf : SocketBuffer) :
    ClientState (pcbAfter pcb skbuf) := by
  rcases connState_pcbAfter h skbuf with ⟨-, hsame⟩ | hestab
  · rw [hsame]
    exact h
  · refine ⟨.inr (.inr hestab), ?_⟩
    intro hsynSent
    rw [hestab] at hsynSent
    cases hsynSent

theorem ClientState.step {c c' : Connection} (h : ClientState c.pcb) {a : Label}
    (hstep : c.step a = some c') : ClientState c'.pcb := by
  cases a with
  | connect port faddr fport =>
      cases hstep
      obtain ⟨port', base, heq⟩ := connect_eq_send port c.pcb faddr fport
      change ClientState (TcpPcb.connect port c.pcb faddr fport).2.1
      rw [heq]
      have hbase : ClientState { c.pcb with toPcb := base } := ⟨h.connState, h.synSent⟩
      exact hbase.send port' []
  | setOnConnEstabCB rrChannel =>
      cases hstep
      exact ⟨h.connState, h.synSent⟩
  | send port buf =>
      cases hstep
      exact h.send port buf
  | recv peerAddr skbuf next =>
      rw [step_recv_eq_some hstep]
      exact h.pcbAfter skbuf
  | socket op =>
      rw [(step_socket_eq_some hstep).1]
      exact h

theorem clientState {c : Connection} (h : machine.Reachable c) : ClientState c.pcb := by
  refine h.invariant (I := fun c => ClientState c.pcb) ?_ ?_
  · rintro c ⟨stackAddr, sendUnack, sendNext, irs, recvNext, nonblocking, rfl⟩
    refine ⟨.inl rfl, ?_⟩
    intro hsynSent
    cases hsynSent
  · intro c a c' hc _ hstep
    exact hc.step hstep

end MuQuinet.TcpConnections
