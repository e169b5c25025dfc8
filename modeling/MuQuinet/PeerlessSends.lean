import MuQuinet.ErrnoEncoding

namespace MuQuinet.PeerlessSends

open MuQuinet.ChannelSockets
open MuQuinet.DaemonSurvival
open MuQuinet.ErrnoEncoding
open MuQuinet.Pcbs
open MuQuinet.RequestHandler
open MuQuinet.Rpc
open MuQuinet.Sockets
open MuQuinet.TcpLayer
open MuQuinet.UdpLayer
open MuQuinet.Wire

inductive Packet
  | udp (datagram : UdpDatagram)
  | tcp (segment : TcpSegment)
deriving DecidableEq, Repr

/-- What the handler of a `send` hands to `Ip::tx`. -/
def emitted (d : Daemon) (ch : Nat) (buf : List UInt8) : Except Fault (List Packet) := do
  let (ref, so) ← d.socket ch
  match so.type with
  | .UDP =>
      let pcb ← d.udpPcb ref.index
      return [.udp (UdpPcb.send d.stack.udp.port pcb buf).2.2.2]
  | .TCP =>
      let pcb ← d.tcpPcb ref.index
      return ((TcpPcb.send d.stack.tcp.port pcb buf).2.2.2.map Packet.tcp).toList

/-- The socket's PCB has no peer. -/
def Peerless (d : Daemon) (ref : SocketRef) (so : Socket) : Prop :=
  match so.type with
  | .UDP => ∃ pcb, (d.udpSlot ref.index).pcb = some pcb ∧ pcb.fport = 0
  | .TCP => ∃ pcb, (d.tcpSlot ref.index).pcb = some pcb ∧ pcb.fport = 0

/-- The socket's PCB is as before, but for its local port. -/
def SameButPort (d d' : Daemon) (ref : SocketRef) (so : Socket) : Prop :=
  match so.type with
  | .UDP => ∃ lport, (d'.udpSlot ref.index).pcb =
      (d.udpSlot ref.index).pcb.map fun pcb => { pcb with lport := lport }
  | .TCP => ∃ lport, (d'.tcpSlot ref.index).pcb =
      (d.tcpSlot ref.index).pcb.map fun pcb => { pcb with lport := lport }

/-- A `send` without an address is answered with an error, and does nothing else. -/
structure RejectedCleanly (d : Daemon) (ch : Nat) (ref : SocketRef) (so : Socket)
    (buf : List UInt8) (flags : Int32) (d' : Daemon) (resp : Response) : Prop where
  answered : sendtoCall d ch buf none = .ok (d', resp)
  reported : ∃ errno, (Call.sendto buf flags none).result resp = .fails errno
  silent : emitted d ch buf = .ok []
  same : SameButPort d d' ref so

section Sends

variable {d : Daemon} {ch : Nat} {ref : SocketRef} {so : Socket}

/-- The reply of `sendtoCall` has no `errno`, whatever `Pcb::send` returned. -/
theorem not_reported {d' : Daemon} {resp : Response} {buf : List UInt8} (flags : Int32)
    (h : sendtoCall d ch buf none = .ok (d', resp)) (errno : Int32) :
    (Call.sendto buf flags none).result resp ≠ .fails errno := by
  obtain ⟨sent, -, -, rfl⟩ := sendtoCall_handed h
  unfold Call.result
  rw [if_neg (by simp [retOk])]
  exact returnRetAndErrno_none_ne _ errno

theorem udp_send_eq (hso : HasSocket d ch ref so) (htype : so.type = .UDP) {pcb : Pcb}
    (hpcb : (d.udpSlot ref.index).pcb = some pcb) (buf : List UInt8) :
    sendtoCall d ch buf none =
        .ok (udpCalled d ref.index (UdpPcb.send d.stack.udp.port pcb buf).1
            (UdpPcb.send d.stack.udp.port pcb buf).2.1,
          retOk (.sendtoCall (.ofInt buf.length) none)) ∧
      emitted d ch buf = .ok [.udp (UdpPcb.send d.stack.udp.port pcb buf).2.2.2] := by
  have hsocket := socket_eq_ok_iff.mpr hso
  have hudp := udpPcb_of_pcb hpcb
  constructor
  · simp only [sendtoCall, hsocket, htype, hudp, bind, Except.bind, pure, Except.pure]
    rfl
  · simp only [emitted, hsocket, htype, hudp, bind, Except.bind, pure, Except.pure]

theorem tcp_send_eq (hso : HasSocket d ch ref so) (htype : so.type = .TCP) {pcb : TcpPcb}
    (hpcb : (d.tcpSlot ref.index).pcb = some pcb) (buf : List UInt8) :
    sendtoCall d ch buf none =
        .ok (tcpCalled d ref.index (TcpPcb.send d.stack.tcp.port pcb buf).1
            (TcpPcb.send d.stack.tcp.port pcb buf).2.1,
          retOk (.sendtoCall (.ofInt (TcpPcb.send d.stack.tcp.port pcb buf).2.2.1) none)) ∧
      emitted d ch buf =
        .ok ((TcpPcb.send d.stack.tcp.port pcb buf).2.2.2.map Packet.tcp).toList := by
  have hsocket := socket_eq_ok_iff.mpr hso
  have htcp := tcpPcb_of_pcb hpcb
  constructor
  · simp only [sendtoCall, hsocket, htype, htcp, bind, Except.bind, pure, Except.pure]
    rfl
  · simp only [emitted, hsocket, htype, htcp, bind, Except.bind, pure, Except.pure]

theorem peer_bind (port : UInt16) (pcb : Pcb) :
    (Pcb.bind port pcb).2.faddr = pcb.faddr ∧ (Pcb.bind port pcb).2.fport = pcb.fport := by
  unfold Pcb.bind
  split <;> exact ⟨rfl, rfl⟩

/-- In CLOSED the segment is a SYN, whoever it goes to. -/
theorem send_closed {pcb : TcpPcb} (hclosed : pcb.connState = .CLOSED) (port : UInt16)
    (buf : List UInt8) :
    ∃ segment, (TcpPcb.send port pcb buf).2.2 = ((buf.length : Int), some segment) ∧
      segment.hdr.syn = true ∧ segment.hdr.dest = pcb.fport ∧
      segment.ipovly.daddr = pcb.faddr ∧
      (TcpPcb.send port pcb buf).2.1.connState = .SYN_SENT := by
  obtain ⟨hfaddr, hfport⟩ := peer_bind port pcb.toPcb
  simp only [TcpPcb.send, hclosed]
  exact ⟨_, rfl, rfl, hfport, hfaddr, trivial⟩

/-- No `send` without a peer is rejected, and all are answered with a count.  A UDP
socket sends its datagram to port 0, a closed TCP socket a SYN. -/
theorem peerless_send_not_rejected (hso : HasSocket d ch ref so) (hpeer : Peerless d ref so)
    (buf : List UInt8) (flags : Int32) :
    (∀ d' resp, ¬ RejectedCleanly d ch ref so buf flags d' resp) ∧
    (∃ d' count, count ≤ buf.length ∧
      sendtoCall d ch buf none = .ok (d', retOk (.sendtoCall (.ofInt count) none))) ∧
    (so.type = .UDP → ∃ d' datagram,
      sendtoCall d ch buf none = .ok (d', retOk (.sendtoCall (.ofInt buf.length) none)) ∧
      emitted d ch buf = .ok [.udp datagram] ∧ datagram.hdr.dest = 0) ∧
    (so.type = .TCP → ∀ pcb, (d.tcpSlot ref.index).pcb = some pcb → pcb.connState = .CLOSED →
      ∃ d' segment pcb',
        sendtoCall d ch buf none = .ok (d', retOk (.sendtoCall (.ofInt buf.length) none)) ∧
        emitted d ch buf = .ok [.tcp segment] ∧ segment.hdr.syn = true ∧ segment.hdr.dest = 0 ∧
        (d'.tcpSlot ref.index).pcb = some pcb' ∧ pcb'.connState = .SYN_SENT) := by
  refine ⟨?_, ?_, ?_, ?_⟩
  · intro d' resp hrejected
    obtain ⟨errno, hfails⟩ := hrejected.reported
    exact not_reported flags hrejected.answered errno hfails
  · obtain ⟨d', resp, hsend⟩ : ∃ d' resp, sendtoCall d ch buf none = .ok (d', resp) := by
      cases htype : so.type with
      | UDP =>
          simp only [Peerless, htype] at hpeer
          obtain ⟨pcb, hpcb, -⟩ := hpeer
          exact ⟨_, _, (udp_send_eq hso htype hpcb buf).1⟩
      | TCP =>
          simp only [Peerless, htype] at hpeer
          obtain ⟨pcb, hpcb, -⟩ := hpeer
          exact ⟨_, _, (tcp_send_eq hso htype hpcb buf).1⟩
    obtain ⟨sent, -, hle, rfl⟩ := sendtoCall_handed hsend
    exact ⟨d', sent.length, hle, hsend⟩
  · intro htype
    simp only [Peerless, htype] at hpeer
    obtain ⟨pcb, hpcb, hfport⟩ := hpeer
    obtain ⟨hsend, hemitted⟩ := udp_send_eq hso htype hpcb buf
    exact ⟨_, _, hsend, hemitted, (peer_bind d.stack.udp.port pcb).2.trans hfport⟩
  · intro htype pcb hpcb hclosed
    simp only [Peerless, htype, hpcb, Option.some.injEq, exists_eq_left'] at hpeer
    obtain ⟨hsend, hemitted⟩ := tcp_send_eq hso htype hpcb buf
    obtain ⟨segment, hsent, hsyn, hdest, -, hstate⟩ :=
      send_closed hclosed d.stack.tcp.port buf
    rw [hsent] at hsend hemitted
    refine ⟨_, segment, _, hsend, hemitted, hsyn, hdest.trans hpeer, ?_, hstate⟩
    rw [tcpSlot_tcpCalled hpcb]

end Sends

/-- The daemon with a new TCP socket on its first channel. -/
def sampleTcp : Daemon :=
  { sampleDaemon with
    rrChannels := [some { socket := some { type := .TCP, index := 0 } }]
    stack := { sampleDaemon.stack with
      tcp :=
        { pcbs :=
            [{ pcb := some (.new 0x0100a8c0 0 0 0 0)
               socket := some { type := .TCP, nonblocking := false } }]
          port := 1024 } } }

theorem sampleTcp_hasSocket :
    HasSocket sampleTcp 0 { type := .TCP, index := 0 } { type := .TCP, nonblocking := false } :=
  ⟨rfl, rfl⟩

theorem sampleTcp_peerless :
    Peerless sampleTcp { type := .TCP, index := 0 } { type := .TCP, nonblocking := false } :=
  ⟨_, rfl, rfl⟩

theorem sampleTcp_send_not_rejected :
    (∀ d' resp, ¬ RejectedCleanly sampleTcp 0 { type := .TCP, index := 0 }
      { type := .TCP, nonblocking := false } [1, 2] 0 d' resp) ∧
      ∃ segment, emitted sampleTcp 0 [1, 2] = .ok [.tcp segment] ∧ segment.hdr.syn = true := by
  obtain ⟨hnot, -, -, htcp⟩ :=
    peerless_send_not_rejected sampleTcp_hasSocket sampleTcp_peerless [1, 2] 0
  obtain ⟨d', segment, pcb, -, hemitted, hsyn, -⟩ := htcp rfl _ rfl rfl
  exact ⟨hnot, segment, hemitted, hsyn⟩

theorem sampleTcp_reachable : DaemonSurvival.machine.Reachable (.running sampleTcp) :=
  sampleAccepted_reachable.step (a := sampleRead (.socketCall 2 1 0)) trivial rfl

/-- A `send` on a socket that was never connected opens a connection to port 0 of
0.0.0.0, and counts two bytes as sent. -/
theorem syn_to_nowhere :
    DaemonSurvival.machine.Reachable (.running sampleTcp) ∧
      Peerless sampleTcp { type := .TCP, index := 0 } { type := .TCP, nonblocking := false } ∧
      (∃ d' segment, sendtoCall sampleTcp 0 [1, 2] none =
          .ok (d', retOk (.sendtoCall 2 none)) ∧
        emitted sampleTcp 0 [1, 2] = .ok [.tcp segment] ∧ segment.hdr.syn = true ∧
        segment.ipovly.daddr = 0 ∧ segment.hdr.dest = 0 ∧
        (d'.tcpSlot 0).pcb.map TcpPcb.connState = some .SYN_SENT) ∧
      ∀ d' resp, ¬ RejectedCleanly sampleTcp 0 { type := .TCP, index := 0 }
        { type := .TCP, nonblocking := false } [1, 2] 0 d' resp := by
  refine ⟨sampleTcp_reachable, sampleTcp_peerless, ⟨_, _, rfl, rfl, rfl, rfl, rfl, rfl⟩, ?_⟩
  intro d' resp hrejected
  cases hrejected.silent

end MuQuinet.PeerlessSends
