import MuQuinet.TcpConnections

namespace MuQuinet.HandshakeSafety

open MuQuinet.Buffers
open MuQuinet.Sockets
open MuQuinet.Pcbs
open MuQuinet.TcpConnections
open MuQuinet.TcpLayer
open MuQuinet.Wire

/-- A segment that answers exactly our SYN. -/
def Acceptable (hdr : TcpHeader) : Prop :=
  hdr.syn = true ∧ hdr.ack = true ∧ ntohl hdr.ackSeq = iss + 1

instance (hdr : TcpHeader) : Decidable (Acceptable hdr) :=
  inferInstanceAs (Decidable (_ ∧ _))

structure Opened (hdr : TcpHeader) (pcb : TcpPcb) : Prop where
  connState : pcb.connState = .ESTABLISHED
  recvNext : pcb.recvNext = ntohl hdr.seq + 1
  sendUnack : pcb.sendUnack = iss + 1
  sendNext : pcb.sendNext = iss + 1

structure Unchanged (pcb pcb' : TcpPcb) (events : List Event) : Prop where
  connState : pcb'.connState = pcb.connState
  sendUnack : pcb'.sendUnack = pcb.sendUnack
  sendNext : pcb'.sendNext = pcb.sendNext
  irs : pcb'.irs = pcb.irs
  recvNext : pcb'.recvNext = pcb.recvNext
  not_fired : ∀ rrChannel, .onConnEstab rrChannel ∉ events

/-- What the arrival of a segment must do to a connection whose SYN is out. -/
structure Safe (c : Connection) (peerAddr : SockaddrIn) (skbuf : SocketBuffer)
    (next : List SocketBuffer) : Prop where
  opened : Acceptable (tcphdr skbuf) →
    ∃ pcb, (c.recv peerAddr skbuf next).1.pcb = some pcb ∧ Opened (tcphdr skbuf) pcb
  unchanged : ¬ Acceptable (tcphdr skbuf) →
    ∃ pcb, (c.recv peerAddr skbuf next).1.pcb = some pcb ∧
      Unchanged c.pcb pcb (c.recv peerAddr skbuf next).2
  no_assertFailed : .assertFailed ∉ (c.recv peerAddr skbuf next).2

theorem recv_synSent {c : Connection} (h : c.pcb.connState = .SYN_SENT) (peerAddr : SockaddrIn)
    (skbuf : SocketBuffer) (next : List SocketBuffer) :
    (c.recv peerAddr skbuf next).1.pcb = some (c.pcb.recvSynSent (tcphdr skbuf)).1 ∧
      (c.recv peerAddr skbuf next).2 = (c.pcb.recvSynSent (tcphdr skbuf)).2 := by
  obtain ⟨so, hrecv⟩ := recv_eq c peerAddr skbuf next
  rw [hrecv]
  simp only [pcbAfter, eventsOf, h, and_self]

theorem assertFailed_notMem_iff (pcb : TcpPcb) (hdr : TcpHeader) :
    .assertFailed ∉ (pcb.recvSynSent hdr).2 ↔ hdr.syn = true ∧ hdr.ack = true := by
  unfold TcpPcb.recvSynSent
  rcases hdr.syn with _ | _
  · simp
  · rcases hdr.ack with _ | _
    · simp
    · simp

theorem opened_recvSynSent {pcb : TcpPcb} (hunack : pcb.sendUnack = iss)
    (hnext : pcb.sendNext = iss + 1) (hdr : TcpHeader) :
    Opened hdr (pcb.recvSynSent hdr).1 := by
  constructor
  · rfl
  · rfl
  · change pcb.sendUnack + 1 = iss + 1
    rw [hunack]
  · exact hnext

/-- Every segment opens the connection, so the handshake is safe exactly against
those that should. -/
theorem safe_iff_acceptable {c : Connection} (hreached : machine.Reachable c)
    (hsynSent : c.pcb.connState = .SYN_SENT) (peerAddr : SockaddrIn) (skbuf : SocketBuffer)
    (next : List SocketBuffer) :
    Safe c peerAddr skbuf next ↔ Acceptable (tcphdr skbuf) := by
  obtain ⟨hpcb, hevents⟩ := recv_synSent hsynSent peerAddr skbuf next
  obtain ⟨hunack, hnext⟩ := (clientState hreached).synSent hsynSent
  constructor
  · intro hsafe
    by_contra hother
    obtain ⟨pcb, hpcb', hunchanged⟩ := hsafe.unchanged hother
    rw [hpcb, Option.some.injEq] at hpcb'
    have hstate := hunchanged.connState
    rw [← hpcb', hsynSent] at hstate
    cases hstate
  · intro hacceptable
    constructor
    · intro _
      exact ⟨_, hpcb, opened_recvSynSent hunack hnext _⟩
    · intro hother
      exact absurd hacceptable hother
    · rw [hevents, assertFailed_notMem_iff]
      exact ⟨hacceptable.1, hacceptable.2.1⟩

def sampleClosed : Connection :=
  { pcb := .new 0x0200000a 0 0 0 0
    so := { type := .TCP, nonblocking := false } }

/-- The connection after `connect` to port 80 of 10.0.0.1. -/
def sampleSynSent : Connection :=
  { sampleClosed with
    pcb := (TcpPcb.connect 1024 sampleClosed.pcb 0x0100000a 0x5000).2.1 }

/-- A segment of the peer with the given flags and acknowledgment number. -/
def sampleSegment (flags ack : UInt8) : SocketBuffer :=
  { tunDeviceRx ([0x45, 0, 0, 40, 0, 7, 0, 0, 64, 6, 0, 0, 10, 0, 0, 1, 10, 0, 0, 2] ++
      [0, 80, 4, 1, 0, 0, 0, 8, 0, 0, 0, ack, 0x50, flags, 0, 0, 0, 0, 0, 0]) with
    transportHdr := some 20 }

theorem sampleSynSent_reachable : machine.Reachable sampleSynSent := by
  have hinitial : machine.Reachable sampleClosed := .initial ⟨_, _, _, _, _, _, rfl⟩
  exact hinitial.step (a := .connect 1024 0x0100000a 0x5000) trivial rfl

theorem safe_synAck : Safe sampleSynSent .zero (sampleSegment 0x12 2) [] := by
  apply (safe_iff_acceptable sampleSynSent_reachable rfl .zero (sampleSegment 0x12 2) []).mpr
  decide

/-- A reset opens the connection. -/
theorem not_safe_reset : ¬ Safe sampleSynSent .zero (sampleSegment 0x04 0) [] := by
  have hother : ¬ Acceptable (tcphdr (sampleSegment 0x04 0)) := by decide
  have hopened : ((sampleSynSent.recv .zero (sampleSegment 0x04 0) []).1.pcb.map
      TcpPcb.connState) = some .ESTABLISHED := by decide
  intro hsafe
  obtain ⟨pcb, hpcb, hunchanged⟩ := hsafe.unchanged hother
  rw [hpcb, Option.map_some, hunchanged.connState] at hopened
  exact absurd hopened (by decide)

end MuQuinet.HandshakeSafety
