import MuQuinet.StreamNumbering

namespace MuQuinet.SentSegments

open MuQuinet.Lib.Machines
open MuQuinet.Buffers
open MuQuinet.StreamNumbering (acked)
open MuQuinet.TcpConnections (Connection Label eventsOf pcbAfter recv_eq)
open MuQuinet.TcpLayer
open MuQuinet.Wire

/-- A connection with every segment it has sent. -/
structure State where
  conn : Connection
  sent : List TcpSegment

/-- What a call of a `TcpPcb` hands to `Ip::tx`. -/
def sentBy (c : Connection) : Label → List TcpSegment
  | .connect port faddr fport => (TcpPcb.connect port c.pcb faddr fport).2.2.toList
  | .send port buf => (TcpPcb.send port c.pcb buf).2.2.2.toList
  | .recv peerAddr skbuf next => acked (c.recv peerAddr skbuf next).2
  | .setOnConnEstabCB _ => []
  | .socket _ => []

def next (s : State) (a : Label) : Option State :=
  (s.conn.step a).map fun conn => { conn := conn, sent := s.sent ++ sentBy s.conn a }

def machine : Machine State Label where
  initial s := TcpConnections.machine.initial s.conn ∧ s.sent = []
  next := next

structure IsSyn (segment : TcpSegment) : Prop where
  syn : segment.hdr.syn = true
  ack : segment.hdr.ack = false
  seq_eq : ntohl segment.hdr.seq = iss

/-- A segment of a connection that has been opened. -/
structure Continues (seq : UInt32) (segment : TcpSegment) : Prop where
  syn : segment.hdr.syn = false
  ack : segment.hdr.ack = true
  seq_eq : ntohl segment.hdr.seq = seq

/-- Segments that begin at a sequence number, and each of which begins where the one before
it has ended. -/
inductive Chained (start : UInt32) : List TcpSegment → UInt32 → Prop
  | nil : Chained start [] start
  | snoc {segments : List TcpSegment} {segment : TcpSegment} {seq : UInt32} :
      Chained start segments seq → Continues seq segment →
      Chained start (segments ++ [segment]) (seq + .ofNat segment.buf.length)

/-- What a PCB has said to its peer: nothing, a SYN, or a SYN and then segments from `iss + 1`
on without gap or overlap, the last of which acknowledges all that has been received.  The
SYN counts as one, also where it carries data, which the next segment then overlaps. -/
inductive Conversation (pcb : TcpPcb) : List TcpSegment → Prop
  | closed : pcb.connState = .CLOSED → Conversation pcb []
  | synSent {syn : TcpSegment} : pcb.connState = .SYN_SENT → pcb.sendNext = iss + 1 →
      IsSyn syn → Conversation pcb [syn]
  | established {syn last : TcpSegment} {segments : List TcpSegment} :
      pcb.connState = .ESTABLISHED → IsSyn syn →
      Chained (iss + 1) (segments ++ [last]) pcb.sendNext →
      ntohl last.hdr.ackSeq = pcb.recvNext → Conversation pcb (syn :: (segments ++ [last]))

section Steps

variable {pcb pcb' : TcpPcb} {sent : List TcpSegment}

/-- The fields that a conversation is about. -/
theorem Conversation.of_eq (h : Conversation pcb sent) (hstate : pcb'.connState = pcb.connState)
    (hsendNext : pcb'.sendNext = pcb.sendNext) (hrecvNext : pcb'.recvNext = pcb.recvNext) :
    Conversation pcb' sent := by
  cases h with
  | closed hclosed => exact .closed (hstate.trans hclosed)
  | synSent hsynSent hnext hsyn =>
      exact .synSent (hstate.trans hsynSent) (hsendNext.trans hnext) hsyn
  | established hestab hsyn hchained hlast =>
      rw [← hsendNext] at hchained
      exact .established (hstate.trans hestab) hsyn hchained (hlast.trans hrecvNext.symm)

/-- A segment more, on an open connection. -/
theorem Conversation.goesOn {syn segment : TcpSegment} {segments : List TcpSegment}
    {seq : UInt32} (hsyn : IsSyn syn) (hchained : Chained (iss + 1) segments seq)
    (hsegment : Continues seq segment) (hestab : pcb.connState = .ESTABLISHED)
    (hsendNext : pcb.sendNext = seq + .ofNat segment.buf.length)
    (hackSeq : ntohl segment.hdr.ackSeq = pcb.recvNext) :
    Conversation pcb (syn :: segments ++ [segment]) := by
  have hlonger := hchained.snoc hsegment
  rw [← hsendNext] at hlonger
  exact .established hestab hsyn hlonger hackSeq

theorem Conversation.send (h : Conversation pcb sent) (port : UInt16) (buf : List UInt8) :
    Conversation (TcpPcb.send port pcb buf).2.1
      (sent ++ (TcpPcb.send port pcb buf).2.2.2.toList) := by
  cases h with
  | closed hclosed =>
      simp only [TcpPcb.send, hclosed]
      exact .synSent rfl rfl ⟨rfl, rfl, ntohl_htonl iss⟩
  | synSent hsynSent hnext hsyn =>
      simp only [TcpPcb.send, hsynSent]
      exact .synSent rfl hnext hsyn
  | established hestab hsyn hchained hlast =>
      simp only [TcpPcb.send, hestab]
      exact .goesOn hsyn hchained ⟨rfl, rfl, ntohl_htonl _⟩ rfl rfl (ntohl_htonl _)

theorem Conversation.connect (h : Conversation pcb sent) (port : UInt16) (faddr : UInt32)
    (fport : UInt16) :
    Conversation (TcpPcb.connect port pcb faddr fport).2.1
      (sent ++ (TcpPcb.connect port pcb faddr fport).2.2.toList) := by
  have hpeer : Conversation
      ({ pcb with toPcb := (pcb.toPcb.connect port faddr fport).2 } : TcpPcb) sent :=
    h.of_eq rfl rfl rfl
  exact hpeer.send (pcb.toPcb.connect port faddr fport).1 []

theorem continues_ack2peer (pcb : TcpPcb) (value : UInt32) :
    Continues pcb.sendNext (pcb.ack2peer value) :=
  ⟨rfl, rfl, ntohl_htonl pcb.sendNext⟩

/-- A pure acknowledgment takes no sequence number. -/
theorem sendNext_ack2peer (pcb : TcpPcb) (value seq : UInt32) (h : pcb.sendNext = seq) :
    pcb.sendNext = seq + .ofNat (pcb.ack2peer value).buf.length := by
  rw [h]
  exact (UInt32.add_zero seq).symm

theorem acked_synSent {c : Connection} (h : c.pcb.connState = .SYN_SENT) (skbuf : SocketBuffer) :
    acked (eventsOf c skbuf) =
      [(pcbAfter c.pcb skbuf).ack2peer (pcbAfter c.pcb skbuf).recvNext] := by
  rw [TcpConnections.pcbAfter_synSent h]
  simp only [eventsOf, h, TcpPcb.recvSynSent]
  rcases hcb : c.pcb.onConnEstabCB with _ | rrChannel
  · split <;> rfl
  · split <;> rfl

theorem acked_estab {c : Connection} (h : c.pcb.connState = .ESTABLISHED) (skbuf : SocketBuffer) :
    acked (eventsOf c skbuf) = [] ∧ (pcbAfter c.pcb skbuf).recvNext = c.pcb.recvNext ∨
      acked (eventsOf c skbuf) =
        [(pcbAfter c.pcb skbuf).ack2peer (pcbAfter c.pcb skbuf).recvNext] := by
  simp only [eventsOf, h]
  split
  · right
    split <;> rfl
  · rename_i hempty
    left
    refine ⟨rfl, ?_⟩
    simp only [pcbAfter, h, if_neg hempty]
    exact TcpIntegrity.recvAck_recvNext c.pcb (tcphdr skbuf)

theorem Conversation.recv {c : Connection} (h : Conversation c.pcb sent) (skbuf : SocketBuffer) :
    Conversation (pcbAfter c.pcb skbuf) (sent ++ acked (eventsOf c skbuf)) := by
  have hsendNext := TcpConnections.pcbAfter_sendNext c.pcb skbuf
  cases h with
  | closed hclosed =>
      simp only [eventsOf, pcbAfter, hclosed]
      exact .closed hclosed
  | synSent hsynSent hnext hsyn =>
      rw [acked_synSent hsynSent]
      have hstate : (pcbAfter c.pcb skbuf).connState = .ESTABLISHED := by
        rw [TcpConnections.pcbAfter_synSent hsynSent]
        rfl
      have hack := continues_ack2peer (pcbAfter c.pcb skbuf) (pcbAfter c.pcb skbuf).recvNext
      rw [hsendNext.trans hnext] at hack
      exact .goesOn hsyn .nil hack hstate (sendNext_ack2peer _ _ _ (hsendNext.trans hnext))
        (ntohl_htonl _)
  | @established syn last segments hestab hsyn hchained hlast =>
      obtain ⟨recvNext, hafter⟩ := TcpConnections.pcbAfter_estab hestab skbuf
      have hstate : (pcbAfter c.pcb skbuf).connState = .ESTABLISHED := by
        rw [hafter]
        exact (TcpIntegrity.recvAck_connState _ _).trans hestab
      rcases acked_estab hestab skbuf with ⟨hquiet, hrecvNext⟩ | hacked
      · rw [hquiet, List.append_nil]
        have hsame : Conversation c.pcb (syn :: (segments ++ [last])) :=
          .established hestab hsyn hchained hlast
        exact hsame.of_eq (hstate.trans hestab.symm) hsendNext hrecvNext
      · rw [hacked]
        have hack := continues_ack2peer (pcbAfter c.pcb skbuf) (pcbAfter c.pcb skbuf).recvNext
        rw [hsendNext] at hack
        exact .goesOn hsyn hchained hack hstate (sendNext_ack2peer _ _ _ hsendNext) (ntohl_htonl _)

end Steps

section Runs

theorem conversation_step {s t : State} {a : Label} (h : Conversation s.conn.pcb s.sent)
    (hnext : next s a = some t) : Conversation t.conn.pcb t.sent := by
  obtain ⟨conn, hstep, rfl⟩ := Option.map_eq_some_iff.mp hnext
  cases a with
  | connect port faddr fport =>
      cases hstep
      exact h.connect port faddr fport
  | setOnConnEstabCB rrChannel =>
      cases hstep
      simp only [sentBy, List.append_nil]
      exact h.of_eq rfl rfl rfl
  | send port buf =>
      cases hstep
      exact h.send port buf
  | recv peerAddr skbuf next =>
      have hpcb := TcpConnections.step_recv_eq_some hstep
      obtain ⟨so, hrecv⟩ := recv_eq s.conn peerAddr skbuf next
      simp only [sentBy, hrecv, hpcb]
      exact h.recv skbuf
  | socket op =>
      simp only [sentBy, List.append_nil, (TcpConnections.step_socket_eq_some hstep).1]
      exact h

/-- From its construction on, whatever its client does and whatever arrives, a PCB sends its
SYN first and only once, then segments from `iss + 1` on without gap or overlap, and its
peer is always told how much has arrived. -/
theorem conversation {s : State} (h : machine.Reachable s) : Conversation s.conn.pcb s.sent := by
  refine h.invariant (I := fun s => Conversation s.conn.pcb s.sent) ?_ ?_
  · rintro s ⟨⟨stackAddr, sendUnack, sendNext, irs, recvNext, nonblocking, hconn⟩, hsent⟩
    rw [hconn, hsent]
    exact .closed rfl
  · intro s a t hs _ hnext
    exact conversation_step hs hnext

def sampleCreated : State :=
  { conn := { pcb := .new 0x0200000a 0 0 0 0, so := { type := .TCP, nonblocking := false } }
    sent := [] }

/-- The answer of a server to a SYN. -/
def sampleSynAck : SocketBuffer :=
  { tunDeviceRx ([0x45, 0, 0, 40, 0, 7, 0, 0, 64, 6, 0, 0, 10, 0, 0, 1, 10, 0, 0, 2] ++
      [0, 80, 4, 1, 0, 0, 0, 8, 0, 0, 0, 2, 0x50, 0x12, 16, 0, 0, 0, 0, 0]) with
    transportHdr := some 20 }

def sampleCalls : List Label :=
  [.connect 1024 0x0100000a 0x5000, .recv .zero sampleSynAck [], .send 1024 [1, 2, 3],
    .send 1024 [4, 5]]

theorem conversation_sample :
    ∃ s, machine.exec sampleCreated sampleCalls = some s ∧
      s.sent.map (fun segment => ntohl segment.hdr.seq) = [1, 2, 2, 5] ∧
      Conversation s.conn.pcb s.sent := by
  obtain ⟨s, hexec, hseq⟩ : ∃ s, machine.exec sampleCreated sampleCalls = some s ∧
      s.sent.map (fun segment => ntohl segment.hdr.seq) = [1, 2, 2, 5] := ⟨_, rfl, by decide⟩
  have hinitial : machine.Reachable sampleCreated := .initial ⟨⟨_, _, _, _, _, _, rfl⟩, rfl⟩
  exact ⟨s, hexec, hseq, conversation (Machine.reachable_of_exec hinitial hexec)⟩

end Runs

end MuQuinet.SentSegments
