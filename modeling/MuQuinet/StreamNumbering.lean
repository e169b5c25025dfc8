import MuQuinet.TcpConnections

namespace MuQuinet.StreamNumbering

open MuQuinet.Lib.Machines
open MuQuinet.Buffers
open MuQuinet.Sockets
open MuQuinet.Pcbs
open MuQuinet.TcpConnections (Connection ClientState pcbAfter eventsOf recv_eq)
open MuQuinet.TcpLayer
open MuQuinet.Wire

/-- An established connection with what it has sent so far: the buffers given to
`send` and the values it returned, the data segments with `recv_next` at their
moment, and the pure acknowledgments with `send_next` at theirs. -/
structure State where
  conn : Connection
  bufs : List (List UInt8) := []
  returned : List Int := []
  data : List (TcpSegment × UInt32) := []
  acks : List (TcpSegment × UInt32) := []

inductive Label
  | send (port : UInt16) (buf : List UInt8)
  | recv (peerAddr : SockaddrIn) (skbuf : SocketBuffer) (next : List SocketBuffer)
  | socket (so : Socket)

def acked (events : List Event) : List TcpSegment :=
  events.filterMap fun
    | .acked segment => some segment
    | _ => none

def next (s : State) : Label → Option State
  | .send port buf =>
      let (_, pcb, nwritten, segment) := TcpPcb.send port s.conn.pcb buf
      some
        { s with
          conn := { s.conn with pcb := pcb }
          bufs := s.bufs ++ [buf]
          returned := s.returned ++ [nwritten]
          data := s.data ++ segment.toList.map fun seg => (seg, s.conn.pcb.recvNext) }
  | .recv peerAddr skbuf rest => do
      let (slot, events) := s.conn.recv peerAddr skbuf rest
      let pcb ← slot.pcb
      let so ← slot.socket
      some
        { s with
          conn := { pcb := pcb, so := so }
          acks := s.acks ++ (acked events).map fun seg => (seg, s.conn.pcb.sendNext) }
  | .socket so => some { s with conn := { s.conn with so := so } }

def machine : Machine State Label where
  initial s := s.conn.pcb.connState = .ESTABLISHED ∧ s.conn.pcb.sendNext = iss + 1 ∧
    s.bufs = [] ∧ s.returned = [] ∧ s.data = [] ∧ s.acks = []
  next := next

/-- The number of bytes in some buffers. -/
def bytesIn (bufs : List (List UInt8)) : Nat :=
  (bufs.map List.length).sum

structure IsDataSegment (seq recvNext : UInt32) (buf : List UInt8) (segment : TcpSegment) :
    Prop where
  seq_eq : ntohl segment.hdr.seq = seq
  ack : segment.hdr.ack = true
  ackSeq_eq : ntohl segment.hdr.ackSeq = recvNext
  buf_eq : segment.buf = buf

/-- The data segments carry the buffers one after the other, from `iss + 1` up to
`send_next`. -/
structure Numbered (s : State) : Prop where
  length_eq : s.data.length = s.bufs.length
  data : ∀ k segment recvNext, s.data[k]? = some (segment, recvNext) →
    ∃ buf, s.bufs[k]? = some buf ∧
      IsDataSegment (iss + 1 + .ofNat (bytesIn (s.bufs.take k))) recvNext buf segment
  acks : ∀ segment sendNext, (segment, sendNext) ∈ s.acks → ntohl segment.hdr.seq = sendNext
  sendNext_eq : s.conn.pcb.sendNext = iss + 1 + .ofNat (bytesIn s.bufs)
  returned_eq : s.returned.sum % 2 ^ 32 = (s.conn.pcb.sendNext - (iss + 1)).toNat

/-- Where one data segment ends, the next one begins. -/
def Tiled (s : State) : Prop :=
  ∀ k segment segment' recvNext recvNext', s.data[k]? = some (segment, recvNext) →
    s.data[k + 1]? = some (segment', recvNext') →
      ntohl segment'.hdr.seq = ntohl segment.hdr.seq + .ofNat segment.buf.length

theorem bytesIn_append (bufs : List (List UInt8)) (buf : List UInt8) :
    bytesIn (bufs ++ [buf]) = bytesIn bufs + buf.length := by
  simp [bytesIn]

theorem send_data {pcb : TcpPcb} (hestab : pcb.connState = .ESTABLISHED) (port : UInt16)
    (buf : List UInt8) :
    ∃ port' pcb' segment, TcpPcb.send port pcb buf =
      (port', pcb', (buf.length : Int), some segment) ∧
      pcb'.connState = .ESTABLISHED ∧ pcb'.sendNext = pcb.sendNext + .ofNat buf.length ∧
      IsDataSegment pcb.sendNext pcb.recvNext buf segment := by
  simp only [TcpPcb.send, hestab]
  refine ⟨_, _, _, rfl, rfl, rfl, ?_⟩
  exact ⟨ntohl_htonl pcb.sendNext, rfl, ntohl_htonl pcb.recvNext, rfl⟩

theorem ack2peer_seq (pcb : TcpPcb) (value : UInt32) :
    ntohl (pcb.ack2peer value).hdr.seq = pcb.sendNext :=
  ntohl_htonl pcb.sendNext

theorem acked_seq {c : Connection} (hestab : c.pcb.connState = .ESTABLISHED)
    (skbuf : SocketBuffer) :
    ∀ segment ∈ acked (eventsOf c skbuf), ntohl segment.hdr.seq = c.pcb.sendNext := by
  intro segment hsegment
  obtain ⟨event, hevent, hacked⟩ := List.mem_filterMap.mp hsegment
  simp only [eventsOf, hestab] at hevent
  split at hevent
  · rcases List.mem_append.mp hevent with hqueued | hack
    · split at hqueued
      · cases hqueued
      · obtain rfl := List.mem_singleton.mp hqueued
        cases hacked
    · obtain rfl := List.mem_singleton.mp hack
      obtain rfl := Option.some.inj hacked
      rw [ack2peer_seq, TcpConnections.pcbAfter_sendNext]
  · cases hevent

/-- Receiving leaves `send_next` alone. -/
theorem sendNext_of_recv {s t : State} {peerAddr : SockaddrIn} {skbuf : SocketBuffer}
    {rest : List SocketBuffer} (h : next s (.recv peerAddr skbuf rest) = some t) :
    t.conn.pcb.sendNext = s.conn.pcb.sendNext := by
  obtain ⟨so, hrecv⟩ := recv_eq s.conn peerAddr skbuf rest
  simp only [next, hrecv, Option.bind_eq_bind, Option.bind_some, Option.some.injEq] at h
  subst h
  exact TcpConnections.pcbAfter_sendNext s.conn.pcb skbuf

structure Invariant (s : State) : Prop where
  established : s.conn.pcb.connState = .ESTABLISHED
  length_eq : s.data.length = s.bufs.length
  data : ∀ k segment recvNext, s.data[k]? = some (segment, recvNext) →
    ∃ buf, s.bufs[k]? = some buf ∧
      IsDataSegment (iss + 1 + .ofNat (bytesIn (s.bufs.take k))) recvNext buf segment
  acks : ∀ segment sendNext, (segment, sendNext) ∈ s.acks → ntohl segment.hdr.seq = sendNext
  sendNext_eq : s.conn.pcb.sendNext = iss + 1 + .ofNat (bytesIn s.bufs)
  returned_eq : s.returned.sum = bytesIn s.bufs

theorem invariant_send {s t : State} (h : Invariant s) {port : UInt16} {buf : List UInt8}
    (hnext : next s (.send port buf) = some t) : Invariant t := by
  obtain ⟨port', pcb', segment, hsend, hestab, hsendNext, hsegment⟩ :=
    send_data h.established port buf
  simp only [next, hsend, Option.toList_some, List.map_cons, List.map_nil,
    Option.some.injEq] at hnext
  subst hnext
  constructor
  · exact hestab
  · simp only [List.length_append, h.length_eq, List.length_singleton]
  · intro k seg recvNext hk
    rcases Nat.lt_or_ge k s.bufs.length with hlt | hge
    · rw [List.getElem?_append_left (by rwa [h.length_eq])] at hk
      obtain ⟨earlier, hearlier, hdata⟩ := h.data k seg recvNext hk
      refine ⟨earlier, ?_, ?_⟩
      · rwa [List.getElem?_append_left hlt]
      · rwa [List.take_append_of_le_length (Nat.le_of_lt hlt)]
    · rw [List.getElem?_append_right (by rwa [h.length_eq]), h.length_eq] at hk
      obtain rfl : k = s.bufs.length := by
        have hlength := (List.getElem?_eq_some_iff.mp hk).1
        simp only [List.length_singleton] at hlength
        omega
      simp only [Nat.sub_self, List.getElem?_cons_zero, Option.some.injEq, Prod.mk.injEq] at hk
      obtain ⟨rfl, rfl⟩ := hk
      refine ⟨buf, by simp, ?_⟩
      rw [List.take_left, ← h.sendNext_eq]
      exact hsegment
  · exact h.acks
  · rw [bytesIn_append, UInt32.ofNat_add, ← UInt32.add_assoc, ← h.sendNext_eq]
    exact hsendNext
  · rw [List.sum_append, h.returned_eq, bytesIn_append, List.sum_singleton, Int.natCast_add]

theorem invariant_recv {s t : State} (h : Invariant s) {peerAddr : SockaddrIn}
    {skbuf : SocketBuffer} {rest : List SocketBuffer}
    (hnext : next s (.recv peerAddr skbuf rest) = some t) : Invariant t := by
  have hclient : ClientState s.conn.pcb := by
    refine ⟨.inr (.inr h.established), ?_⟩
    intro hsynSent
    exact absurd (h.established.symm.trans hsynSent) (by decide)
  have hsendNext := sendNext_of_recv hnext
  obtain ⟨so, hrecv⟩ := recv_eq s.conn peerAddr skbuf rest
  simp only [next, hrecv, Option.bind_eq_bind, Option.bind_some, Option.some.injEq] at hnext
  subst hnext
  constructor
  · rcases TcpConnections.connState_pcbAfter hclient skbuf with ⟨hclosed, -⟩ | hestab
    · exact absurd (h.established.symm.trans hclosed) (by decide)
    · exact hestab
  · exact h.length_eq
  · exact h.data
  · intro segment sendNext hmem
    rcases List.mem_append.mp hmem with hearlier | hnow
    · exact h.acks segment sendNext hearlier
    · obtain ⟨seg, hseg, hpair⟩ := List.mem_map.mp hnow
      obtain ⟨rfl, rfl⟩ := Prod.mk.inj hpair
      exact acked_seq h.established skbuf seg hseg
  · exact hsendNext.trans h.sendNext_eq
  · exact h.returned_eq

theorem invariant {s : State} (h : machine.Reachable s) : Invariant s := by
  refine h.invariant ?_ ?_
  · rintro s ⟨hestab, hsendNext, hbufs, hreturned, hdata, hacks⟩
    constructor
    · exact hestab
    · rw [hdata, hbufs]
      rfl
    · simp [hdata]
    · simp [hacks]
    · rw [hsendNext, hbufs]
      rfl
    · rw [hreturned, hbufs]
      rfl
  · intro s a t hs _ hnext
    cases a with
    | send port buf => exact invariant_send hs hnext
    | recv peerAddr skbuf rest => exact invariant_recv hs hnext
    | socket so =>
        cases hnext
        exact ⟨hs.established, hs.length_eq, hs.data, hs.acks, hs.sendNext_eq, hs.returned_eq⟩

theorem Invariant.numbered {s : State} (h : Invariant s) : Numbered s := by
  refine ⟨h.length_eq, h.data, h.acks, h.sendNext_eq, ?_⟩
  rw [h.returned_eq, h.sendNext_eq, UInt32.add_comm, UInt32.add_sub_cancel, UInt32.toNat_ofNat']
  rfl

theorem Numbered.tiled {s : State} (h : Numbered s) : Tiled s := by
  intro k segment segment' recvNext recvNext' hk hk'
  obtain ⟨buf, hbuf, hdata⟩ := h.data k segment recvNext hk
  obtain ⟨buf', hbuf', hdata'⟩ := h.data (k + 1) segment' recvNext' hk'
  have htake : s.bufs.take (k + 1) = s.bufs.take k ++ [buf] := by
    rw [List.take_add_one, hbuf, Option.toList_some]
  rw [hdata'.seq_eq, hdata.seq_eq, htake, bytesIn_append, hdata.buf_eq, UInt32.ofNat_add,
    ← UInt32.add_assoc]

/-- Whatever arrives in between, the data segments number the buffers given to
`send` without gap or overlap. -/
theorem stream_numbered {s : State} (h : machine.Reachable s) :
    Numbered s ∧ Tiled s ∧
      ∀ peerAddr skbuf rest t, machine.next s (.recv peerAddr skbuf rest) = some t →
        t.conn.pcb.sendNext = s.conn.pcb.sendNext := by
  have hnumbered := (invariant h).numbered
  refine ⟨hnumbered, hnumbered.tiled, ?_⟩
  intro peerAddr skbuf rest t hnext
  exact sendNext_of_recv hnext

def sampleEstablished : State :=
  { conn :=
      { pcb :=
          { faddr := 0x0100000a, fport := 0x5000, laddr := 0x0200000a, lport := 0x0104
            connState := .ESTABLISHED, onConnEstabCB := none
            sendUnack := 2, sendNext := 2, irs := 8, recvNext := 9 }
        so := { type := .TCP, nonblocking := false } } }

/-- A segment of the peer, which acknowledges the bytes before `ack`. -/
def sampleSegment (seq ack : UInt8) (data : List UInt8) : SocketBuffer :=
  { tunDeviceRx ([0x45, 0, 0, 40, 0, 7, 0, 0, 64, 6, 0, 0, 10, 0, 0, 1, 10, 0, 0, 2] ++
      [0, 80, 4, 1, 0, 0, 0, seq, 0, 0, 0, ack, 0x50, 0x10, 0, 0, 0, 0, 0, 0] ++ data) with
    transportHdr := some 20 }

/-- Between two buffers a byte comes from the peer. -/
def sampleCalls : List Label :=
  [.send 1024 [1, 2, 3], .recv .zero (sampleSegment 9 2 [8]) [], .send 1024 [4, 5],
    .recv .zero (sampleSegment 10 5 []) []]

/-- The buffers of three and two bytes are numbered 2 and 5, and the acknowledgment between
them 5. -/
theorem stream_numbered_sample :
    ∃ s t, machine.exec sampleEstablished sampleCalls = some s ∧
      s.data.map (fun p => ntohl p.1.hdr.seq) = [2, 5] ∧
      s.acks.map (fun p => ntohl p.1.hdr.seq) = [5] ∧ Numbered s ∧ Tiled s ∧
      machine.next s (.recv .zero (sampleSegment 10 7 [9]) []) = some t ∧
      t.conn.pcb.sendNext = s.conn.pcb.sendNext := by
  obtain ⟨s, t, hexec, hdata, hacks, hnext⟩ : ∃ s t,
      machine.exec sampleEstablished sampleCalls = some s ∧
        s.data.map (fun p => ntohl p.1.hdr.seq) = [2, 5] ∧
        s.acks.map (fun p => ntohl p.1.hdr.seq) = [5] ∧
        machine.next s (.recv .zero (sampleSegment 10 7 [9]) []) = some t :=
    ⟨_, _, rfl, by decide, by decide, rfl⟩
  have hinitial : machine.Reachable sampleEstablished := .initial ⟨rfl, rfl, rfl, rfl, rfl, rfl⟩
  obtain ⟨hnumbered, htiled, hkept⟩ := stream_numbered (Machine.reachable_of_exec hinitial hexec)
  exact ⟨s, t, hexec, hdata, hacks, hnumbered, htiled, hnext, hkept _ _ _ t hnext⟩

end MuQuinet.StreamNumbering
