import MuQuinet.DeliveryIsolation
import MuQuinet.PacketBounds
import MuQuinet.TcpIntegrity
import MuQuinet.Transmit

namespace MuQuinet.WireRoundTrip

open MuQuinet.Lib.Words
open MuQuinet.Buffers
open MuQuinet.DeliveryIsolation
open MuQuinet.IpHeaders
open MuQuinet.IpLayer
open MuQuinet.PacketBounds
open MuQuinet.Pcbs
open MuQuinet.Sockets
open MuQuinet.TcpIntegrity
open MuQuinet.TcpLayer
open MuQuinet.Transmit
open MuQuinet.UdpLayer
open MuQuinet.Wire

/-- Of the live PCBs in a list the one at an index is the only one that packets
with a four-tuple match. -/
structure OnlyMatch (t : FourTuple) (pcbs : List (Option Pcb)) (i : Nat) : Prop where
  matches_at : ∃ pcb, pcbs[i]? = some (some pcb) ∧ Matches t pcb
  only : ∀ j pcb, pcbs[j]? = some (some pcb) → Matches t pcb → j = i

theorem OnlyMatch.find_eq {t : FourTuple} {pcbs : List (Option Pcb)} {i : Nat}
    (h : OnlyMatch t pcbs i) : find pcbs t = some i := by
  obtain ⟨pcb, hget, hmatches⟩ := h.matches_at
  cases hfind : find pcbs t with
  | none => exact absurd hmatches (find_eq_none_iff.mp hfind pcb (List.mem_of_getElem? hget))
  | some j =>
      obtain ⟨curr, hcurr, hmatches'⟩ := find_eq_some hfind
      rw [h.only j curr hcurr hmatches']

/-- The four-tuple of the packets that a PCB sends, as the receiver sees it. -/
def sentFourTuple (pcb : Pcb) : FourTuple :=
  { faddr := pcb.laddr, fport := pcb.lport, laddr := pcb.faddr, lport := pcb.fport }

theorem udpHeader_at (pre : List UInt8) (hdr : UdpHeader) (rest : List UInt8) :
    UdpHeader.at (pre ++ (hdr.bytes ++ rest)) pre.length = hdr := by
  have hfirst := load16_append_right pre (hdr.bytes ++ rest) 0
  rw [Nat.add_zero] at hfirst
  simp (disch := simp) only [UdpHeader.at, hfirst, load16_append_right]
  simp (disch := simp) [UdpHeader.bytes, load16_append_of_le]

/-- Both flags lie in the byte behind the data offset. -/
theorem flags_of_byte (syn ack : Bool) :
    decide ((2 * syn.toNat + 16 * ack.toNat) % 256 / 2 % 2 = 1) = syn ∧
      decide ((2 * syn.toNat + 16 * ack.toNat) % 256 / 16 % 2 = 1) = ack := by
  cases syn <;> cases ack <;> decide

theorem tcpHeader_at (pre : List UInt8) {hdr : TcpHeader} (hdoff : hdr.doff < 16)
    (rest : List UInt8) : TcpHeader.at (pre ++ (hdr.bytes ++ rest)) pre.length = hdr := by
  have hfirst := load16_append_right pre (hdr.bytes ++ rest) 0
  have hoff : 16 * hdr.doff % 256 / 16 = hdr.doff := by
    omega
  obtain ⟨hsyn, hack⟩ := flags_of_byte hdr.syn hdr.ack
  rw [Nat.add_zero] at hfirst
  simp only [TcpHeader.at, hfirst, load16_append_right, load32_append_right, byteAt_append_right]
  simp (disch := simp) only [TcpHeader.bytes, List.append_assoc, load16_append_of_le,
    load32_append_of_le, byteAt_append_of_le]
  simp [byteAt, hoff, hsyn, hack]

/-- A packet that `Ip::tx` emitted, once the rx loop has located its transport header. -/
def received (id check : UInt16) (ipovly : IpHeaderOverlay) (segment : List UInt8) : SocketBuffer :=
  { tunDeviceRx (ipHeader id check ipovly ++ segment) with transportHdr := some 20 }

theorem iphdr_received (id check : UInt16) (ipovly : IpHeaderOverlay) (segment : List UInt8) :
    iphdr (received id check ipovly segment) =
      { ihl := 5
        version := 4
        totLen := ipovly.len
        id := id
        fragOff := 0
        protocol := ipovly.protocol
        saddr := ipovly.saddr
        daddr := ipovly.daddr } :=
  at_ipHeader id check ipovly segment

/-- One `read` returns the whole packet, and the rx loop hands it to the protocol
of the overlay. -/
theorem rx_emitted (st : Stack) (uninit : SockaddrIn) (id check : UInt16)
    (ipovly : IpHeaderOverlay) {segment : List UInt8} (h : 20 + segment.length ≤ maxRawBytesSize) :
    rx st uninit (tunDeviceRx ((ipHeader id check ipovly ++ segment).take maxRawBytesSize)) =
      demultiplex st uninit (iphdr (received id check ipovly segment))
        (received id check ipovly segment) [] := by
  have hlength : (ipHeader id check ipovly ++ segment).length = 20 + segment.length := by
    rw [List.length_append, length_ipHeader]
  have hiphdr : iphdr (tunDeviceRx (ipHeader id check ipovly ++ segment)) =
      iphdr (received id check ipovly segment) := rfl
  have hpassed : PassedOn (ipHeader id check ipovly ++ segment) := by
    constructor
    · rw [hiphdr, iphdr_received]
    · omega
    · omega
    · have hzero : (be16ToCpu 0).toNat = 0 := by
        decide
      simp [isFrag, hostOff, moreFrag, hiphdr, iphdr_received, hzero]
  rw [List.take_of_length_le (by omega), rx_eq_demultiplex hpassed]
  have hlocated : locateTransport (iphdr (received id check ipovly segment)).ihl
      (tunDeviceRx (ipHeader id check ipovly ++ segment)) =
        locateTransport (iphdr (received id check ipovly segment)).ihl
          (received id check ipovly segment) := rfl
  rw [demultiplex, demultiplex, hiphdr, hlocated]

theorem payloadEnd_received (id check : UInt16) (ipovly : IpHeaderOverlay)
    (hdr buf : List UInt8) :
    (received id check ipovly (hdr ++ buf)).payloadEnd = 20 + hdr.length + buf.length := by
  change (ipHeader id check ipovly ++ (hdr ++ buf)).length = _
  rw [← List.append_assoc, List.length_append, List.length_append, length_ipHeader]

/-- The payload lies behind the transport header of the segment. -/
theorem collect_received (id check : UInt16) (ipovly : IpHeaderOverlay) (hdr buf : List UInt8) :
    collect [{ received id check ipovly (hdr ++ buf) with
      userPayloadBegin := some (20 + hdr.length) }] = some buf := by
  have hheaders : (ipHeader id check ipovly ++ hdr).length = 20 + hdr.length := by
    rw [List.length_append, length_ipHeader]
  have hend := payloadEnd_received id check ipovly hdr buf
  rw [collect_cons_eq_some]
  refine ⟨?_, [], rfl, ?_⟩
  · change 20 + hdr.length ≤ (received id check ipovly (hdr ++ buf)).payloadEnd
    rw [hend]
    exact Nat.le_add_right _ _
  · change slice (ipHeader id check ipovly ++ (hdr ++ buf)) (20 + hdr.length)
      (received id check ipovly (hdr ++ buf)).payloadEnd ++ [] = buf
    rw [hend, List.append_nil, slice, ← List.append_assoc, List.drop_left' hheaders,
      Nat.add_sub_cancel_left, List.take_length]

section Datagrams

variable (id check : UInt16) (ipovly : IpHeaderOverlay) (hdr : UdpHeader) (buf : List UInt8)

theorem udphdr_received : udphdr (received id check ipovly (hdr.bytes ++ buf)) = hdr := by
  have hat := udpHeader_at (ipHeader id check ipovly) hdr buf
  rw [length_ipHeader] at hat
  exact hat

/-- The only PCB that a datagram matches gets it, and no other PCB changes. -/
theorem pcbs_rx_datagram {st : Stack} {i : Nat} {pcb : Pcb} {so : Socket} (uninit : SockaddrIn)
    (hprotocol : ipovly.protocol = 17) (hfits : 28 + buf.length ≤ maxRawBytesSize)
    (hslot : st.udp.pcbs[i]? = some { pcb := some pcb, socket := some so })
    (honly : OnlyMatch
      { faddr := ipovly.saddr, fport := hdr.source, laddr := ipovly.daddr, lport := hdr.dest }
      (st.udp.pcbs.map (·.pcb)) i) :
    (rx st uninit (tunDeviceRx
        ((ipHeader id check ipovly ++ (hdr.bytes ++ buf)).take maxRawBytesSize))).1.udp.pcbs =
      st.udp.pcbs.set i
        { pcb := some pcb
          socket := some (so.putToRecvQ
            { uninit with sinFamily := AF_INET, sinPort := hdr.source, sinAddr := ipovly.saddr }
            [UdpPcb.locatePayload (received id check ipovly (hdr.bytes ++ buf))]) } := by
  have hsegment : 20 + (hdr.bytes ++ buf).length ≤ maxRawBytesSize := by
    rw [List.length_append, UdpHeader.length_bytes]
    omega
  have htuple : Udp.fourTuple (received id check ipovly (hdr.bytes ++ buf)) =
      { faddr := ipovly.saddr, fport := hdr.source, laddr := ipovly.daddr, lport := hdr.dest } := by
    rw [Udp.fourTuple, udphdr_received, iphdr_received]
  have hfind : st.udp.find
      { faddr := ipovly.saddr, fport := hdr.source, laddr := ipovly.daddr, lport := hdr.dest } =
        some i :=
    honly.find_eq
  have hget : st.udp.pcbs.getD i .expired = { pcb := some pcb, socket := some so } := by
    rw [List.getD_eq_getElem?_getD, hslot]
    rfl
  have hlocated : locateTransport 5 (received id check ipovly (hdr.bytes ++ buf)) =
      received id check ipovly (hdr.bytes ++ buf) := rfl
  rw [rx_emitted st uninit id check ipovly hsegment]
  simp only [demultiplex, iphdr_received, protoxmap_eq_udp_iff.mpr hprotocol, hlocated, Udp.rx,
    hfind, hget, htuple, UdpPcb.recv, Slot.deliver]

end Datagrams

section Segments

variable (id check : UInt16) (ipovly : IpHeaderOverlay) {hdr : TcpHeader} (buf : List UInt8)

theorem tcphdr_received (hdoff : hdr.doff = 5) :
    tcphdr (received id check ipovly (hdr.bytes ++ buf)) = hdr := by
  have hat := tcpHeader_at (ipHeader id check ipovly) (hdoff.trans_lt (by decide)) buf
  rw [length_ipHeader] at hat
  exact hat

theorem locatePayload_received_tcp (hdoff : hdr.doff = 5) :
    TcpPcb.locatePayload (received id check ipovly (hdr.bytes ++ buf)) =
      { received id check ipovly (hdr.bytes ++ buf) with
        userPayloadBegin := some (20 + hdr.bytes.length) } := by
  rw [TcpPcb.locatePayload, tcphdr_received id check ipovly buf hdoff, hdoff]
  rfl

/-- The acknowledgment counts the payload. -/
theorem nextAfter_received (hdoff : hdr.doff = 5) :
    TcpPcb.nextAfter (TcpPcb.locatePayload (received id check ipovly (hdr.bytes ++ buf))) =
      ntohl hdr.seq + .ofNat buf.length := by
  have hend := payloadEnd_received id check ipovly hdr.bytes buf
  have hseq := tcphdr_received id check ipovly buf hdoff
  rw [locatePayload_received_tcp id check ipovly buf hdoff]
  change ntohl (tcphdr (received id check ipovly (hdr.bytes ++ buf))).seq +
    .ofNat (received id check ipovly (hdr.bytes ++ buf)).payloadEnd -
      .ofNat (20 + hdr.bytes.length) = _
  rw [hseq, hend, UInt32.ofNat_add _ buf.length]
  grind

theorem payloadLen_received (hdoff : hdr.doff = 5) :
    (TcpPcb.locatePayload (received id check ipovly (hdr.bytes ++ buf))).payloadLen =
    buf.length := by
  have hend := payloadEnd_received id check ipovly hdr.bytes buf
  rw [locatePayload_received_tcp id check ipovly buf hdoff]
  change ((received id check ipovly (hdr.bytes ++ buf)).payloadEnd : Int) -
    ((20 + hdr.bytes.length : Nat) : Int) = _
  omega

/-- The only PCB that a segment matches gets it and acknowledges it, and no other
PCB changes. -/
theorem rx_segment {st : Stack} {i : Nat} {pcb : TcpPcb} {so : Socket} (uninit : SockaddrIn)
    (hprotocol : ipovly.protocol = 6) (hdoff : hdr.doff = 5) (hne : buf ≠ [])
    (hfits : 40 + buf.length ≤ maxRawBytesSize)
    (hslot : st.tcp.pcbs[i]? = some { pcb := some pcb, socket := some so })
    (hestab : pcb.connState = .ESTABLISHED) (hroom : so.recvQ.length ≤ recvQlimit)
    (honly : OnlyMatch
      { faddr := ipovly.saddr, fport := hdr.source, laddr := ipovly.daddr, lport := hdr.dest }
      (st.tcp.pcbs.map fun slot => slot.pcb.map TcpPcb.toPcb) i) :
    let rx := rx st uninit (tunDeviceRx
      ((ipHeader id check ipovly ++ (hdr.bytes ++ buf)).take maxRawBytesSize))
    rx.1.tcp.pcbs = st.tcp.pcbs.set i
        { pcb := some { pcb.recvAck hdr with recvNext := ntohl hdr.seq + .ofNat buf.length }
          socket := some (so.putToRecvQ uninit
            [TcpPcb.locatePayload (received id check ipovly (hdr.bytes ++ buf))]) } ∧
      ackNumbers rx.2 = [ntohl hdr.seq + .ofNat buf.length] := by
  have hsegment : 20 + (hdr.bytes ++ buf).length ≤ maxRawBytesSize := by
    rw [List.length_append, TcpHeader.length_bytes]
    omega
  have htuple : Tcp.fourTuple (received id check ipovly (hdr.bytes ++ buf)) =
      { faddr := ipovly.saddr, fport := hdr.source, laddr := ipovly.daddr, lport := hdr.dest } := by
    rw [Tcp.fourTuple, tcphdr_received id check ipovly buf hdoff, iphdr_received]
  have hfind : st.tcp.find
      { faddr := ipovly.saddr, fport := hdr.source, laddr := ipovly.daddr, lport := hdr.dest } =
        some i :=
    honly.find_eq
  have hget : st.tcp.pcbs.getD i .expired = { pcb := some pcb, socket := some so } := by
    rw [List.getD_eq_getElem?_getD, hslot]
    rfl
  have hlocated : locateTransport 5 (received id check ipovly (hdr.bytes ++ buf)) =
      received id check ipovly (hdr.bytes ++ buf) := rfl
  have hdata :
      (TcpPcb.locatePayload (received id check ipovly (hdr.bytes ++ buf))).payloadLen ≠ 0 := by
    rw [payloadLen_received id check ipovly buf hdoff]
    exact Int.natCast_ne_zero.mpr (mt List.eq_nil_of_length_eq_zero hne)
  have hrecv := @recv_data pcb so uninit (received id check ipovly (hdr.bytes ++ buf)) []
    hestab hdata hroom
  rw [tcphdr_received id check ipovly buf hdoff,
    nextAfter_received id check ipovly buf hdoff] at hrecv
  simp only [rx_emitted st uninit id check ipovly hsegment, demultiplex, iphdr_received,
    protoxmap_eq_tcp_iff.mpr hprotocol, hlocated, Tcp.rx, hfind, hget, htuple, hrecv]
  refine ⟨trivial, ?_⟩
  simp [ackNumbers, ack2peer_ackSeq]

end Segments

/-- A PCB whose local end is the peer of another, and which has no peer of its own
or that other PCB for one. -/
theorem matches_of_peer {sender pcb : Pcb} (hladdr : pcb.laddr = sender.faddr)
    (hlport : pcb.lport = sender.fport)
    (hpeer : pcb.faddr = 0 ∧ pcb.fport = 0 ∨ pcb.faddr = sender.laddr ∧ pcb.fport = sender.lport) :
    Matches (sentFourTuple sender) pcb := by
  rcases hpeer with ⟨hfaddr, hfport⟩ | ⟨hfaddr, hfport⟩
  · exact ⟨hlport, .inl hfport, .inl hfaddr, .inr hladdr⟩
  · exact ⟨hlport, .inr hfport, .inr hfaddr, .inr hladdr⟩

theorem send_estab_eq (port : UInt16) {sender : TcpPcb} (buf : List UInt8)
    (h : sender.connState = .ESTABLISHED) :
    ∃ segment, (TcpPcb.send port sender buf).2.2.2 = some segment ∧ segment.hdr.doff = 5 ∧
      segment.ipovly.protocol = 6 ∧ segment.buf = buf ∧
      sentFourTuple (TcpPcb.send port sender buf).2.1.toPcb =
        { faddr := segment.ipovly.saddr
          fport := segment.hdr.source
          laddr := segment.ipovly.daddr
          lport := segment.hdr.dest } := by
  simp only [TcpPcb.send, h]
  exact ⟨_, rfl, rfl, rfl, rfl, rfl⟩

/-- What a PCB sends is received as it was sent by the only PCB that it matches:
the same payload, from the sender's address and port, and acknowledged to its end. -/
theorem sent_received (gen : IpIdGenerator) (port : UInt16) (st : Stack) (uninit : SockaddrIn)
    {i : Nat} {so : Socket} (hroom : so.recvQ.length ≤ recvQlimit) (buf : List UInt8) :
    (∀ sender pcb : Pcb, 28 + buf.length ≤ maxRawBytesSize →
      st.udp.pcbs[i]? = some { pcb := some pcb, socket := some so } →
      OnlyMatch (sentFourTuple (UdpPcb.send port sender buf).2.1) (st.udp.pcbs.map (·.pcb)) i →
      ∃ so' peeraddr skbuf,
        (rx st uninit (tunDeviceRx ((txUdp gen (UdpPcb.send port sender buf).2.2.2).2.take
          maxRawBytesSize))).1.udp.pcbs =
            st.udp.pcbs.set i { pcb := some pcb, socket := some so' } ∧
        so'.recvQ = so.recvQ ++ [(peeraddr, skbuf)] ∧
        collect skbuf = some buf ∧
        peeraddr.sinAddr = (UdpPcb.send port sender buf).2.1.laddr ∧
        peeraddr.sinPort = (UdpPcb.send port sender buf).2.1.lport) ∧
    ∀ sender pcb : TcpPcb, buf ≠ [] → 40 + buf.length ≤ maxRawBytesSize →
      sender.connState = .ESTABLISHED → pcb.connState = .ESTABLISHED →
      st.tcp.pcbs[i]? = some { pcb := some pcb, socket := some so } →
      OnlyMatch (sentFourTuple (TcpPcb.send port sender buf).2.1.toPcb)
        (st.tcp.pcbs.map fun slot => slot.pcb.map TcpPcb.toPcb) i →
      ∃ segment pcb' so' peeraddr skbuf,
        (TcpPcb.send port sender buf).2.2.2 = some segment ∧
        (rx st uninit (tunDeviceRx ((txTcp gen segment).2.take maxRawBytesSize))).1.tcp.pcbs =
          st.tcp.pcbs.set i { pcb := some pcb', socket := some so' } ∧
        so'.recvQ = so.recvQ ++ [(peeraddr, skbuf)] ∧
        collect skbuf = some buf ∧
        ackNumbers (rx st uninit (tunDeviceRx ((txTcp gen segment).2.take maxRawBytesSize))).2 =
          [ntohl segment.hdr.seq + .ofNat buf.length] := by
  constructor
  · intro sender pcb hfits hslot honly
    have hpcbs := pcbs_rx_datagram gen.next.2
      (checksum (ipHeader gen.next.2 0 (UdpPcb.send port sender buf).2.2.2.ipovly) 0).toUInt16
      (UdpPcb.send port sender buf).2.2.2.ipovly (UdpPcb.send port sender buf).2.2.2.hdr buf uninit
      rfl hfits hslot honly
    rw [txUdp, tx_eq]
    refine ⟨_, _, _, hpcbs, Socket.recvQ_putToRecvQ_of_room hroom _ _, ?_, rfl, rfl⟩
    exact collect_received _ _ _ (UdpPcb.send port sender buf).2.2.2.hdr.bytes buf
  · intro sender pcb hne hfits hsender hestab hslot honly
    obtain ⟨segment, hsend, hdoff, hprotocol, rfl, htuple⟩ := send_estab_eq port buf hsender
    rw [htuple] at honly
    obtain ⟨hpcbs, hacks⟩ := rx_segment gen.next.2
      (checksum (ipHeader gen.next.2 segment.ipovly.protocolLen segment.ipovly) 0).toUInt16
      segment.ipovly segment.buf uninit hprotocol hdoff hne hfits hslot hestab hroom honly
    rw [← tx_eq] at hpcbs hacks
    refine ⟨segment, _, _, _, _, hsend, hpcbs, Socket.recvQ_putToRecvQ_of_room hroom _ _, ?_, hacks⟩
    rw [locatePayload_received_tcp _ _ _ _ hdoff]
    exact collect_received _ _ _ segment.hdr.bytes segment.buf

theorem onlyMatch_singleton {t : FourTuple} {pcb : Pcb} (h : Matches t pcb) :
    OnlyMatch t [some pcb] 0 := by
  refine ⟨⟨pcb, rfl, h⟩, ?_⟩
  intro j curr hcurr hmatches
  cases j with
  | zero => rfl
  | succ j => simp at hcurr

def sampleSender : Pcb :=
  { faddr := 0x0200000a, fport := 0x3500, laddr := 0x0100000a, lport := 0x0104 }

def sampleReceiver : Pcb :=
  { faddr := 0, fport := 0, laddr := 0x0200000a, lport := 0x3500 }

def sampleEstablished (pcb : Pcb) : TcpPcb :=
  { toPcb := pcb
    connState := .ESTABLISHED
    onConnEstabCB := none
    sendUnack := 9
    sendNext := 0xffffffff
    irs := 4
    recvNext := 0xffffffff }

def sampleSocket : Socket := { type := .UDP, nonblocking := false }

def sampleStack : Stack :=
  { defrager := { defragCtxList := [] }
    udp := { pcbs := [{ pcb := some sampleReceiver, socket := some sampleSocket }], port := 1024 }
    tcp :=
      { pcbs :=
          [{ pcb := some (sampleEstablished sampleReceiver), socket := some sampleSocket }]
        port := 1024 } }

theorem sent_received_sample :
    (∃ so' peeraddr skbuf,
      (rx sampleStack .zero (tunDeviceRx ((txUdp { last := 6 } (UdpPcb.send 1024 sampleSender
        [1, 2, 3]).2.2.2).2.take maxRawBytesSize))).1.udp.pcbs =
          [{ pcb := some sampleReceiver, socket := some so' }] ∧
      so'.recvQ = [(peeraddr, skbuf)] ∧ collect skbuf = some [1, 2, 3] ∧
      peeraddr.sinAddr = 0x0100000a ∧ peeraddr.sinPort = 0x0104) ∧
    ∃ segment so' pcb' peeraddr skbuf,
      (TcpPcb.send 1024 (sampleEstablished sampleSender) [1, 2, 3]).2.2.2 = some segment ∧
      (rx sampleStack .zero (tunDeviceRx ((txTcp { last := 6 } segment).2.take
        maxRawBytesSize))).1.tcp.pcbs = [{ pcb := some pcb', socket := some so' }] ∧
      so'.recvQ = [(peeraddr, skbuf)] ∧ collect skbuf = some [1, 2, 3] ∧
      ackNumbers (rx sampleStack .zero (tunDeviceRx ((txTcp { last := 6 } segment).2.take
        maxRawBytesSize))).2 = [ntohl segment.hdr.seq + 3] := by
  have honly : OnlyMatch (sentFourTuple sampleSender) [some sampleReceiver] 0 :=
    onlyMatch_singleton (matches_of_peer rfl rfl (.inl ⟨rfl, rfl⟩))
  obtain ⟨hudp, htcp⟩ := sent_received { last := 6 } 1024 sampleStack .zero
    (show sampleSocket.recvQ.length ≤ recvQlimit by decide) [1, 2, 3]
  constructor
  · exact hudp sampleSender sampleReceiver (by decide) rfl honly
  · obtain ⟨segment, pcb', so', peeraddr, skbuf, hsegment, hpcbs, hreceived⟩ :=
      htcp (sampleEstablished sampleSender) (sampleEstablished sampleReceiver) (by decide)
        (by decide) rfl rfl rfl honly
    exact ⟨segment, so', pcb', peeraddr, skbuf, hsegment, hpcbs, hreceived⟩

end MuQuinet.WireRoundTrip
