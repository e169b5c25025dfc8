import MuQuinet.IpLayer

namespace MuQuinet.PacketBounds

open MuQuinet.Buffers
open MuQuinet.IpHeaders
open MuQuinet.IpLayer
open MuQuinet.Pcbs
open MuQuinet.Sockets
open MuQuinet.TcpLayer
open MuQuinet.UdpLayer
open MuQuinet.Wire

def InBounds : Event → Prop
  | .transport networkHdr transportHdr => networkHdr ≤ transportHdr
  | .lookup index => index < protoxmapLength
  | .headerRead transportHdr size payloadEnd => transportHdr + size ≤ payloadEnd
  | .queued skbuf => skbuf.payloadBegin ≤ skbuf.payloadEnd
  | _ => True

instance : DecidablePred InBounds
  | .transport networkHdr transportHdr => inferInstanceAs (Decidable (networkHdr ≤ transportHdr))
  | .lookup index => inferInstanceAs (Decidable (index < protoxmapLength))
  | .headerRead transportHdr size payloadEnd =>
      inferInstanceAs (Decidable (transportHdr + size ≤ payloadEnd))
  | .queued skbuf => inferInstanceAs (Decidable (skbuf.payloadBegin ≤ skbuf.payloadEnd))
  | .received _ | .dropped | .acked _ | .onConnEstab _ | .assertFailed | .nullSocket | .nullPrev =>
      inferInstanceAs (Decidable True)

/-- The bytes of a packet that `Ip::enRxQue` and the rx loop pass on. -/
structure PassedOn (bytes : List UInt8) : Prop where
  version_eq : (iphdr (tunDeviceRx bytes)).version = 4
  length_ge : 20 ≤ bytes.length
  length_le : bytes.length ≤ maxRawBytesSize
  unfragmented : isFrag (tunDeviceRx bytes) = false

def located (bytes : List UInt8) : SocketBuffer :=
  locateTransport (iphdr (tunDeviceRx bytes)).ihl (tunDeviceRx bytes)

/-- The PCB that `Pcbs::find` selects is established, and its socket has room. -/
def ReceiverQueues (tcp : Tcp) (skbuf : SocketBuffer) : Prop :=
  ∃ i pcb so, tcp.find (Tcp.fourTuple skbuf) = some i ∧
    tcp.pcbs.getD i .expired = { pcb := some pcb, socket := some so } ∧
    pcb.connState = .ESTABLISHED ∧ so.recvQ.length ≤ recvQlimit

/-- The headers of a packet fit the bytes that were read: its protocol is in the
table, a UDP or TCP header is whole, and the TCP header of a segment that will
be queued ends within the packet. -/
structure HeadersFit (tcp : Tcp) (bytes : List UInt8) : Prop where
  protocol_ne : (iphdr (tunDeviceRx bytes)).protocol ≠ 255
  udp_fits : (iphdr (tunDeviceRx bytes)).protocol = 17 →
    (located bytes).transport + sizeofUdpHeader ≤ bytes.length
  tcp_fits : (iphdr (tunDeviceRx bytes)).protocol = 6 →
    (located bytes).transport + sizeofTcpHeader ≤ bytes.length
  data_fits : (iphdr (tunDeviceRx bytes)).protocol = 6 → ReceiverQueues tcp (located bytes) →
    (located bytes).transport + (tcphdr (located bytes)).doff * 4 ≤ bytes.length

theorem lt_protoxmapLength_iff (protocol : UInt8) :
    protocol.toNat < protoxmapLength ↔ protocol ≠ 255 := by
  have hlt : protocol.toNat < 256 := protocol.toNat_lt
  have heq : protocol = 255 ↔ protocol.toNat = 255 := by
    rw [← UInt8.toNat_inj]
    rfl
  rw [Ne, heq, protoxmapLength]
  omega

theorem inBounds_of_mem_deliver {P : Type} {slot : Slot P} {peeraddr : SockaddrIn}
    {skbuf : SocketBuffer} {next : List SocketBuffer}
    (h : ∀ so, slot.socket = some so → so.recvQ.length ≤ recvQlimit →
      skbuf.payloadBegin ≤ skbuf.payloadEnd) :
    ∀ e ∈ (slot.deliver peeraddr skbuf next).2, InBounds e := by
  unfold Slot.deliver
  cases hso : slot.socket with
  | none => simp [InBounds]
  | some so =>
      by_cases hroom : so.recvQ.length > recvQlimit
      · simp [hroom]
      · simpa [hroom, InBounds] using h so hso (Nat.not_lt.mp hroom)

theorem udp_rx_inBounds_iff (udp : Udp) (uninit : SockaddrIn) (skbuf : SocketBuffer)
    (next : List SocketBuffer) :
    (∀ e ∈ (udp.rx uninit skbuf next).2, InBounds e) ↔
      skbuf.transport + sizeofUdpHeader ≤ skbuf.payloadEnd := by
  have hread : Event.headerRead skbuf.transport sizeofUdpHeader skbuf.payloadEnd ∈
      (udp.rx uninit skbuf next).2 := by
    cases hfind : udp.find (Udp.fourTuple skbuf) <;> simp [Udp.rx, hfind]
  refine ⟨fun h => h _ hread, fun hfits => ?_⟩
  cases hfind : udp.find (Udp.fourTuple skbuf) with
  | none =>
      simp only [Udp.rx, hfind, List.forall_mem_cons]
      exact ⟨hfits, trivial, by simp⟩
  | some i =>
      simp only [Udp.rx, hfind, UdpPcb.recv, List.forall_mem_cons]
      exact ⟨hfits, trivial, inBounds_of_mem_deliver fun _ _ _ => hfits⟩

/-- On an established connection whose socket has room the data offset is
followed; the other states read no pointer. -/
theorem tcp_recv_inBounds_iff (slot : Slot TcpPcb) (pcb : TcpPcb) (peerAddr : SockaddrIn)
    (skbuf : SocketBuffer) (next : List SocketBuffer) :
    (∀ e ∈ (TcpPcb.recv slot pcb peerAddr skbuf next).2, InBounds e) ↔
      (pcb.connState = .ESTABLISHED →
        (∃ so, slot.socket = some so ∧ so.recvQ.length ≤ recvQlimit) →
          skbuf.transport + (tcphdr skbuf).doff * 4 ≤ skbuf.payloadEnd) := by
  by_cases hestab : pcb.connState = .ESTABLISHED
  · simp only [TcpPcb.recv, hestab, true_implies]
    by_cases hempty : (TcpPcb.locatePayload skbuf).payloadLen = 0
    · rw [if_neg (not_not.mpr hempty)]
      refine iff_of_true (by simp) fun _ => ?_
      have hend : ((skbuf.payloadEnd : Int) -
          ((skbuf.transport + (tcphdr skbuf).doff * 4 : Nat) : Int)) = 0 := hempty
      omega
    · rw [if_pos hempty]
      cases hso : slot.socket with
      | none =>
          simp [Slot.deliver, hso, InBounds]
      | some so =>
          by_cases hroom : so.recvQ.length > recvQlimit
          · have hfull : ¬ so.recvQ.length ≤ recvQlimit := Nat.not_le.mpr hroom
            simp [Slot.deliver, hso, hroom, hfull, InBounds]
          · have hfits : so.recvQ.length ≤ recvQlimit := Nat.not_lt.mp hroom
            simp only [Slot.deliver, hso, if_neg hroom]
            simp [InBounds, hfits]
            rfl
  · refine iff_of_true ?_ fun h => absurd h hestab
    unfold TcpPcb.recv
    split
    · simp only [TcpPcb.recvSynSent]
      split <;> simp [InBounds]
    · contradiction
    · simp

theorem tcp_rx_inBounds_iff (tcp : Tcp) (uninit : SockaddrIn) (skbuf : SocketBuffer)
    (next : List SocketBuffer) :
    (∀ e ∈ (tcp.rx uninit skbuf next).2, InBounds e) ↔
      skbuf.transport + sizeofTcpHeader ≤ skbuf.payloadEnd ∧
        (ReceiverQueues tcp skbuf →
          skbuf.transport + (tcphdr skbuf).doff * 4 ≤ skbuf.payloadEnd) := by
  cases hfind : tcp.find (Tcp.fourTuple skbuf) with
  | none =>
      have hnot : ¬ ReceiverQueues tcp skbuf := by
        rintro ⟨i, pcb, so, hsome, -⟩
        rw [hfind] at hsome
        cases hsome
      simp [Tcp.rx, hfind, hnot, InBounds]
  | some i =>
      cases hslot : tcp.pcbs.getD i .expired with
      | mk pcb socket =>
          cases pcb with
          | none =>
              have hnot : ¬ ReceiverQueues tcp skbuf := by
                rintro ⟨j, pcb, so, hsome, hget, -⟩
                cases hfind.symm.trans hsome
                cases hslot.symm.trans hget
              simp only [Tcp.rx, hfind, hslot]
              simp [hnot, InBounds]
          | some pcb =>
              have hqueues : ReceiverQueues tcp skbuf ↔ pcb.connState = .ESTABLISHED ∧
                  ∃ so, socket = some so ∧ so.recvQ.length ≤ recvQlimit := by
                constructor
                · rintro ⟨j, pcb', so, hsome, hget, hestab, hroom⟩
                  cases hfind.symm.trans hsome
                  cases hslot.symm.trans hget
                  exact ⟨hestab, so, rfl, hroom⟩
                · rintro ⟨hestab, so, rfl, hroom⟩
                  exact ⟨i, pcb, so, hfind, hslot, hestab, hroom⟩
              simp only [Tcp.rx, hfind, hslot, List.forall_mem_cons]
              rw [tcp_recv_inBounds_iff, hqueues, and_imp]
              exact ⟨fun h => ⟨h.1, h.2.2⟩, fun h => ⟨h.1, trivial, h.2⟩⟩

theorem rx_eq_demultiplex {bytes : List UInt8} (h : PassedOn bytes) (st : Stack)
    (uninit : SockaddrIn) :
    rx st uninit (tunDeviceRx bytes) =
      demultiplex st uninit (iphdr (tunDeviceRx bytes)) (tunDeviceRx bytes) [] := by
  have hlength : ¬ (tunDeviceRx bytes).payloadEnd - (tunDeviceRx bytes).hdrsBegin.getD 0 < 20 :=
    Nat.not_lt.mpr h.length_ge
  simp only [rx]
  rw [if_neg (not_not.mpr h.version_eq), if_neg hlength, h.unfragmented]
  simp

/-- The receive path keeps its pointers in bounds on exactly the packets whose
headers fit: it has no check of its own. -/
theorem rx_inBounds_iff_headersFit {bytes : List UInt8} (h : PassedOn bytes) (st : Stack)
    (uninit : SockaddrIn) :
    (∀ e ∈ (rx st uninit (tunDeviceRx bytes)).2, InBounds e) ↔ HeadersFit st.tcp bytes := by
  rw [rx_eq_demultiplex h]
  have hnetwork : (tunDeviceRx bytes).network ≤ (located bytes).transport := Nat.zero_le _
  have hlookup := lt_protoxmapLength_iff (iphdr (tunDeviceRx bytes)).protocol
  by_cases hudp : (iphdr (tunDeviceRx bytes)).protocol = 17
  · simp only [demultiplex, protoxmap_eq_udp_iff.mpr hudp, List.forall_mem_append,
      List.forall_mem_cons]
    rw [udp_rx_inBounds_iff]
    constructor
    · rintro ⟨⟨-, hindex, -⟩, hread⟩
      have hnot : (iphdr (tunDeviceRx bytes)).protocol ≠ 6 := by
        rw [hudp]
        decide
      exact ⟨hlookup.mp hindex, fun _ => hread, fun htcp => absurd htcp hnot,
        fun htcp => absurd htcp hnot⟩
    · intro hfit
      exact ⟨⟨hnetwork, hlookup.mpr hfit.protocol_ne, by simp⟩, hfit.udp_fits hudp⟩
  · by_cases htcp : (iphdr (tunDeviceRx bytes)).protocol = 6
    · simp only [demultiplex, protoxmap_eq_tcp_iff.mpr htcp, List.forall_mem_append,
        List.forall_mem_cons]
      rw [tcp_rx_inBounds_iff]
      constructor
      · rintro ⟨⟨-, hindex, -⟩, hread, hdata⟩
        exact ⟨hlookup.mp hindex, fun h17 => absurd h17 hudp, fun _ => hread, fun _ => hdata⟩
      · intro hfit
        exact ⟨⟨hnetwork, hlookup.mpr hfit.protocol_ne, by simp⟩, hfit.tcp_fits htcp,
          hfit.data_fits htcp⟩
    · have hevents : (demultiplex st uninit (iphdr (tunDeviceRx bytes)) (tunDeviceRx bytes) []).2 =
          [.transport (tunDeviceRx bytes).network (located bytes).transport,
            .lookup (iphdr (tunDeviceRx bytes)).protocol.toNat] := by
        unfold demultiplex
        split
        · rename_i hmap
          exact absurd (protoxmap_eq_udp_iff.mp hmap) hudp
        · rename_i hmap
          exact absurd (protoxmap_eq_tcp_iff.mp hmap) htcp
        · rfl
      rw [hevents]
      simp only [List.forall_mem_cons]
      constructor
      · rintro ⟨-, hindex, -⟩
        exact ⟨hlookup.mp hindex, fun h17 => absurd h17 hudp, fun h6 => absurd h6 htcp,
          fun h6 => absurd h6 htcp⟩
      · intro hfit
        exact ⟨hnetwork, hlookup.mpr hfit.protocol_ne, by simp⟩

def samplePacket : List UInt8 :=
  [0x45, 0, 0, 20, 0, 7, 0, 0, 64, 17, 0, 0, 10, 0, 0, 1, 10, 0, 0, 2]

def sampleStack : Stack :=
  { defrager := { defragCtxList := [] }
    udp :=
      { pcbs :=
          [{ pcb := some (.new 0x0200000a)
             socket := some { type := .UDP, nonblocking := false } }]
        port := 1024 }
    tcp := { pcbs := [], port := 1024 } }

theorem samplePacket_passedOn : PassedOn samplePacket :=
  ⟨by decide, by decide, by decide, by decide⟩

/-- A TCP segment of one byte, which acknowledges the byte of number 2. -/
def sampleSegment (seq data : UInt8) : List UInt8 :=
  [0x45, 0, 0, 41, 0, 7, 0, 0, 64, 6, 0, 0, 10, 0, 0, 1, 10, 0, 0, 2] ++
    [0, 80, 4, 1, 0, 0, 0, seq, 0, 0, 0, 3, 0x50, 0x10, 0, 0, 0, 0, 0, 0] ++ [data]

/-- A connection that has sent a byte, after the first of two segments. -/
def sampleConnected : Stack :=
  (rx
    { sampleStack with
      tcp :=
        { pcbs :=
            [{ pcb := some
                 { faddr := 0x0100000a, fport := 0x5000, laddr := 0x0200000a, lport := 0x0104
                   connState := .ESTABLISHED, onConnEstabCB := none
                   sendUnack := 2, sendNext := 3, irs := 8, recvNext := 9 }
               socket := some { type := .TCP, nonblocking := false } }]
          port := 1025 } } .zero (tunDeviceRx (sampleSegment 9 1))).1

/-- The second segment is received, queued and acknowledged in bounds. -/
theorem sampleSegment_inBounds :
    .received 0 ∈ (rx sampleConnected .zero (tunDeviceRx (sampleSegment 10 2))).2 ∧
      HeadersFit sampleConnected.tcp (sampleSegment 10 2) := by
  have hpassed : PassedOn (sampleSegment 10 2) := ⟨by decide, by decide, by decide, by decide⟩
  refine ⟨by decide, (rx_inBounds_iff_headersFit hpassed sampleConnected .zero).mp ?_⟩
  decide

/-- The short packet is queued with a payload of minus eight bytes. -/
theorem samplePacket_queued_negative :
    PassedOn samplePacket ∧
      ¬ (∀ e ∈ (rx sampleStack .zero (tunDeviceRx samplePacket)).2, InBounds e) ∧
      ∃ skbuf, .queued skbuf ∈ (rx sampleStack .zero (tunDeviceRx samplePacket)).2 ∧
        skbuf.payloadLen = -8 := by
  have hqueued : .queued (UdpPcb.locatePayload (located samplePacket)) ∈
      (rx sampleStack .zero (tunDeviceRx samplePacket)).2 := by
    decide
  refine ⟨samplePacket_passedOn, ?_, _, hqueued, by decide⟩
  intro h
  have hordered : (UdpPcb.locatePayload (located samplePacket)).payloadBegin ≤
      (UdpPcb.locatePayload (located samplePacket)).payloadEnd := h _ hqueued
  exact absurd hordered (by decide)

end MuQuinet.PacketBounds
