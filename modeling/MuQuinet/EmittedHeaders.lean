import MuQuinet.Checksums
import MuQuinet.Transmit

namespace MuQuinet.EmittedHeaders

open MuQuinet.Lib.OnesComplement
open MuQuinet.Lib.Words
open MuQuinet.Checksums
open MuQuinet.IpHeaders
open MuQuinet.Pcbs
open MuQuinet.TcpLayer
open MuQuinet.Transmit
open MuQuinet.UdpLayer
open MuQuinet.Wire

/-- The one's complement sum of the 16-bit words of some bytes in network order,
the last byte padded with zero if it is left over. -/
def networkSum (bytes : List UInt8) : Nat :=
  sum 65535 (words bigEndian bytes)

/-- The same sum as a little-endian host adds it up, without the carries. -/
def hostSum (bytes : List UInt8) : Nat :=
  (words littleEndian bytes).sum

structure IpHeaderVerifies (packet : List UInt8) : Prop where
  version_eq : (IpHeader.at packet 0).version = 4
  ihl_eq : (IpHeader.at packet 0).ihl = 5
  totLen_eq : (be16ToCpu (IpHeader.at packet 0).totLen).toNat = packet.length
  sum_eq : networkSum (packet.take 20) = 0xffff

/-- The source, the destination, the protocol TCP and the length of the TCP
segment in a packet. -/
def pseudoHeader (packet : List UInt8) : List UInt8 :=
  slice packet 12 20 ++ [0, 6] ++
    [.ofNat ((packet.length - 20) / 256), .ofNat ((packet.length - 20) % 256)]

def TcpVerifies (packet : List UInt8) : Prop :=
  networkSum (pseudoHeader packet ++ packet.drop 20) = 0xffff

theorem hostSum_append {bytes : List UInt8} (heven : bytes.length % 2 = 0) (rest : List UInt8) :
    hostSum (bytes ++ rest) = hostSum bytes + hostSum rest := by
  rw [hostSum, words_append littleEndian heven, List.sum_append]
  rfl

theorem hostSum_word (word : UInt16) : hostSum (bytesLE 2 word.toNat) = word.toNat := by
  have hword : word.toNat < 65536 := word.toNat_lt
  rw [bytesLE_word]
  simp only [hostSum, words, List.sum_singleton, littleEndian, UInt8.toNat_ofNat']
  omega

theorem hostSum_ipHeader (id check : UInt16) (ipovly : IpHeaderOverlay) :
    hostSum (ipHeader id check ipovly) = hostSum (ipHeader id 0 ipovly) + check.toNat := by
  have hstart : ∀ check : UInt16, hostSum (ipHeader id check ipovly) =
      hostSum ([0x45, ipovly.tos] ++ bytesLE 2 ipovly.len.toNat ++ bytesLE 2 id.toNat ++ [0, 0] ++
        [ipovly.ttl, ipovly.protocol]) + check.toNat +
        hostSum (bytesLE 4 ipovly.saddr.toNat ++ bytesLE 4 ipovly.daddr.toNat) := by
    intro check
    rw [ipHeader, hostSum_append (by simp), ipHeaderStart, hostSum_append (by simp), hostSum_word]
  rw [hstart check, hstart 0, UInt16.toNat_zero]
  omega

theorem hostSum_tcpHeader (hdr : TcpHeader) (check : UInt16) :
    hostSum ({ hdr with check := check } : TcpHeader).bytes =
      hostSum ({ hdr with check := 0 } : TcpHeader).bytes + check.toNat := by
  have hfields : ∀ check : UInt16, hostSum ({ hdr with check := check } : TcpHeader).bytes =
      hostSum (bytesLE 2 hdr.source.toNat ++ bytesLE 2 hdr.dest.toNat ++
        bytesLE 4 hdr.seq.toNat ++ bytesLE 4 hdr.ackSeq.toNat ++
        [.ofNat (16 * hdr.doff), .ofNat (2 * hdr.syn.toNat + 16 * hdr.ack.toNat)] ++
        bytesLE 2 hdr.window.toNat) + check.toNat := by
    intro check
    rw [TcpHeader.bytes, hostSum_append (by simp), hostSum_append (by simp), hostSum_word]
    rfl
  rw [hfields check, hfields 0, UInt16.toNat_zero, Nat.add_zero]

theorem networkSum_eq_top {bytes : List UInt8} (hdvd : 65535 ∣ hostSum bytes)
    (hpos : 0 < hostSum bytes) : networkSum bytes = 0xffff :=
  sum_bigEndian_eq_top hdvd hpos

/-- The check that `Ip::tx` takes over its header completes that header. -/
theorem networkSum_ipHeader (id : UInt16) {ipovly : IpHeaderOverlay} (h : ipovly.protocolLen = 0) :
    networkSum (ipHeader id (checksum (ipHeader id ipovly.protocolLen ipovly) 0).toUInt16 ipovly) =
      0xffff := by
  have hfits : Fits 0 (ipHeader id 0 ipovly) := by
    apply fits_of_length_le
    rw [length_ipHeader]
    decide
  obtain ⟨hdvd, hpos⟩ := checksum_completes hfits
  rw [UInt32.toNat_zero, Nat.zero_add] at hdvd hpos
  rw [h]
  apply networkSum_eq_top
  · rw [hostSum_ipHeader]
    exact hdvd
  · rw [hostSum_ipHeader]
    exact hpos

theorem ipHeaderVerifies_tx (gen : IpIdGenerator) {ipovly : IpHeaderOverlay}
    (hcleared : ipovly.protocolLen = 0) {rest userPayload : List UInt8}
    (hlength : 20 + (rest ++ userPayload).length ≤ 65535)
    (hlen : ipovly.len = htons (.ofNat (20 + (rest ++ userPayload).length))) :
    IpHeaderVerifies (tx gen (ipovly.bytes ++ rest) userPayload).2 := by
  rw [tx_eq]
  have hat := at_ipHeader gen.next.2
    (checksum (ipHeader gen.next.2 ipovly.protocolLen ipovly) 0).toUInt16 ipovly
    (rest ++ userPayload)
  have hsum := networkSum_ipHeader gen.next.2 hcleared
  generalize (checksum (ipHeader gen.next.2 ipovly.protocolLen ipovly) 0).toUInt16 =
    check at hat hsum ⊢
  have htotal : (ipHeader gen.next.2 check ipovly ++ (rest ++ userPayload)).length =
      20 + (rest ++ userPayload).length := by
    rw [List.length_append, length_ipHeader]
  constructor
  · rw [hat]
  · rw [hat]
  · rw [hat, be16ToCpu, hlen, htons, swap16_swap16, UInt16.toNat_ofNat',
      Nat.mod_eq_of_lt (by omega), htotal]
  · rw [List.take_left' (length_ipHeader _ _ _)]
    exact hsum

/-- The addresses of the overlay, in front of the protocol and the length. -/
theorem hostSum_ipovly (saddr daddr : UInt32) (protocolLen : UInt16) :
    hostSum ({ protocol := 6, protocolLen := protocolLen, saddr := saddr, daddr := daddr } :
      IpHeaderOverlay).bytes =
        1536 + protocolLen.toNat + hostSum (bytesLE 4 saddr.toNat ++ bytesLE 4 daddr.toNat) := by
  have hstart : hostSum ([0, 0] ++ bytesLE 2 0 ++ [0, 0, 0, 0] ++ [0, 6]) = 1536 := by
    decide
  rw [IpHeaderOverlay.bytes, List.append_assoc _ (bytesLE 4 saddr.toNat), hostSum_append (by simp),
    hostSum_append (by simp), hostSum_word]
  exact congrArg (fun n => n + protocolLen.toNat + _) hstart

theorem hostSum_tcpLength {n : Nat} (h : n ≤ 65535) :
    hostSum [.ofNat (n / 256), .ofNat (n % 256)] = (htons (.ofNat n)).toNat := by
  have hn : (UInt16.ofNat n).toNat = n := by
    rw [UInt16.toNat_ofNat']
    exact Nat.mod_eq_of_lt (by omega)
  rw [htons, toNat_swap16, hn]
  simp only [hostSum, words, List.sum_singleton, littleEndian, UInt8.toNat_ofNat']
  omega

/-- The sum over the pseudo-header of a packet and the segment behind its IP header. -/
theorem hostSum_pseudoHeader {id check : UInt16} {ipovly : IpHeaderOverlay} {segment : List UInt8}
    (h : segment.length ≤ 65535) :
    hostSum (pseudoHeader (ipHeader id check ipovly ++ segment) ++
        (ipHeader id check ipovly ++ segment).drop 20) =
      hostSum (bytesLE 4 ipovly.saddr.toNat ++ bytesLE 4 ipovly.daddr.toNat) + 1536 +
        (htons (.ofNat segment.length)).toNat + hostSum segment := by
  have hslice : slice (ipHeader id check ipovly ++ segment) 12 20 =
      bytesLE 4 ipovly.saddr.toNat ++ bytesLE 4 ipovly.daddr.toNat := by
    rw [slice, ipHeader, List.append_assoc, List.drop_left' (length_ipHeaderStart id check ipovly)]
    exact List.take_left' (by simp)
  have hlength : (ipHeader id check ipovly ++ segment).length - 20 = segment.length := by
    rw [List.length_append, length_ipHeader, Nat.add_sub_cancel_left]
  have hprotocol : hostSum [0, 6] = 1536 := by
    decide
  rw [pseudoHeader, hslice, hlength, List.drop_left' (length_ipHeader id check ipovly),
    hostSum_append (by simp), hostSum_append (by simp), hostSum_append (by simp),
    hostSum_tcpLength h, hprotocol]

theorem toNat_wordSum_payload {buf : List UInt8} (h : buf.length + 40 ≤ 65535) :
    (wordSum 0 buf).toNat = hostSum buf := by
  have hfits : Fits 0 buf := fits_of_length_le (by omega)
  rw [toNat_wordSum hfits, UInt32.toNat_zero, Nat.zero_add]
  rfl

/-- The overlay as it is when the TCP checksum is taken over it. -/
def checkedOverlay (pcb : TcpPcb) (buf : List UInt8) : IpHeaderOverlay :=
  { protocol := 6
    protocolLen := htons (.ofNat (buf.length + 20))
    saddr := pcb.laddr
    daddr := pcb.faddr }

def tcpChecksum (pcb : TcpPcb) (hdr : TcpHeader) (buf : List UInt8) : UInt16 :=
  (checksum ((checkedOverlay pcb buf).bytes ++ hdr.bytes) (wordSum 0 buf)).toUInt16

theorem prepareBeforeIpTx_eq (pcb : TcpPcb) {hdr : TcpHeader} (hdoff : hdr.doff = 5)
    (buf : List UInt8) :
    pcb.prepareBeforeIpTx hdr buf =
      { ipovly :=
          { checkedOverlay pcb buf with
            ttl := 64
            tos := 0
            len := htons (.ofNat (buf.length + 40))
            protocolLen := 0 }
        hdr := { hdr with check := tcpChecksum pcb hdr buf }
        buf := buf } := by
  have htake : ((checkedOverlay pcb buf).bytes ++ hdr.bytes).take (hdr.doff * 4 + 20) =
      (checkedOverlay pcb buf).bytes ++ hdr.bytes := by
    apply List.take_of_length_le
    rw [List.length_append, IpHeaderOverlay.length_bytes, TcpHeader.length_bytes, hdoff]
  rw [tcpChecksum, ← htake]
  rfl

theorem tcpChecksum_completes (pcb : TcpPcb) (hdr : TcpHeader) {buf : List UInt8}
    (hlength : buf.length + 40 ≤ 65535) :
    65535 ∣ hostSum buf + hostSum ((checkedOverlay pcb buf).bytes ++ hdr.bytes) +
        (tcpChecksum pcb hdr buf).toNat ∧
      0 < hostSum buf + hostSum ((checkedOverlay pcb buf).bytes ++ hdr.bytes) +
        (tcpChecksum pcb hdr buf).toNat := by
  rw [← toNat_wordSum_payload hlength]
  apply checksum_completes
  apply fits_wordSum
  rw [List.length_append, IpHeaderOverlay.length_bytes, TcpHeader.length_bytes]
  omega

/-- The sum over the payload and the overlaid headers, taken before the IP fields
are filled in, is the sum over the pseudo-header of the packet that leaves. -/
theorem hostSum_txTcp (gen : IpIdGenerator) (pcb : TcpPcb) {hdr : TcpHeader} (hdoff : hdr.doff = 5)
    (hcheck : hdr.check = 0) {buf : List UInt8} (hlength : buf.length + 40 ≤ 65535) :
    hostSum (pseudoHeader (txTcp gen (pcb.prepareBeforeIpTx hdr buf)).2 ++
        (txTcp gen (pcb.prepareBeforeIpTx hdr buf)).2.drop 20) =
      hostSum buf + hostSum ((checkedOverlay pcb buf).bytes ++ hdr.bytes) +
        (tcpChecksum pcb hdr buf).toNat := by
  have hcleared : ({ hdr with check := 0 } : TcpHeader) = hdr := by
    rw [← hcheck]
  have hsegment : ∀ check : UInt16,
      (({ hdr with check := check } : TcpHeader).bytes ++ buf).length = buf.length + 20 := by
    intro check
    rw [List.length_append, TcpHeader.length_bytes, Nat.add_comm]
  have hheaders : hostSum ((checkedOverlay pcb buf).bytes ++ hdr.bytes) =
      1536 + (htons (.ofNat (buf.length + 20))).toNat +
        hostSum (bytesLE 4 pcb.laddr.toNat ++ bytesLE 4 pcb.faddr.toNat) + hostSum hdr.bytes := by
    rw [hostSum_append (by rw [IpHeaderOverlay.length_bytes]), checkedOverlay, hostSum_ipovly]
  have hchecked :
      hostSum (({ hdr with check := tcpChecksum pcb hdr buf } : TcpHeader).bytes ++ buf) =
      hostSum hdr.bytes + (tcpChecksum pcb hdr buf).toNat + hostSum buf := by
    rw [hostSum_append (by rw [TcpHeader.length_bytes]), hostSum_tcpHeader, hcleared]
  rw [prepareBeforeIpTx_eq pcb hdoff, txTcp, tx_eq,
    hostSum_pseudoHeader (by rw [hsegment]; omega), hsegment, hchecked, hheaders]
  simp only [checkedOverlay]
  omega

theorem verifies_txTcp (gen : IpIdGenerator) (pcb : TcpPcb) {hdr : TcpHeader} (hdoff : hdr.doff = 5)
    (hcheck : hdr.check = 0) {buf : List UInt8} (hlength : buf.length + 40 ≤ 65535) :
    IpHeaderVerifies (txTcp gen (pcb.prepareBeforeIpTx hdr buf)).2 ∧
      TcpVerifies (txTcp gen (pcb.prepareBeforeIpTx hdr buf)).2 := by
  have hrest : (pcb.prepareBeforeIpTx hdr buf).hdr.bytes.length + buf.length = buf.length + 20 := by
    rw [TcpHeader.length_bytes, Nat.add_comm]
  constructor
  · apply ipHeaderVerifies_tx gen rfl
    · change 20 + ((pcb.prepareBeforeIpTx hdr buf).hdr.bytes ++ buf).length ≤ 65535
      rw [List.length_append, hrest]
      omega
    · change htons (.ofNat (buf.length + 40)) =
        htons (.ofNat (20 + ((pcb.prepareBeforeIpTx hdr buf).hdr.bytes ++ buf).length))
      rw [List.length_append, hrest, Nat.add_comm 20]
  · obtain ⟨hdvd, hpos⟩ := tcpChecksum_completes pcb hdr hlength
    rw [TcpVerifies]
    apply networkSum_eq_top
    · rw [hostSum_txTcp gen pcb hdoff hcheck hlength]
      exact hdvd
    · rw [hostSum_txTcp gen pcb hdoff hcheck hlength]
      exact hpos

theorem verifies_txUdp (gen : IpIdGenerator) (pcb : Pcb) {buf : List UInt8}
    (hlength : 28 + buf.length ≤ 65535) :
    IpHeaderVerifies (txUdp gen (UdpPcb.datagram pcb buf)).2 := by
  have hrest : ((UdpPcb.datagram pcb buf).hdr.bytes ++ buf).length = 8 + buf.length := by
    rw [List.length_append, UdpHeader.length_bytes]
  apply ipHeaderVerifies_tx gen rfl
  · change 20 + ((UdpPcb.datagram pcb buf).hdr.bytes ++ buf).length ≤ 65535
    rw [hrest]
    omega
  · change htons (.ofNat (buf.length + 28)) =
      htons (.ofNat (20 + ((UdpPcb.datagram pcb buf).hdr.bytes ++ buf).length))
    rw [hrest, ← Nat.add_assoc, Nat.add_comm]

theorem verifies_txTcp_send (gen : IpIdGenerator) {port : UInt16} {pcb : TcpPcb} {buf : List UInt8}
    {segment : TcpSegment} (hlength : 40 + buf.length ≤ 65535)
    (hsend : (TcpPcb.send port pcb buf).2.2.2 = some segment) :
    IpHeaderVerifies (txTcp gen segment).2 ∧ TcpVerifies (txTcp gen segment).2 := by
  have hbuf : buf.length + 40 ≤ 65535 := by
    omega
  unfold TcpPcb.send at hsend
  simp only at hsend
  split at hsend
  · cases hsend
    exact verifies_txTcp gen _ rfl rfl hbuf
  · cases hsend
    exact verifies_txTcp gen _ rfl rfl hbuf
  · cases hsend

/-- Every packet that leaves has a header that verifies, and every TCP segment a
checksum that does. -/
theorem emitted_headers_verify (gen : IpIdGenerator) (port : UInt16) :
    (∀ (pcb : Pcb) (buf : List UInt8), 28 + buf.length ≤ 65535 →
      IpHeaderVerifies (txUdp gen (UdpPcb.send port pcb buf).2.2.2).2 ∧
      ∀ faddr fport, IpHeaderVerifies
        (txUdp gen (UdpPcb.sendto port pcb faddr fport buf).2.2.2).2) ∧
    (∀ (pcb : TcpPcb) (buf : List UInt8) (segment : TcpSegment), 40 + buf.length ≤ 65535 →
      (TcpPcb.send port pcb buf).2.2.2 = some segment →
        IpHeaderVerifies (txTcp gen segment).2 ∧ TcpVerifies (txTcp gen segment).2) ∧
    ∀ (pcb : TcpPcb) (value : UInt32), IpHeaderVerifies (txTcp gen (pcb.ack2peer value)).2 ∧
      TcpVerifies (txTcp gen (pcb.ack2peer value)).2 := by
  refine ⟨?_, ?_, ?_⟩
  · intro pcb buf hlength
    refine ⟨verifies_txUdp gen _ hlength, ?_⟩
    intro faddr fport
    exact verifies_txUdp gen _ hlength
  · intro pcb buf segment hlength hsend
    exact verifies_txTcp_send gen hlength hsend
  · intro pcb value
    exact verifies_txTcp gen pcb rfl rfl (by decide)

theorem emitted_headers_verify_sample :
    IpHeaderVerifies (txUdp { last := 65535 } (UdpPcb.send 60000 (.new 1) [1]).2.2.2).2 ∧
      ∃ segment, (TcpPcb.send 60000 (.new 1 0 0 0 0) [1, 2, 3]).2.2.2 = some segment ∧
        TcpVerifies (txTcp { last := 0 } segment).2 := by
  obtain ⟨hudp, -, -⟩ := emitted_headers_verify { last := 65535 } 60000
  obtain ⟨-, htcp, -⟩ := emitted_headers_verify { last := 0 } 60000
  refine ⟨(hudp (.new 1) [1] (by decide)).1, _, rfl, ?_⟩
  exact (htcp (.new 1 0 0 0 0) [1, 2, 3] _ (by decide) rfl).2

end MuQuinet.EmittedHeaders
