import MuQuinet.EmittedHeaders
import MuQuinet.PeerlessSends
import MuQuinet.WireRoundTrip

namespace MuQuinet.LengthFields

open MuQuinet.Lib.Words
open MuQuinet.ChannelSockets
open MuQuinet.DaemonSurvival
open MuQuinet.EmittedHeaders
open MuQuinet.ErrnoEncoding
open MuQuinet.IpHeaders
open MuQuinet.IpLayer
open MuQuinet.Pcbs
open MuQuinet.PeerlessSends
open MuQuinet.ReplyShape
open MuQuinet.RequestHandler
open MuQuinet.Rpc
open MuQuinet.Sockets
open MuQuinet.TcpLayer
open MuQuinet.Transmit
open MuQuinet.UdpLayer
open MuQuinet.Wire

/-- What the handler of a `sendto` hands to `Ip::tx`. -/
def emittedTo (d : Daemon) (ch : Nat) (buf : List UInt8) (addr : Option (List UInt8)) :
    Except Fault (List Packet) := do
  let (ref, so) ← d.socket ch
  match so.type with
  | .UDP =>
      let (_, _, _, datagram) ←
        match addr with
        | some addr => do
            let dest ← destAddr addr
            let pcb ← d.udpPcb ref.index
            pure (UdpPcb.sendto d.stack.udp.port pcb dest.sinAddr dest.sinPort buf)
        | none => do
            let pcb ← d.udpPcb ref.index
            pure (UdpPcb.send d.stack.udp.port pcb buf)
      return [.udp datagram]
  | .TCP =>
      let pcb ← d.tcpPcb ref.index
      return ((TcpPcb.send d.stack.tcp.port pcb buf).2.2.2.map Packet.tcp).toList

def TotLenTrue (packet : List UInt8) : Prop :=
  (be16ToCpu (IpHeader.at packet 0).totLen).toNat = packet.length

def UdpLenTrue (packet : List UInt8) : Prop :=
  (be16ToCpu (UdpHeader.at packet 20).len).toNat = packet.length - 20

/-- The overlay that the checksum of the segment was taken over has the length of what
follows the IP header. -/
def PseudoLenTrue (segment : TcpSegment) (packet : List UInt8) : Prop :=
  ∃ (pcb : TcpPcb) (hdr : TcpHeader), hdr.doff = 5 ∧
    segment = pcb.prepareBeforeIpTx hdr segment.buf ∧
    segment.hdr.check = tcpChecksum pcb hdr segment.buf ∧
    (be16ToCpu (checkedOverlay pcb segment.buf).protocolLen).toNat = packet.length - 20

def LengthsTrue (gen : IpIdGenerator) : Packet → Prop
  | .udp datagram => TotLenTrue (txUdp gen datagram).2 ∧ UdpLenTrue (txUdp gen datagram).2
  | .tcp segment =>
      TotLenTrue (txTcp gen segment).2 ∧ PseudoLenTrue segment (txTcp gen segment).2

/-- A UDP socket with a peer, or a TCP socket in ESTABLISHED. -/
def Peered (d : Daemon) (ref : SocketRef) (so : Socket) : Prop :=
  match so.type with
  | .UDP => ∃ pcb, (d.udpSlot ref.index).pcb = some pcb ∧ pcb.fport ≠ 0
  | .TCP => ∃ pcb, (d.tcpSlot ref.index).pcb = some pcb ∧ pcb.connState = .ESTABLISHED

/-- The request is answered; either the client gets an error and nothing is written, or
one packet is, with lengths that are its own. -/
def TruthfulOrFails (d : Daemon) (ch : Nat) (gen : IpIdGenerator) (buf : List UInt8)
    (flags : Int32) (addr : Option (List UInt8)) : Prop :=
  ∃ d' resp packets, sendtoCall d ch buf addr = .ok (d', resp) ∧
    emittedTo d ch buf addr = .ok packets ∧
    ((∃ errno, (Call.sendto buf flags addr).result resp = .fails errno) ∧ packets = [] ∨
      ∃ packet, packets = [packet] ∧ LengthsTrue gen packet)

/-- The payload leaves room for the headers in 16 bits. -/
def PayloadFits (type : SocketType) (buf : List UInt8) : Prop :=
  match type with
  | .UDP => buf.length ≤ 65507
  | .TCP => buf.length ≤ 65495

theorem emittedTo_none (d : Daemon) (ch : Nat) (buf : List UInt8) :
    emittedTo d ch buf none = emitted d ch buf := by
  unfold emittedTo emitted
  rcases d.socket ch with fault | ⟨ref, so⟩
  · rfl
  · simp only [bind, Except.bind]
    cases so.type with
    | UDP => rcases d.udpPcb ref.index with fault | pcb <;> rfl
    | TCP => rfl

theorem be16ToCpu_htons_eq_iff (n : Nat) :
    (be16ToCpu (htons (.ofNat n))).toNat = n ↔ n ≤ 65535 := by
  rw [be16ToCpu, htons, swap16_swap16, UInt16.toNat_ofNat']
  omega

section Fields

variable (gen : IpIdGenerator)

theorem length_tx (ipovly : IpHeaderOverlay) (rest userPayload : List UInt8) :
    (tx gen (ipovly.bytes ++ rest) userPayload).2.length =
      20 + (rest.length + userPayload.length) := by
  rw [tx_eq, List.length_append, length_ipHeader, List.length_append]

theorem totLenTrue_iff {ipovly : IpHeaderOverlay} {rest userPayload : List UInt8}
    (hlen : ipovly.len = htons (.ofNat (20 + (rest.length + userPayload.length)))) :
    TotLenTrue (tx gen (ipovly.bytes ++ rest) userPayload).2 ↔
      20 + (rest.length + userPayload.length) ≤ 65535 := by
  rw [TotLenTrue, length_tx, tx_eq, at_ipHeader]
  dsimp only
  rw [hlen, be16ToCpu_htons_eq_iff]

theorem totLenTrue_udp_iff (pcb : Pcb) (buf : List UInt8) :
    TotLenTrue (txUdp gen (UdpPcb.datagram pcb buf)).2 ↔ buf.length ≤ 65507 := by
  have hlen : (UdpPcb.datagram pcb buf).ipovly.len = htons (.ofNat (20 +
      ((UdpPcb.datagram pcb buf).hdr.bytes.length + (UdpPcb.datagram pcb buf).buf.length))) := by
    rw [UdpHeader.length_bytes, ← Nat.add_assoc, Nat.add_comm]
    rfl
  rw [txUdp, totLenTrue_iff gen hlen, UdpHeader.length_bytes]
  show 20 + (8 + buf.length) ≤ 65535 ↔ buf.length ≤ 65507
  omega

theorem udpLenTrue_iff (pcb : Pcb) (buf : List UInt8) :
    UdpLenTrue (txUdp gen (UdpPcb.datagram pcb buf)).2 ↔ buf.length ≤ 65527 := by
  rw [UdpLenTrue, txUdp, length_tx, tx_eq, UdpHeader.length_bytes]
  have hat := fun id check : UInt16 => WireRoundTrip.udpHeader_at
    (ipHeader id check (UdpPcb.datagram pcb buf).ipovly) (UdpPcb.datagram pcb buf).hdr
    (UdpPcb.datagram pcb buf).buf
  simp only [length_ipHeader] at hat
  rw [hat, Nat.add_sub_cancel_left]
  show (be16ToCpu (htons (.ofNat (buf.length + 8)))).toNat = 8 + buf.length ↔ _
  rw [Nat.add_comm 8, be16ToCpu_htons_eq_iff]
  omega

theorem totLenTrue_tcp_iff (pcb : TcpPcb) (hdr : TcpHeader) (buf : List UInt8) :
    TotLenTrue (txTcp gen (pcb.prepareBeforeIpTx hdr buf)).2 ↔ buf.length ≤ 65495 := by
  have hlen : (pcb.prepareBeforeIpTx hdr buf).ipovly.len = htons (.ofNat (20 +
      ((pcb.prepareBeforeIpTx hdr buf).hdr.bytes.length +
        (pcb.prepareBeforeIpTx hdr buf).buf.length))) := by
    rw [TcpHeader.length_bytes, ← Nat.add_assoc, Nat.add_comm]
    rfl
  rw [txTcp, totLenTrue_iff gen hlen, TcpHeader.length_bytes]
  show 20 + (20 + buf.length) ≤ 65535 ↔ buf.length ≤ 65495
  omega

theorem pseudoLenTrue_iff (pcb : TcpPcb) {hdr : TcpHeader} (hdoff : hdr.doff = 5)
    (buf : List UInt8) :
    PseudoLenTrue (pcb.prepareBeforeIpTx hdr buf) (txTcp gen (pcb.prepareBeforeIpTx hdr buf)).2 ↔
      buf.length ≤ 65515 := by
  have hlength : (txTcp gen (pcb.prepareBeforeIpTx hdr buf)).2.length - 20 = buf.length + 20 := by
    rw [txTcp, length_tx, TcpHeader.length_bytes, Nat.add_sub_cancel_left, Nat.add_comm]
    rfl
  have hfits : (be16ToCpu (htons (.ofNat (buf.length + 20)))).toNat = buf.length + 20 ↔
      buf.length ≤ 65515 := by
    rw [be16ToCpu_htons_eq_iff]
    omega
  rw [PseudoLenTrue, hlength, ← hfits]
  constructor
  · rintro ⟨pcb', hdr', -, -, -, hpseudo⟩
    exact hpseudo
  · intro hpseudo
    have hcheck := prepareBeforeIpTx_eq pcb hdoff buf
    exact ⟨pcb, hdr, hdoff, rfl, congrArg (fun segment => segment.hdr.check) hcheck, hpseudo⟩

end Fields

section Requests

variable {d : Daemon} {ch : Nat} {ref : SocketRef} {so : Socket} {buf : List UInt8}
  {addr : Option (List UInt8)}

/-- No reply of `sendtoCall` is an error, so all that counts is what it sends. -/
theorem truthfulOrFails_iff {d' : Daemon} {resp : Response} {packet : Packet}
    (hsend : sendtoCall d ch buf addr = .ok (d', resp))
    (hemitted : emittedTo d ch buf addr = .ok [packet]) (gen : IpIdGenerator) (flags : Int32) :
    TruthfulOrFails d ch gen buf flags addr ↔ LengthsTrue gen packet := by
  constructor
  · rintro ⟨d'', resp', packets, hsend', hemitted', hfails | ⟨packet', rfl, htrue⟩⟩
    · rw [hfails.2] at hemitted'
      cases hemitted.symm.trans hemitted'
    · cases hemitted.symm.trans hemitted'
      exact htrue
  · intro htrue
    exact ⟨d', resp, [packet], hsend, hemitted, .inr ⟨packet, rfl, htrue⟩⟩

theorem udp_emits (hso : HasSocket d ch ref so) (htype : so.type = .UDP) {pcb : Pcb}
    (hpcb : (d.udpSlot ref.index).pcb = some pcb)
    (haddr : ∀ bytes ∈ addr, bytes.length = sizeofSockaddrIn) (buf : List UInt8) :
    ∃ d' resp pcb', sendtoCall d ch buf addr = .ok (d', resp) ∧
      emittedTo d ch buf addr = .ok [.udp (UdpPcb.datagram pcb' buf)] := by
  cases addr with
  | none =>
      obtain ⟨hsend, hemitted⟩ := udp_send_eq hso htype hpcb buf
      rw [emittedTo_none]
      exact ⟨_, _, (Pcb.send d.stack.udp.port pcb).2.1, hsend, hemitted⟩
  | some bytes =>
      have hlength := haddr bytes rfl
      obtain ⟨dest, hdest⟩ : ∃ dest, destAddr bytes = .ok dest := by
        rw [destAddr, if_neg (by omega)]
        exact ⟨_, rfl⟩
      have hsocket := socket_eq_ok_iff.mpr hso
      have hudp := udpPcb_of_pcb hpcb
      let sent := UdpPcb.sendto d.stack.udp.port pcb dest.sinAddr dest.sinPort buf
      have hsend : sendtoCall d ch buf (some bytes) =
          .ok (udpCalled d ref.index sent.1 sent.2.1,
            retOk (.sendtoCall (.ofInt sent.2.2.1) none)) := by
        simp only [sendtoCall, hsocket, htype, hudp, hdest, bind, Except.bind, pure, Except.pure]
        rfl
      have hemitted : emittedTo d ch buf (some bytes) = .ok [.udp sent.2.2.2] := by
        simp only [emittedTo, hsocket, htype, hudp, hdest, bind, Except.bind, pure, Except.pure]
        rfl
      exact ⟨_, _, _, hsend, hemitted⟩

theorem tcp_emits (hso : HasSocket d ch ref so) (htype : so.type = .TCP) {pcb : TcpPcb}
    (hpcb : (d.tcpSlot ref.index).pcb = some pcb) (hstate : pcb.connState = .ESTABLISHED)
    (addr : Option (List UInt8)) (buf : List UInt8) :
    ∃ d' resp pcb' hdr, hdr.doff = 5 ∧ sendtoCall d ch buf addr = .ok (d', resp) ∧
      emittedTo d ch buf addr = .ok [.tcp (TcpPcb.prepareBeforeIpTx pcb' hdr buf)] := by
  have hsocket := socket_eq_ok_iff.mpr hso
  have hunused : sendtoCall d ch buf addr = sendtoCall d ch buf none ∧
      emittedTo d ch buf addr = emittedTo d ch buf none := by
    constructor
    · simp only [sendtoCall, hsocket, htype, bind, Except.bind]
    · simp only [emittedTo, hsocket, htype, bind, Except.bind]
  obtain ⟨hsend, hemitted⟩ := tcp_send_eq hso htype hpcb buf
  obtain ⟨pcb', hdr, hdoff, hsent⟩ : ∃ (pcb' : TcpPcb) (hdr : TcpHeader), hdr.doff = 5 ∧
      (TcpPcb.send d.stack.tcp.port pcb buf).2.2.2 = some (pcb'.prepareBeforeIpTx hdr buf) := by
    simp only [TcpPcb.send, hstate]
    exact ⟨_, _, rfl, rfl⟩
  rw [hunused.1, hunused.2, emittedTo_none]
  refine ⟨_, _, pcb', hdr, hdoff, hsend, ?_⟩
  rw [hemitted, hsent]
  rfl

theorem truthful_udp_iff (hso : HasSocket d ch ref so) (htype : so.type = .UDP) {pcb : Pcb}
    (hpcb : (d.udpSlot ref.index).pcb = some pcb)
    (haddr : ∀ bytes ∈ addr, bytes.length = sizeofSockaddrIn) (gen : IpIdGenerator)
    (buf : List UInt8) (flags : Int32) :
    TruthfulOrFails d ch gen buf flags addr ↔ buf.length ≤ 65507 := by
  obtain ⟨d', resp, pcb', hsend, hemitted⟩ := udp_emits hso htype hpcb haddr buf
  rw [truthfulOrFails_iff hsend hemitted, LengthsTrue, totLenTrue_udp_iff, udpLenTrue_iff]
  omega

theorem truthful_tcp_iff (hso : HasSocket d ch ref so) (htype : so.type = .TCP) {pcb : TcpPcb}
    (hpcb : (d.tcpSlot ref.index).pcb = some pcb) (hstate : pcb.connState = .ESTABLISHED)
    (gen : IpIdGenerator) (buf : List UInt8) (flags : Int32) (addr : Option (List UInt8)) :
    TruthfulOrFails d ch gen buf flags addr ↔ buf.length ≤ 65495 := by
  obtain ⟨d', resp, pcb', hdr, hdoff, hsend, hemitted⟩ := tcp_emits hso htype hpcb hstate addr buf
  rw [truthfulOrFails_iff hsend hemitted, LengthsTrue, totLenTrue_tcp_iff,
    pseudoLenTrue_iff gen pcb' hdoff]
  omega

/-- No send reports an error, and the lengths are those of the packet just where the
payload and the headers together fit a 16-bit total length. -/
theorem truthful_iff_payloadFits (hso : HasSocket d ch ref so) (hpeered : Peered d ref so)
    (haddr : ∀ bytes ∈ addr, bytes.length = sizeofSockaddrIn) (gen : IpIdGenerator)
    (buf : List UInt8) (flags : Int32) :
    TruthfulOrFails d ch gen buf flags addr ↔ PayloadFits so.type buf := by
  cases htype : so.type with
  | UDP =>
      simp only [Peered, htype] at hpeered
      obtain ⟨pcb, hpcb, -⟩ := hpeered
      exact truthful_udp_iff hso htype hpcb haddr gen buf flags
  | TCP =>
      simp only [Peered, htype] at hpeered
      obtain ⟨pcb, hpcb, hstate⟩ := hpeered
      exact truthful_tcp_iff hso htype hpcb hstate gen buf flags addr

end Requests

/-- The daemon whose TCP socket has got the answer to its first SYN. -/
def sampleEstablished : Daemon :=
  { sampleConnecting with stack := (rx sampleConnecting.stack .zero sampleSynAck).1 }

theorem sampleEstablished_reachable :
    DaemonSurvival.machine.Reachable (.running sampleEstablished) := by
  have hconnecting : DaemonSurvival.machine.Reachable (.running sampleConnecting) :=
    sampleTcp_reachable.step (a := sampleRead (.connectCall sampleAddr)) trivial rfl
  exact hconnecting.step (a := .rx .zero sampleSynAck) trivial rfl

theorem sampleEstablished_peered :
    HasSocket sampleEstablished 0 { type := .TCP, index := 0 }
        { type := .TCP, nonblocking := false } ∧
      ∃ pcb, (sampleEstablished.tcpSlot 0).pcb = some pcb ∧ pcb.connState = .ESTABLISHED :=
  ⟨⟨rfl, rfl⟩, _, rfl, rfl⟩

theorem sampleEstablished_truthful_iff :
    TruthfulOrFails sampleEstablished 0 { last := 0 } [1, 2] 0 none ↔ PayloadFits .TCP [1, 2] := by
  obtain ⟨hso, hpeered⟩ := sampleEstablished_peered
  exact truthful_iff_payloadFits hso hpeered (by simp) _ _ _

/-- The RPC layer admits the payload, and the total length of its segment wraps. -/
theorem long_segment_untruthful :
    DaemonSurvival.machine.Reachable (.running sampleEstablished) ∧
      Request.byteSize { calling := .sendtoCall (List.replicate 65496 0) 0 none, pid := 7 } ≤
        rpcMessageMaxSize ∧
      ¬ TruthfulOrFails sampleEstablished 0 { last := 0 } (List.replicate 65496 0) 0 none := by
  refine ⟨sampleEstablished_reachable, ?_, ?_⟩
  · exact byteSize_sendto_le 0 7 (by rw [List.length_replicate]; omega) (by simp)
  · obtain ⟨hso, pcb, hpcb, hstate⟩ := sampleEstablished_peered
    rw [truthful_tcp_iff hso rfl hpcb hstate, List.length_replicate]
    omega

end MuQuinet.LengthFields
