import MuQuinet.LengthFields
import MuQuinet.PacketEffects
import MuQuinet.SocketLives
import MuQuinet.StreamNumbering

namespace MuQuinet.OutgoingPackets

open MuQuinet.Lib.Outcomes
open MuQuinet.Lib.Populations.Population
open MuQuinet.Buffers
open MuQuinet.ChannelSockets
open MuQuinet.ConnectAnswers
open MuQuinet.DaemonSurvival
open MuQuinet.IpHeaders
open MuQuinet.IpLayer
open MuQuinet.LengthFields
open MuQuinet.PacketEffects
open MuQuinet.Pcbs
open MuQuinet.PeerlessSends
open MuQuinet.RequestHandler
open MuQuinet.Rpc
open MuQuinet.Sockets
open MuQuinet.StreamNumbering (acked)
open MuQuinet.TcpLayer
open MuQuinet.UdpEndpoints (local_bind)
open MuQuinet.UdpLayer
open MuQuinet.Wire

def ipovly : Packet → IpHeaderOverlay
  | .udp datagram => datagram.ipovly
  | .tcp segment => segment.ipovly

def dest : Packet → UInt16
  | .udp datagram => datagram.hdr.dest
  | .tcp segment => segment.hdr.dest

def protocol : Packet → UInt8
  | .udp _ => 17
  | .tcp _ => 6

/-- What the handler of `connect` hands to `Ip::tx`: on a UDP socket nothing. -/
def sentByConnect (d : Daemon) (ch : Nat) (addr : List UInt8) : List Packet :=
  match d.socket ch with
  | .ok (_, so) =>
      match so.type with
      | .UDP => []
      | .TCP => ((emittedByConnect d ch addr).toOption.getD []).map Packet.tcp
  | .error _ => []

def sentByRequest (d : Daemon) (ch : Nat) : Calling → List Packet
  | .connectCall addr => sentByConnect d ch addr
  | .sendtoCall buf _ addr => (emittedTo d ch buf addr).toOption.getD []
  | _ => []

/-- What a step hands to `Ip::tx`. -/
def sentBy : DaemonSurvival.State → Label → List Packet
  | .running d, .read _ ch (.message req) _ => sentByRequest d ch req.calling
  | .running d, .rx uninit skbuf => (acked (rx d.stack uninit skbuf).2).map Packet.tcp
  | _, _ => []

def namedByRequest : Calling → List SockaddrIn
  | .connectCall addr => (destAddr addr).toOption.toList
  | .sendtoCall _ _ (some addr) => (destAddr addr).toOption.toList
  | _ => []

/-- The destinations that requests name. -/
def namedBy (requests : List Calling) : List SockaddrIn :=
  requests.flatMap namedByRequest

def requestedBy : Label → List Calling
  | .read _ _ (.message req) _ => [req.calling]
  | _ => []

/-- A client has named the destination, or it is that of a PCB without a peer. -/
def IsNamed (named : List SockaddrIn) (addr : UInt32) (port : UInt16) : Prop :=
  addr = 0 ∧ port = 0 ∨ ∃ dest ∈ named, addr = dest.sinAddr ∧ port = dest.sinPort

/-- A PCB has the address of the stack, and no peer that no client has named. -/
structure Located (stackAddr : UInt32) (named : List SockaddrIn) (pcb : Pcb) : Prop where
  laddr_eq : pcb.laddr = stackAddr
  peer : IsNamed named pcb.faddr pcb.fport

/-- A packet comes from the stack, goes where a client has named, and has a header of the
usual length. -/
structure Routed (stackAddr : UInt32) (named : List SockaddrIn) (packet : Packet) : Prop where
  saddr_eq : (ipovly packet).saddr = stackAddr
  dest : IsNamed named (ipovly packet).daddr (dest packet)
  cleared : (ipovly packet).protocolLen = 0
  protocol_eq : (ipovly packet).protocol = protocol packet
  doff_eq : ∀ segment, packet = .tcp segment → segment.hdr.doff = 5

/-- A client has given the buffer to a `sendto`. -/
def IsOffered (requests : List Calling) (buf : List UInt8) : Prop :=
  ∃ flags addr, .sendtoCall buf flags addr ∈ requests

/-- A packet carries a buffer that a client has given; a segment may carry nothing. -/
def Offered (requests : List Calling) : Packet → Prop
  | .udp datagram => IsOffered requests datagram.buf
  | .tcp segment => segment.buf = [] ∨ IsOffered requests segment.buf

theorem IsOffered.mono {requests requests' : List Calling} {buf : List UInt8}
    (h : IsOffered requests buf) (hsubset : requests ⊆ requests') : IsOffered requests' buf := by
  obtain ⟨flags, addr, hmem⟩ := h
  exact ⟨flags, addr, hsubset hmem⟩

section Pcbs

variable {stackAddr : UInt32} {named named' : List SockaddrIn} {pcb pcb' : Pcb}

theorem IsNamed.mono {addr : UInt32} {port : UInt16} (h : IsNamed named addr port)
    (hsubset : named ⊆ named') : IsNamed named' addr port :=
  h.imp_right fun ⟨dest, hmem, heq⟩ => ⟨dest, hsubset hmem, heq⟩

theorem Located.mono (h : Located stackAddr named pcb) (hsubset : named ⊆ named') :
    Located stackAddr named' pcb :=
  ⟨h.laddr_eq, h.peer.mono hsubset⟩

theorem located_new (stackAddr : UInt32) (named : List SockaddrIn) :
    Located stackAddr named (.new stackAddr) :=
  ⟨rfl, .inl ⟨rfl, rfl⟩⟩

theorem Located.bind (h : Located stackAddr named pcb) (port : UInt16) :
    Located stackAddr named (Pcb.bind port pcb).2 := by
  obtain ⟨hfaddr, hfport⟩ := peer_bind port pcb
  constructor
  · rw [(local_bind port pcb).1]
    exact h.laddr_eq
  · rw [hfaddr, hfport]
    exact h.peer

theorem Located.connect (h : Located stackAddr named pcb) (port : UInt16) {dest : SockaddrIn}
    (hdest : dest ∈ named) :
    Located stackAddr named (pcb.connect port dest.sinAddr dest.sinPort).2 := by
  have hpeer : Located stackAddr named
      { pcb with faddr := dest.sinAddr, fport := dest.sinPort } :=
    ⟨h.laddr_eq, .inr ⟨dest, hdest, rfl, rfl⟩⟩
  exact hpeer.bind port

theorem Located.disconnect (h : Located stackAddr named pcb) :
    Located stackAddr named pcb.disconnect :=
  ⟨h.laddr_eq, .inl ⟨rfl, rfl⟩⟩

theorem Located.routed_datagram (h : Located stackAddr named pcb) (buf : List UInt8) :
    Routed stackAddr named (.udp (UdpPcb.datagram pcb buf)) :=
  ⟨h.laddr_eq, h.peer, rfl, rfl, fun _ heq => nomatch heq⟩

theorem Located.routed_segment {pcb : TcpPcb} (h : Located stackAddr named pcb.toPcb)
    {hdr : TcpHeader} (hdest : hdr.dest = pcb.fport) (hdoff : hdr.doff = 5) (buf : List UInt8) :
    Routed stackAddr named (.tcp (pcb.prepareBeforeIpTx hdr buf)) := by
  refine ⟨h.laddr_eq, ?_, rfl, rfl, ?_⟩
  · have hpeer := h.peer
    rw [← hdest] at hpeer
    exact hpeer
  · rintro segment ⟨⟩
    exact hdoff

theorem Located.routed_ack {pcb : TcpPcb} (h : Located stackAddr named pcb.toPcb)
    (value : UInt32) : Routed stackAddr named (.tcp (pcb.ack2peer value)) :=
  h.routed_segment rfl rfl []

/-- A UDP `send` uses the PCB as binding leaves it. -/
theorem Located.udp_send (h : Located stackAddr named pcb) (port : UInt16) (buf : List UInt8) :
    Located stackAddr named (UdpPcb.send port pcb buf).2.1 ∧
      Routed stackAddr named (.udp (UdpPcb.send port pcb buf).2.2.2) :=
  ⟨h.bind port, (h.bind port).routed_datagram buf⟩

theorem Located.udp_sendto (h : Located stackAddr named pcb) (port : UInt16) {dest : SockaddrIn}
    (hdest : dest ∈ named) (buf : List UInt8) :
    Located stackAddr named (UdpPcb.sendto port pcb dest.sinAddr dest.sinPort buf).2.1 ∧
      Routed stackAddr named
        (.udp (UdpPcb.sendto port pcb dest.sinAddr dest.sinPort buf).2.2.2) := by
  have hbound := h.bind port
  have hconnected := hbound.connect (Pcb.bind port pcb).1 hdest
  obtain ⟨hlocated, hrouted⟩ := hconnected.udp_send
    (Pcb.connect (Pcb.bind port pcb).1 (Pcb.bind port pcb).2 dest.sinAddr dest.sinPort).1 buf
  exact ⟨hlocated.disconnect, hrouted⟩

theorem Located.tcp_send {pcb : TcpPcb} (h : Located stackAddr named pcb.toPcb) (port : UInt16)
    (buf : List UInt8) :
    Located stackAddr named (TcpPcb.send port pcb buf).2.1.toPcb ∧
      ∀ segment, (TcpPcb.send port pcb buf).2.2.2 = some segment →
        Routed stackAddr named (.tcp segment) := by
  have hbound : Located stackAddr named (pcb.toPcb.send port).2.1 := h.bind port
  constructor
  · rw [(TcpIntegrity.send_toPcb port pcb buf).2]
    exact hbound
  · intro segment hsend
    unfold TcpPcb.send at hsend
    dsimp only at hsend
    split at hsend
    · cases hsend
      exact Located.routed_segment hbound rfl rfl buf
    · cases hsend
      exact Located.routed_segment hbound rfl rfl buf
    · cases hsend

theorem Located.tcp_connect {pcb : TcpPcb} (h : Located stackAddr named pcb.toPcb)
    (port : UInt16) {dest : SockaddrIn} (hdest : dest ∈ named) :
    Located stackAddr named (TcpPcb.connect port pcb dest.sinAddr dest.sinPort).2.1.toPcb ∧
      ∀ segment, (TcpPcb.connect port pcb dest.sinAddr dest.sinPort).2.2 = some segment →
        Routed stackAddr named (.tcp segment) := by
  have hconnected : Located stackAddr named
      ({ pcb with toPcb := (pcb.toPcb.connect port dest.sinAddr dest.sinPort).2 } :
        TcpPcb).toPcb := h.connect port hdest
  exact hconnected.tcp_send (pcb.toPcb.connect port dest.sinAddr dest.sinPort).1 []

theorem acked_append (events events' : List Event) :
    acked (events ++ events') = acked events ++ acked events' :=
  List.filterMap_append

theorem acked_deliver {P : Type} (slot : Slot P) (peeraddr : SockaddrIn) (skbuf : SocketBuffer)
    (next : List SocketBuffer) : acked (slot.deliver peeraddr skbuf next).2 = [] := by
  unfold Slot.deliver
  split
  · rfl
  · split <;> rfl

theorem acked_recvSynSent {pcb : TcpPcb} {hdr : TcpHeader} {segment : TcpSegment}
    (h : segment ∈ acked (pcb.recvSynSent hdr).2) :
    segment = (pcb.recvSynSent hdr).1.ack2peer (pcb.recvSynSent hdr).1.recvNext := by
  simp only [TcpPcb.recvSynSent, acked_append] at h
  rcases hcb : pcb.onConnEstabCB with _ | rrChannel
  · rw [hcb] at h
    split at h <;> exact List.mem_singleton.mp h
  · rw [hcb] at h
    split at h <;> exact List.mem_singleton.mp h

theorem toPcb_recvAck (pcb : TcpPcb) (hdr : TcpHeader) :
    (pcb.recvAck hdr).toPcb = pcb.toPcb := by
  unfold TcpPcb.recvAck
  split <;> rfl

/-- A segment leaves the peer of a connection alone, and is acknowledged to that peer. -/
theorem Located.tcp_recv {slot : Slot TcpPcb} {pcb : TcpPcb} (hslot : slot.pcb = some pcb)
    (h : Located stackAddr named pcb.toPcb) (peerAddr : SockaddrIn) (skbuf : SocketBuffer)
    (next : List SocketBuffer) :
    (∀ pcb', (TcpPcb.recv slot pcb peerAddr skbuf next).1.pcb = some pcb' →
      Located stackAddr named pcb'.toPcb) ∧
      ∀ segment ∈ acked (TcpPcb.recv slot pcb peerAddr skbuf next).2,
        Routed stackAddr named (.tcp segment) := by
  have hquiet : acked (slot.deliver peerAddr (TcpPcb.locatePayload skbuf) next).2 = [] :=
    acked_deliver slot peerAddr (TcpPcb.locatePayload skbuf) next
  have hkept : ∀ pcb', (slot.deliver peerAddr (TcpPcb.locatePayload skbuf) next).1.pcb = some pcb' →
      Located stackAddr named pcb'.toPcb := by
    intro pcb' hpcb'
    rw [pcb_deliver, hslot] at hpcb'
    cases hpcb'
    exact h
  unfold TcpPcb.recv
  split
  · have hsynSent : Located stackAddr named (pcb.recvSynSent (tcphdr skbuf)).1.toPcb := h
    constructor
    · intro pcb' hpcb'
      rw [← Option.some.inj hpcb']
      exact hsynSent
    · intro segment hmem
      rw [acked_recvSynSent hmem]
      exact hsynSent.routed_ack _
  · have hack : Located stackAddr named (pcb.recvAck (tcphdr skbuf)).toPcb := by
      rw [toPcb_recvAck]
      exact h
    dsimp only
    split
    · split
      · refine ⟨hkept, ?_⟩
        rw [hquiet]
        exact fun _ hmem => nomatch hmem
      · generalize hpcb : ({ pcb.recvAck (tcphdr skbuf) with
          recvNext := TcpPcb.nextAfter (TcpPcb.locatePayload skbuf) } : TcpPcb) = received
        have hreceived : Located stackAddr named received.toPcb := by
          rw [← hpcb]
          exact hack
        constructor
        · intro pcb' hpcb'
          rw [← Option.some.inj hpcb']
          exact hreceived
        · intro segment hmem
          rw [acked_append, hquiet] at hmem
          rw [List.mem_singleton.mp hmem]
          exact hreceived.routed_ack _
    · constructor
      · intro pcb' hpcb'
        rw [← Option.some.inj hpcb']
        exact hack
      · exact fun _ hmem => nomatch hmem
  · constructor
    · intro pcb' hpcb'
      rw [hslot] at hpcb'
      cases hpcb'
      exact h
    · exact fun _ hmem => nomatch hmem

end Pcbs

/-- Every PCB of a list that is still there has the property. -/
def EachPcb {P : Type} (Q : P → Prop) (slots : List (Slot P)) : Prop :=
  ∀ i pcb, (slots.getD i .expired).pcb = some pcb → Q pcb

structure AllLocated (named : List SockaddrIn) (d : Daemon) : Prop where
  udp : EachPcb (Located d.stackAddr named) d.stack.udp.pcbs
  tcp : EachPcb (fun pcb => Located d.stackAddr named pcb.toPcb) d.stack.tcp.pcbs

section Steps

theorem mem_toOption_getD {ε α : Type} {x : Except ε (List α)} {a : α}
    (h : a ∈ x.toOption.getD []) : ∃ xs, x = .ok xs ∧ a ∈ xs := by
  rcases x with _ | xs
  · cases h
  · exact ⟨xs, rfl, h⟩

variable {P : Type} {Q : P → Prop} {slots : List (Slot P)} {named : List SockaddrIn}
  {d d' : Daemon}

theorem EachPcb.set (h : EachPcb Q slots) (i : Nat) {slot : Slot P}
    (hslot : ∀ pcb, slot.pcb = some pcb → Q pcb) : EachPcb Q (slots.set i slot) := by
  intro j pcb hpcb
  rcases getD_set_cases slots i j slot .expired with heq | ⟨-, heq⟩
  · rw [heq] at hpcb
    exact h j pcb hpcb
  · rw [heq] at hpcb
    exact hslot pcb hpcb

theorem EachPcb.append (h : EachPcb Q slots) {slot : Slot P}
    (hslot : ∀ pcb, slot.pcb = some pcb → Q pcb) : EachPcb Q (slots ++ [slot]) := by
  intro j pcb hpcb
  rcases getD_append_cases slots slot .expired j with heq | ⟨-, -, heq⟩
  · rw [heq] at hpcb
    exact h j pcb hpcb
  · rw [heq] at hpcb
    exact hslot pcb hpcb

theorem AllLocated.mono (h : AllLocated named d) {named' : List SockaddrIn}
    (hsubset : named ⊆ named') : AllLocated named' d :=
  ⟨fun i pcb hpcb => (h.udp i pcb hpcb).mono hsubset,
    fun i pcb hpcb => (h.tcp i pcb hpcb).mono hsubset⟩

theorem AllLocated.setRRChannel (h : AllLocated named d) (ch : Nat)
    (rr : Option ReqRespChannel) : AllLocated named (d.setRRChannel ch rr) :=
  ⟨h.udp, h.tcp⟩

theorem AllLocated.setUdpSlot (h : AllLocated named d) (i : Nat) {slot : Slot Pcb}
    (hslot : ∀ pcb, slot.pcb = some pcb → Located d.stackAddr named pcb) :
    AllLocated named (d.setUdpSlot i slot) :=
  ⟨h.udp.set i hslot, h.tcp⟩

theorem AllLocated.setTcpSlot (h : AllLocated named d) (i : Nat) {slot : Slot TcpPcb}
    (hslot : ∀ pcb, slot.pcb = some pcb → Located d.stackAddr named pcb.toPcb) :
    AllLocated named (d.setTcpSlot i slot) :=
  ⟨h.udp, h.tcp.set i hslot⟩

theorem AllLocated.release (h : AllLocated named d) (old : Option SocketRef) :
    AllLocated named (d.release old) := by
  rcases old with _ | ⟨_ | _, index⟩
  · exact h
  · exact h.setUdpSlot index fun _ hpcb => nomatch hpcb
  · exact h.setTcpSlot index fun _ hpcb => nomatch hpcb

theorem AllLocated.setSocketAt (h : AllLocated named d) (ref : SocketRef) (so : Socket) :
    AllLocated named (d.setSocketAt ref so) := by
  rcases ref with ⟨_ | _, index⟩
  · exact h.setUdpSlot index (h.udp index)
  · exact h.setTcpSlot index (h.tcp index)

theorem AllLocated.udpCalled (h : AllLocated named d) (i : Nat) (port : UInt16) {pcb : Pcb}
    (hpcb : Located d.stackAddr named pcb) : AllLocated named (udpCalled d i port pcb) := by
  have hset : AllLocated named (d.setUdpSlot i { d.udpSlot i with pcb := some pcb }) := by
    apply h.setUdpSlot
    rintro pcb' ⟨⟩
    exact hpcb
  exact ⟨hset.udp, hset.tcp⟩

theorem AllLocated.tcpCalled (h : AllLocated named d) (i : Nat) (port : UInt16) {pcb : TcpPcb}
    (hpcb : Located d.stackAddr named pcb.toPcb) : AllLocated named (tcpCalled d i port pcb) := by
  have hset : AllLocated named (d.setTcpSlot i { d.tcpSlot i with pcb := some pcb }) := by
    apply h.setTcpSlot
    rintro pcb' ⟨⟩
    exact hpcb
  exact ⟨hset.udp, hset.tcp⟩

theorem pcb_of_udpPcb {i : Nat} {pcb : Pcb} (h : d.udpPcb i = .ok pcb) :
    (d.udpSlot i).pcb = some pcb := by
  unfold Daemon.udpPcb at h
  split at h
  · cases h
  · cases h
    assumption

theorem pcb_of_tcpPcb {i : Nat} {pcb : TcpPcb} (h : d.tcpPcb i = .ok pcb) :
    (d.tcpSlot i).pcb = some pcb := by
  unfold Daemon.tcpPcb at h
  split at h
  · cases h
  · cases h
    assumption

theorem AllLocated.of_udpPcb (h : AllLocated named d) {i : Nat} {pcb : Pcb}
    (hpcb : d.udpPcb i = .ok pcb) : Located d.stackAddr named pcb :=
  h.udp i pcb (pcb_of_udpPcb hpcb)

theorem AllLocated.of_tcpPcb (h : AllLocated named d) {i : Nat} {pcb : TcpPcb}
    (hpcb : d.tcpPcb i = .ok pcb) : Located d.stackAddr named pcb.toPcb :=
  h.tcp i pcb (pcb_of_tcpPcb hpcb)

theorem AllLocated.socketCall {mem : Uninit} {ch : Nat} {domain type : Int32} {resp : Response}
    (hlocated : AllLocated named d) (h : socketCall d mem ch domain type = .ok (d', resp)) :
    AllLocated named d' := by
  unfold RequestHandler.socketCall at h
  split at h
  · cases h
  · split at h
    · cases h
    · dsimp only at h
      split at h
      · cases h
        refine (AllLocated.release ?_ _).setRRChannel ch _
        refine ⟨hlocated.udp, hlocated.tcp.append ?_⟩
        rintro pcb ⟨⟩
        exact located_new _ _
      · cases h
        refine (AllLocated.release ?_ _).setRRChannel ch _
        refine ⟨hlocated.udp.append ?_, hlocated.tcp⟩
        rintro pcb ⟨⟩
        exact located_new _ _

theorem mem_named_connect {addr : List UInt8} (h : namedByRequest (.connectCall addr) ⊆ named)
    {dest : SockaddrIn} (hdest : destAddr addr = .ok dest) : dest ∈ named := by
  apply h
  simp [namedByRequest, hdest, Except.toOption]

theorem mem_named_sendto {buf : List UInt8} {flags : Int32} {addr : List UInt8}
    (h : namedByRequest (.sendtoCall buf flags (some addr)) ⊆ named) {dest : SockaddrIn}
    (hdest : destAddr addr = .ok dest) : dest ∈ named := by
  apply h
  simp [namedByRequest, hdest, Except.toOption]

theorem AllLocated.connectCall (hlocated : AllLocated named d) {ch : Nat} {addr : List UInt8}
    (hnamed : namedByRequest (.connectCall addr) ⊆ named) {resp : Response}
    (h : connectCall d ch addr = .ok (d', resp)) : AllLocated named d' := by
  simp only [RequestHandler.connectCall, bind_eq_ok_iff] at h
  obtain ⟨dest, hdest, ⟨ref, so⟩, -, h⟩ := h
  have hmem := mem_named_connect hnamed hdest
  split at h
  · obtain ⟨pcb, hpcb, ⟨⟩⟩ := bind_eq_ok_iff.mp h
    exact hlocated.udpCalled _ _ ((hlocated.of_udpPcb hpcb).connect _ hmem)
  · split at h
    · cases h
      exact hlocated
    · obtain ⟨pcb, hpcb, ⟨⟩⟩ := bind_eq_ok_iff.mp h
      have hlocatedPcb := hlocated.of_tcpPcb hpcb
      have hcalled : Located d.stackAddr named
          ({ pcb with onConnEstabCB := some ch } : TcpPcb).toPcb := hlocatedPcb
      exact hlocated.tcpCalled _ _ (hcalled.tcp_connect _ hmem).1

theorem AllLocated.sendtoCall (hlocated : AllLocated named d) {ch : Nat} {buf : List UInt8}
    {flags : Int32} {addr : Option (List UInt8)}
    (hnamed : namedByRequest (.sendtoCall buf flags addr) ⊆ named) {resp : Response}
    (h : sendtoCall d ch buf addr = .ok (d', resp)) : AllLocated named d' := by
  obtain ⟨ref, so, -, hexit⟩ := sendtoCall_exit h
  cases hexit with
  | udpSendto _ hdest hpcb hsent =>
      have hmem := mem_named_sendto hnamed hdest
      rw [hsent]
      exact hlocated.udpCalled _ _ ((hlocated.of_udpPcb hpcb).udp_sendto _ hmem buf).1
  | udpSend _ hpcb hsent =>
      rw [hsent]
      exact hlocated.udpCalled _ _ ((hlocated.of_udpPcb hpcb).udp_send _ buf).1
  | tcpSend _ hpcb hsent =>
      rw [hsent]
      exact hlocated.tcpCalled _ _ ((hlocated.of_tcpPcb hpcb).tcp_send _ buf).1

theorem AllLocated.handleRequest (hlocated : AllLocated named d) {mem : Uninit} {ch : Nat}
    {req : Request} (hnamed : namedByRequest req.calling ⊆ named) {resp : Response}
    (h : handleRequest d mem ch req = .ok (d', resp)) : AllLocated named d' := by
  unfold RequestHandler.handleRequest at h
  generalize req.calling = calling at h hnamed
  cases calling with
  | socketCall domain type protocol => exact hlocated.socketCall h
  | connectCall addr => exact hlocated.connectCall hnamed h
  | recvfromCall len flags requireAddr =>
      simp only [recvfromCall, bind_eq_ok_iff] at h
      obtain ⟨⟨ref, so⟩, -, ⟨so', _⟩, -, ⟨⟩⟩ := h
      exact hlocated.setSocketAt ref so'
  | sendtoCall buf flags addr => exact hlocated.sendtoCall hnamed h
  | getpeernameCall =>
      obtain ⟨_, -, ⟨⟩⟩ := bind_eq_ok_iff.mp h
      exact hlocated
  | getsocknameCall =>
      obtain ⟨_, -, ⟨⟩⟩ := bind_eq_ok_iff.mp h
      exact hlocated
  | atstartAction progname =>
      cases h
      exact hlocated.setRRChannel ch _
  | _ =>
      cases h
      exact hlocated

theorem routed_sentByConnect (hlocated : AllLocated named d) {ch : Nat} {addr : List UInt8}
    (hnamed : namedByRequest (.connectCall addr) ⊆ named) :
    ∀ packet ∈ sentByConnect d ch addr, Routed d.stackAddr named packet := by
  intro packet hmem
  unfold sentByConnect at hmem
  split at hmem
  · rename_i ref so hsocket
    split at hmem
    · cases hmem
    · obtain ⟨segment, hsegment, rfl⟩ := List.mem_map.mp hmem
      obtain ⟨sent, hsent, hsegment⟩ := mem_toOption_getD hsegment
      simp only [emittedByConnect, hsocket, bind_eq_ok_iff] at hsent
      obtain ⟨dest, hdest, _, ⟨⟩, hsent⟩ := hsent
      split at hsent
      · cases hsent
        cases hsegment
      · obtain ⟨pcb, hpcb, ⟨⟩⟩ := bind_eq_ok_iff.mp hsent
        have hlocatedPcb := hlocated.of_tcpPcb hpcb
        have hcalled : Located d.stackAddr named
            ({ pcb with onConnEstabCB := some ch } : TcpPcb).toPcb := hlocatedPcb
        exact (hcalled.tcp_connect _ (mem_named_connect hnamed hdest)).2 segment
          (Option.mem_toList.mp hsegment)
  · cases hmem

theorem routed_emittedTo (hlocated : AllLocated named d) {ch : Nat} {buf : List UInt8}
    {flags : Int32} {addr : Option (List UInt8)}
    (hnamed : namedByRequest (.sendtoCall buf flags addr) ⊆ named) {sent : List Packet}
    (h : emittedTo d ch buf addr = .ok sent) :
    ∀ packet ∈ sent, Routed d.stackAddr named packet := by
  simp only [emittedTo, bind_eq_ok_iff] at h
  obtain ⟨⟨ref, so⟩, -, h⟩ := h
  split at h
  · split at h
    · obtain ⟨dest, hdest, h⟩ := bind_eq_ok_iff.mp h
      obtain ⟨pcb, hpcb, ⟨⟩⟩ := bind_eq_ok_iff.mp h
      intro packet hmem
      rw [List.mem_singleton.mp hmem]
      exact ((hlocated.of_udpPcb hpcb).udp_sendto _ (mem_named_sendto hnamed hdest) buf).2
    · obtain ⟨pcb, hpcb, ⟨⟩⟩ := bind_eq_ok_iff.mp h
      intro packet hmem
      rw [List.mem_singleton.mp hmem]
      exact ((hlocated.of_udpPcb hpcb).udp_send _ buf).2
  · obtain ⟨pcb, hpcb, ⟨⟩⟩ := bind_eq_ok_iff.mp h
    intro packet hmem
    obtain ⟨segment, hsegment, rfl⟩ := List.mem_map.mp
      (by simpa only [Option.toList_map] using hmem)
    exact ((hlocated.of_tcpPcb hpcb).tcp_send _ buf).2 segment (Option.mem_toList.mp hsegment)

theorem routed_sentByRequest (hlocated : AllLocated named d) (ch : Nat) {calling : Calling}
    (hnamed : namedByRequest calling ⊆ named) :
    ∀ packet ∈ sentByRequest d ch calling, Routed d.stackAddr named packet := by
  intro packet hmem
  cases calling with
  | connectCall addr => exact routed_sentByConnect hlocated hnamed packet hmem
  | sendtoCall buf flags addr =>
      obtain ⟨sent, hsent, hpacket⟩ := mem_toOption_getD hmem
      exact routed_emittedTo hlocated hnamed hsent packet hpacket
  | _ => cases hmem

/-- A packet leaves the PCBs where they are, and is answered by its receiver only. -/
structure RxLocated (named : List SockaddrIn) (d : Daemon) (st : Stack) (events : List Event) :
    Prop where
  located : AllLocated named { d with stack := st }
  acks : ∀ segment ∈ acked events, Routed d.stackAddr named (.tcp segment)

theorem rxLocated_of_pcbs_eq (hlocated : AllLocated named d) {st : Stack} {events : List Event}
    (hudp : st.udp.pcbs = d.stack.udp.pcbs) (htcp : st.tcp.pcbs = d.stack.tcp.pcbs)
    (hquiet : acked events = []) : RxLocated named d st events := by
  refine ⟨⟨?_, ?_⟩, ?_⟩
  · intro i pcb hpcb
    rw [hudp] at hpcb
    exact hlocated.udp i pcb hpcb
  · intro i pcb hpcb
    rw [htcp] at hpcb
    exact hlocated.tcp i pcb hpcb
  · rw [hquiet]
    exact fun _ hmem => nomatch hmem

theorem udp_rx_located (hlocated : AllLocated named d) (uninit : SockaddrIn)
    (skbuf : SocketBuffer) (next : List SocketBuffer) :
    RxLocated named d { d.stack with udp := (d.stack.udp.rx uninit skbuf next).1 }
      (d.stack.udp.rx uninit skbuf next).2 := by
  unfold Udp.rx
  dsimp only
  split
  · exact rxLocated_of_pcbs_eq hlocated rfl rfl rfl
  · rename_i i _
    refine ⟨⟨hlocated.udp.set i ?_, hlocated.tcp⟩, ?_⟩
    · intro pcb hpcb
      unfold UdpPcb.recv at hpcb
      rw [pcb_deliver] at hpcb
      exact hlocated.udp i pcb hpcb
    · intro segment hmem
      have hquiet := acked_deliver (d.stack.udp.pcbs.getD i .expired)
        (DeliveryIsolation.peeraddr uninit skbuf) (UdpPcb.locatePayload skbuf) next
      replace hmem : segment ∈ acked ((d.stack.udp.pcbs.getD i .expired).deliver
        (DeliveryIsolation.peeraddr uninit skbuf) (UdpPcb.locatePayload skbuf) next).2 := hmem
      rw [hquiet] at hmem
      cases hmem

theorem tcp_rx_located (hlocated : AllLocated named d) (uninit : SockaddrIn)
    (skbuf : SocketBuffer) (next : List SocketBuffer) :
    RxLocated named d { d.stack with tcp := (d.stack.tcp.rx uninit skbuf next).1 }
      (d.stack.tcp.rx uninit skbuf next).2 := by
  unfold Tcp.rx
  dsimp only
  split
  · exact rxLocated_of_pcbs_eq hlocated rfl rfl rfl
  · rename_i i _
    split
    · exact rxLocated_of_pcbs_eq hlocated rfl rfl rfl
    · rename_i pcb hpcb
      obtain ⟨hkept, hacks⟩ := (hlocated.tcp i pcb hpcb).tcp_recv hpcb uninit skbuf next
      exact ⟨⟨hlocated.udp, hlocated.tcp.set i hkept⟩, hacks⟩

theorem demultiplex_located (hlocated : AllLocated named d) (uninit : SockaddrIn)
    (hdr : IpHeader) (skbuf : SocketBuffer) (next : List SocketBuffer) :
    RxLocated named d (demultiplex d.stack uninit hdr skbuf next).1
      (demultiplex d.stack uninit hdr skbuf next).2 := by
  unfold demultiplex
  dsimp only
  split
  · obtain ⟨hstack, hacks⟩ :=
      udp_rx_located hlocated uninit (locateTransport hdr.ihl skbuf) next
    exact ⟨hstack, hacks⟩
  · obtain ⟨hstack, hacks⟩ :=
      tcp_rx_located hlocated uninit (locateTransport hdr.ihl skbuf) next
    exact ⟨hstack, hacks⟩
  · exact rxLocated_of_pcbs_eq hlocated rfl rfl rfl

theorem rx_located (hlocated : AllLocated named d) (uninit : SockaddrIn) (skbuf : SocketBuffer) :
    RxLocated named d (rx d.stack uninit skbuf).1 (rx d.stack uninit skbuf).2 := by
  unfold rx
  dsimp only
  split
  · exact rxLocated_of_pcbs_eq hlocated rfl rfl rfl
  · split
    · exact rxLocated_of_pcbs_eq hlocated rfl rfl rfl
    · split
      · split
        · exact rxLocated_of_pcbs_eq hlocated rfl rfl rfl
        · exact rxLocated_of_pcbs_eq hlocated rfl rfl rfl
        · rename_i defrager packet next _
          have hlocated' : AllLocated named { d with stack.defrager := defrager } :=
            ⟨hlocated.udp, hlocated.tcp⟩
          obtain ⟨hstack, hacks⟩ :=
            demultiplex_located hlocated' uninit (iphdr skbuf) packet next
          exact ⟨hstack, hacks⟩
      · exact demultiplex_located hlocated uninit _ skbuf []

theorem namedBy_singleton (calling : Calling) : namedBy [calling] = namedByRequest calling :=
  List.flatMap_singleton _ _

theorem routed_sentBy (hlocated : AllLocated named d) {a : Label}
    (hnamed : namedBy (requestedBy a) ⊆ named) :
    ∀ packet ∈ sentBy (.running d) a, Routed d.stackAddr named packet := by
  intro packet hmem
  cases a with
  | read mem ch result writeFails =>
      cases result with
      | message req =>
          rw [requestedBy, namedBy_singleton] at hnamed
          exact routed_sentByRequest hlocated ch hnamed packet hmem
      | _ => cases hmem
  | rx uninit skbuf =>
      obtain ⟨segment, hsegment, rfl⟩ := List.mem_map.mp hmem
      exact (rx_located hlocated uninit skbuf).acks segment hsegment
  | _ => cases hmem

theorem next_located (hlocated : AllLocated named d) {a : Label}
    (hnamed : namedBy (requestedBy a) ⊆ named)
    (hnext : DaemonSurvival.next (.running d) a = some (.running d')) :
    AllLocated named d' := by
  cases next_exit hnext with
  | accept => exact ⟨hlocated.udp, hlocated.tcp⟩
  | read _ hread =>
      cases onReadReady_exit hread with
      | again => exact hlocated
      | eof => exact (hlocated.release _).setRRChannel _ _
      | written hcall =>
          rw [requestedBy, namedBy_singleton] at hnamed
          exact hlocated.handleRequest hnamed hcall
      | unwritten hcall =>
          rw [requestedBy, namedBy_singleton] at hnamed
          exact (hlocated.handleRequest hnamed hcall).setRRChannel _ _
  | hangUp => exact (hlocated.release _).setRRChannel _ _
  | rx uninit skbuf => exact (rx_located hlocated uninit skbuf).located
  | notified => exact hlocated.setSocketAt _ _

end Steps

section Payloads

variable {d : Daemon}

theorem buf_tcp_send {port : UInt16} {pcb : TcpPcb} {buf : List UInt8} {segment : TcpSegment}
    (h : (TcpPcb.send port pcb buf).2.2.2 = some segment) : segment.buf = buf := by
  unfold TcpPcb.send at h
  dsimp only at h
  split at h
  · cases h
    rfl
  · cases h
    rfl
  · cases h

theorem offered_sentByConnect {ch : Nat} {addr : List UInt8} (requests : List Calling) :
    ∀ packet ∈ sentByConnect d ch addr, Offered requests packet := by
  intro packet hmem
  unfold sentByConnect at hmem
  split at hmem
  · rename_i ref so hsocket
    split at hmem
    · cases hmem
    · obtain ⟨segment, hsegment, rfl⟩ := List.mem_map.mp hmem
      obtain ⟨sent, hsent, hsegment⟩ := mem_toOption_getD hsegment
      simp only [emittedByConnect, hsocket, bind_eq_ok_iff] at hsent
      obtain ⟨dest, -, _, ⟨⟩, hsent⟩ := hsent
      split at hsent
      · cases hsent
        cases hsegment
      · obtain ⟨pcb, -, ⟨⟩⟩ := bind_eq_ok_iff.mp hsent
        exact .inl (buf_tcp_send (Option.mem_toList.mp hsegment))
  · cases hmem

theorem offered_emittedTo {ch : Nat} {buf : List UInt8} {addr : Option (List UInt8)}
    {requests : List Calling} (hbuf : IsOffered requests buf) {sent : List Packet}
    (h : emittedTo d ch buf addr = .ok sent) : ∀ packet ∈ sent, Offered requests packet := by
  simp only [emittedTo, bind_eq_ok_iff] at h
  obtain ⟨⟨ref, so⟩, -, h⟩ := h
  split at h
  · split at h
    · obtain ⟨dest, -, h⟩ := bind_eq_ok_iff.mp h
      obtain ⟨pcb, -, ⟨⟩⟩ := bind_eq_ok_iff.mp h
      intro packet hmem
      rw [List.mem_singleton.mp hmem]
      exact hbuf
    · obtain ⟨pcb, -, ⟨⟩⟩ := bind_eq_ok_iff.mp h
      intro packet hmem
      rw [List.mem_singleton.mp hmem]
      exact hbuf
  · obtain ⟨pcb, -, ⟨⟩⟩ := bind_eq_ok_iff.mp h
    intro packet hmem
    obtain ⟨segment, hsegment, rfl⟩ := List.mem_map.mp
      (by simpa only [Option.toList_map] using hmem)
    right
    rw [buf_tcp_send (Option.mem_toList.mp hsegment)]
    exact hbuf

/-- Every acknowledgment is empty. -/
theorem buf_acked {slot : Slot TcpPcb} {pcb : TcpPcb} {peerAddr : SockaddrIn}
    {skbuf : SocketBuffer} {next : List SocketBuffer} :
    ∀ segment ∈ acked (TcpPcb.recv slot pcb peerAddr skbuf next).2, segment.buf = [] := by
  have hquiet := acked_deliver slot peerAddr (TcpPcb.locatePayload skbuf) next
  intro segment hmem
  unfold TcpPcb.recv at hmem
  split at hmem
  · rw [acked_recvSynSent hmem]
    rfl
  · dsimp only at hmem
    split at hmem
    · split at hmem
      · rw [hquiet] at hmem
        cases hmem
      · rw [acked_append, hquiet] at hmem
        rw [List.mem_singleton.mp hmem]
        rfl
    · cases hmem
  · cases hmem

theorem buf_acked_demultiplex {st : Stack} {uninit : SockaddrIn} {hdr : IpHeader}
    {skbuf : SocketBuffer} {next : List SocketBuffer} :
    ∀ segment ∈ acked (demultiplex st uninit hdr skbuf next).2, segment.buf = [] := by
  intro segment hmem
  unfold demultiplex at hmem
  dsimp only at hmem
  split at hmem
  · have hudp : ∀ segment ∈ acked (st.udp.rx uninit (locateTransport hdr.ihl skbuf) next).2,
        segment.buf = [] := by
      intro segment hmem
      unfold Udp.rx at hmem
      dsimp only at hmem
      split at hmem
      · cases hmem
      · rename_i i _
        have hquiet := acked_deliver (st.udp.pcbs.getD i .expired)
          (DeliveryIsolation.peeraddr uninit (locateTransport hdr.ihl skbuf))
          (UdpPcb.locatePayload (locateTransport hdr.ihl skbuf)) next
        replace hmem : segment ∈ acked ((st.udp.pcbs.getD i .expired).deliver
          (DeliveryIsolation.peeraddr uninit (locateTransport hdr.ihl skbuf))
          (UdpPcb.locatePayload (locateTransport hdr.ihl skbuf)) next).2 := hmem
        rw [hquiet] at hmem
        cases hmem
    exact hudp segment hmem
  · have htcp : ∀ segment ∈ acked (st.tcp.rx uninit (locateTransport hdr.ihl skbuf) next).2,
        segment.buf = [] := by
      intro segment hmem
      unfold Tcp.rx at hmem
      dsimp only at hmem
      split at hmem
      · cases hmem
      · split at hmem
        · cases hmem
        · exact buf_acked segment hmem
    exact htcp segment hmem
  · cases hmem

theorem buf_acked_rx {st : Stack} {uninit : SockaddrIn} {skbuf : SocketBuffer} :
    ∀ segment ∈ acked (rx st uninit skbuf).2, segment.buf = [] := by
  intro segment hmem
  unfold rx at hmem
  dsimp only at hmem
  split at hmem
  · cases hmem
  · split at hmem
    · cases hmem
    · split at hmem
      · split at hmem
        · cases hmem
        · cases hmem
        · exact buf_acked_demultiplex segment hmem
      · exact buf_acked_demultiplex segment hmem

theorem offered_sentBy (d : Daemon) {a : Label} {requests : List Calling}
    (hrequests : requestedBy a ⊆ requests) :
    ∀ packet ∈ sentBy (.running d) a, Offered requests packet := by
  intro packet hmem
  cases a with
  | read mem ch result writeFails =>
      cases result with
      | message req =>
          replace hmem : packet ∈ sentByRequest d ch req.calling := hmem
          have hcalling : req.calling ∈ requests := hrequests (List.mem_singleton.mpr rfl)
          generalize req.calling = calling at hmem hcalling
          cases calling with
          | connectCall addr => exact offered_sentByConnect requests packet hmem
          | sendtoCall buf flags addr =>
              obtain ⟨sent, hsent, hpacket⟩ := mem_toOption_getD hmem
              exact offered_emittedTo ⟨flags, addr, hcalling⟩ hsent packet hpacket
          | _ => cases hmem
      | _ => cases hmem
  | rx uninit skbuf =>
      obtain ⟨segment, hsegment, rfl⟩ := List.mem_map.mp hmem
      exact .inl (buf_acked_rx segment hsegment)
  | _ => cases hmem

end Payloads

end MuQuinet.OutgoingPackets
