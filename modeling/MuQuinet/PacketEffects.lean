import MuQuinet.DeliveryIsolation
import MuQuinet.HandlerEffects
import MuQuinet.TcpIntegrity

namespace MuQuinet.PacketEffects

open MuQuinet.Lib.Populations.Population (getD_set_cases)
open MuQuinet.Buffers
open MuQuinet.DeliveryIsolation
open MuQuinet.HandlerEffects
open MuQuinet.IpHeaders
open MuQuinet.IpLayer
open MuQuinet.Pcbs
open MuQuinet.RequestHandler
open MuQuinet.Sockets
open MuQuinet.TcpIntegrity
open MuQuinet.TcpLayer
open MuQuinet.UdpLayer
open MuQuinet.Wire

/-- The channels whose connection a packet establishes, in the order of the callbacks. -/
def estabs (events : List Event) : List Nat :=
  events.filterMap fun
    | .onConnEstab rrChannel => some rrChannel
    | _ => none

/-- A socket keeps all but what the receive path puts into it. -/
inductive SocketEffect : Option Socket → Option Socket → Prop
  | unchanged (socket : Option Socket) : SocketEffect socket socket
  | put (so : Socket) (peeraddr : SockaddrIn) (skbuf : List SocketBuffer) :
      SocketEffect (some so) (some (so.putToRecvQ peeraddr skbuf))

/-- A segment leaves the connection state alone, or establishes the connection. -/
inductive PcbEffect : Option TcpPcb → Option TcpPcb → Prop
  | unchanged {pcb pcb' : Option TcpPcb} :
      pcb'.map TcpPcb.connState = pcb.map TcpPcb.connState →
      pcb'.map TcpPcb.onConnEstabCB = pcb.map TcpPcb.onConnEstabCB → PcbEffect pcb pcb'
  | established {pcb pcb' : TcpPcb} : pcb.connState = .SYN_SENT → pcb'.connState = .ESTABLISHED →
      pcb'.onConnEstabCB = pcb.onConnEstabCB → PcbEffect (some pcb) (some pcb')

theorem SocketEffect.deliver {P : Type} (slot : Slot P) (peeraddr : SockaddrIn)
    (skbuf : SocketBuffer) (next : List SocketBuffer) :
    SocketEffect slot.socket (slot.deliver peeraddr skbuf next).1.socket := by
  unfold Slot.deliver
  rcases hsocket : slot.socket with _ | so
  · rw [hsocket]
    exact .unchanged none
  · exact .put so peeraddr (skbuf :: next)

theorem pcb_deliver {P : Type} (slot : Slot P) (peeraddr : SockaddrIn) (skbuf : SocketBuffer)
    (next : List SocketBuffer) : (slot.deliver peeraddr skbuf next).1.pcb = slot.pcb := by
  unfold Slot.deliver
  split <;> rfl

theorem estabs_deliver {P : Type} (slot : Slot P) (peeraddr : SockaddrIn) (skbuf : SocketBuffer)
    (next : List SocketBuffer) : estabs (slot.deliver peeraddr skbuf next).2 = [] := by
  unfold Slot.deliver
  split
  · rfl
  · split <;> rfl

/-- What `TcpPcb::recv` does to an element of the list, and the callbacks it runs. -/
structure RecvEffect (slot slot' : Slot TcpPcb) (events : List Event) : Prop where
  socket : SocketEffect slot.socket slot'.socket
  pcb : PcbEffect slot.pcb slot'.pcb
  establishes : ∀ rrChannel ∈ estabs events, estabs events = [rrChannel] ∧ ∃ pcb pcb',
    slot.pcb = some pcb ∧ pcb.connState = .SYN_SENT ∧ pcb.onConnEstabCB = some rrChannel ∧
      slot'.pcb = some pcb' ∧ pcb'.connState = .ESTABLISHED

theorem RecvEffect.of_quiet {slot slot' : Slot TcpPcb} {events : List Event}
    (hsocket : SocketEffect slot.socket slot'.socket) (hpcb : PcbEffect slot.pcb slot'.pcb)
    (hquiet : estabs events = []) : RecvEffect slot slot' events := by
  refine ⟨hsocket, hpcb, ?_⟩
  intro rrChannel hmem
  rw [hquiet] at hmem
  cases hmem

theorem PcbEffect.of_eq {pcb pcb' : TcpPcb} (hconnState : pcb'.connState = pcb.connState)
    (hcb : pcb'.onConnEstabCB = pcb.onConnEstabCB) : PcbEffect (some pcb) (some pcb') :=
  .unchanged (congrArg some hconnState) (congrArg some hcb)

theorem estabs_recvSynSent (pcb : TcpPcb) (hdr : TcpHeader) :
    estabs (pcb.recvSynSent hdr).2 = pcb.onConnEstabCB.toList := by
  unfold TcpPcb.recvSynSent
  cases pcb.onConnEstabCB <;> cases hdr.syn && hdr.ack <;> rfl

theorem estabs_append (events events' : List Event) :
    estabs (events ++ events') = estabs events ++ estabs events' :=
  List.filterMap_append

theorem recvAck_onConnEstabCB (pcb : TcpPcb) (hdr : TcpHeader) :
    (pcb.recvAck hdr).onConnEstabCB = pcb.onConnEstabCB := by
  unfold TcpPcb.recvAck
  split <;> rfl

theorem recv_effect {slot : Slot TcpPcb} {pcb : TcpPcb} (hpcb : slot.pcb = some pcb)
    (peerAddr : SockaddrIn) (skbuf : SocketBuffer) (next : List SocketBuffer) :
    RecvEffect slot (TcpPcb.recv slot pcb peerAddr skbuf next).1
      (TcpPcb.recv slot pcb peerAddr skbuf next).2 := by
  unfold TcpPcb.recv
  split
  · rename_i hsynSent
    refine ⟨.unchanged _, ?_, ?_⟩
    · rw [hpcb]
      exact .established hsynSent rfl rfl
    · intro rrChannel hmem
      rw [estabs_recvSynSent, Option.mem_toList] at hmem
      refine ⟨?_, pcb, _, hpcb, hsynSent, hmem, rfl, rfl⟩
      rw [estabs_recvSynSent, hmem, Option.toList_some]
  · rename_i hestab
    have hack : PcbEffect slot.pcb (some (pcb.recvAck (tcphdr skbuf))) := by
      rw [hpcb]
      exact .of_eq (recvAck_connState _ _) (recvAck_onConnEstabCB _ _)
    have hdeliver := SocketEffect.deliver slot peerAddr (TcpPcb.locatePayload skbuf) next
    have hquiet := estabs_deliver slot peerAddr (TcpPcb.locatePayload skbuf) next
    dsimp only
    split
    · split
      · refine .of_quiet hdeliver ?_ hquiet
        rw [pcb_deliver]
        exact .unchanged rfl rfl
      · refine .of_quiet hdeliver ?_ ?_
        · rw [hpcb]
          exact .of_eq (recvAck_connState _ _) (recvAck_onConnEstabCB _ _)
        · rw [estabs_append, hquiet]
          rfl
    · exact .of_quiet (.unchanged _) hack rfl
  · exact .of_quiet (.unchanged _) (.unchanged rfl rfl) rfl

/-- What the IP thread does to the daemon when it takes a packet from `rxQ`. -/
structure RxEffects (d d' : Daemon) (events : List Event) : Prop where
  rrChannels_eq : d'.rrChannels = d.rrChannels
  udp : ∀ i, SocketEffect (d.udpSlot i).socket (d'.udpSlot i).socket
  tcp : ∀ i, SocketEffect (d.tcpSlot i).socket (d'.tcpSlot i).socket
  pcb : ∀ i, PcbEffect (d.tcpSlot i).pcb (d'.tcpSlot i).pcb
  establishes : ∀ rrChannel ∈ estabs events, estabs events = [rrChannel] ∧ ∃ i pcb pcb',
    receivers events = [i] ∧ (d.tcpSlot i).pcb = some pcb ∧ pcb.connState = .SYN_SENT ∧
      pcb.onConnEstabCB = some rrChannel ∧ (d'.tcpSlot i).pcb = some pcb' ∧
        pcb'.connState = .ESTABLISHED

theorem rxEffects_of_tcp_eq {d : Daemon} {stack : Stack} {events : List Event}
    (htcp : stack.tcp = d.stack.tcp)
    (hudp : ∀ i, SocketEffect (d.udpSlot i).socket (stack.udp.pcbs.getD i .expired).socket)
    (hquiet : estabs events = []) : RxEffects d { d with stack := stack } events := by
  have hslot : ∀ i, Daemon.tcpSlot { d with stack := stack } i = d.tcpSlot i := by
    intro i
    rw [Daemon.tcpSlot, htcp, Daemon.tcpSlot]
  refine ⟨rfl, hudp, ?_, ?_, ?_⟩
  · intro i
    rw [hslot]
    exact .unchanged _
  · intro i
    rw [hslot]
    exact .unchanged rfl rfl
  · intro rrChannel hmem
    rw [hquiet] at hmem
    cases hmem

theorem udp_rx_effects (udp : Udp) (uninit : SockaddrIn) (skbuf : SocketBuffer)
    (next : List SocketBuffer) :
    (∀ i, SocketEffect (udp.pcbs.getD i .expired).socket
      ((udp.rx uninit skbuf next).1.pcbs.getD i .expired).socket) ∧
      estabs (udp.rx uninit skbuf next).2 = [] := by
  unfold Udp.rx
  dsimp only
  split
  · exact ⟨fun _ => .unchanged _, rfl⟩
  · rename_i i hfind
    generalize hpeer : ({ uninit with
      sinFamily := UdpLayer.AF_INET
      sinPort := (Udp.fourTuple skbuf).fport
      sinAddr := (Udp.fourTuple skbuf).faddr } : SockaddrIn) = peeraddr
    constructor
    · intro j
      rcases getD_set_cases udp.pcbs i j
        (UdpPcb.recv (udp.pcbs.getD i .expired) peeraddr skbuf next).1 .expired with
        heq | ⟨rfl, heq⟩
      · rw [heq]
        exact .unchanged _
      · rw [heq]
        exact .deliver _ _ _ _
    · exact estabs_deliver _ _ _ _

theorem getD_set_self {P : Type} {pcbs : List (Slot P)} {i : Nat} {pcb : P}
    (h : (pcbs.getD i .expired).pcb = some pcb) (slot : Slot P) :
    (pcbs.set i slot).getD i .expired = slot := by
  have hlt : i < pcbs.length := by
    by_contra hge
    rw [List.getD_eq_default _ _ (Nat.not_lt.mp hge)] at h
    cases h
  simp [hlt]

theorem tcp_rx_effects (d : Daemon) (uninit : SockaddrIn) (skbuf : SocketBuffer)
    (next : List SocketBuffer) :
    RxEffects d { d with stack.tcp := (d.stack.tcp.rx uninit skbuf next).1 }
      (d.stack.tcp.rx uninit skbuf next).2 := by
  unfold Tcp.rx
  dsimp only
  split
  · exact rxEffects_of_tcp_eq rfl (fun _ => .unchanged _) rfl
  · rename_i i hfind
    split
    · exact rxEffects_of_tcp_eq rfl (fun _ => .unchanged _) rfl
    · rename_i pcb hpcb
      obtain ⟨hsocket, hrecvPcb, hestabs⟩ := recv_effect hpcb uninit skbuf next
      have hself := getD_set_self hpcb
        (TcpPcb.recv (d.stack.tcp.pcbs.getD i .expired) pcb uninit skbuf next).1
      have hinternal := internal_tcp_recv (d.stack.tcp.pcbs.getD i .expired) pcb uninit skbuf next
      generalize TcpPcb.recv (d.stack.tcp.pcbs.getD i .expired) pcb uninit skbuf next = recv at *
      refine ⟨rfl, fun _ => .unchanged _, ?_, ?_, ?_⟩
      · intro j
        rcases getD_set_cases d.stack.tcp.pcbs i j recv.1 .expired with heq | ⟨rfl, heq⟩
        · simp only [Daemon.tcpSlot, heq]
          exact .unchanged _
        · simp only [Daemon.tcpSlot, heq]
          exact hsocket
      · intro j
        rcases getD_set_cases d.stack.tcp.pcbs i j recv.1 .expired with heq | ⟨rfl, heq⟩
        · simp only [Daemon.tcpSlot, heq]
          exact .unchanged rfl rfl
        · simp only [Daemon.tcpSlot, heq]
          exact hrecvPcb
      · intro rrChannel hmem
        obtain ⟨hestab, pcb, pcb', hslot, hsynSent, hcb, hpcb', hestablished⟩ :=
          hestabs rrChannel hmem
        refine ⟨hestab, i, pcb, pcb', ?_, hslot, hsynSent, hcb, ?_, hestablished⟩
        · exact congrArg (i :: ·) hinternal.receivers_eq_nil
        · rw [← hpcb', Daemon.tcpSlot, hself]

theorem RxEffects.of_events {d d' : Daemon} {events events' : List Event}
    (h : RxEffects d d' events)
    (hestabs : estabs events' = estabs events) (hreceivers : receivers events' = receivers events) :
    RxEffects d d' events' := by
  refine ⟨h.rrChannels_eq, h.udp, h.tcp, h.pcb, ?_⟩
  rw [hestabs, hreceivers]
  exact h.establishes

theorem demultiplex_effects (d : Daemon) (uninit : SockaddrIn) (hdr : IpHeader)
    (skbuf : SocketBuffer) (next : List SocketBuffer) :
    RxEffects d { d with stack := (demultiplex d.stack uninit hdr skbuf next).1 }
      (demultiplex d.stack uninit hdr skbuf next).2 := by
  unfold demultiplex
  dsimp only
  split
  · obtain ⟨hudp, hquiet⟩ := udp_rx_effects d.stack.udp uninit (locateTransport hdr.ihl skbuf) next
    exact rxEffects_of_tcp_eq rfl hudp hquiet
  · exact (tcp_rx_effects d uninit (locateTransport hdr.ihl skbuf) next).of_events rfl rfl
  · exact rxEffects_of_tcp_eq rfl (fun _ => .unchanged _) rfl

/-- A packet changes no more than one connection, and runs the callback of no
connection but one that it establishes. -/
theorem rx_effects (d : Daemon) (uninit : SockaddrIn) (skbuf : SocketBuffer) :
    RxEffects d { d with stack := (rx d.stack uninit skbuf).1 } (rx d.stack uninit skbuf).2 := by
  unfold rx
  dsimp only
  split
  · exact rxEffects_of_tcp_eq rfl (fun _ => .unchanged _) rfl
  · split
    · exact rxEffects_of_tcp_eq rfl (fun _ => .unchanged _) rfl
    · split
      · split
        · exact rxEffects_of_tcp_eq rfl (fun _ => .unchanged _) rfl
        · exact rxEffects_of_tcp_eq rfl (fun _ => .unchanged _) rfl
        · rename_i defrager packet next _
          obtain ⟨hrrChannels, hudp, htcp, hpcb, hestabs⟩ :=
            demultiplex_effects { d with stack.defrager := defrager } uninit _ packet next
          exact ⟨hrrChannels, hudp, htcp, hpcb, hestabs⟩
      · exact demultiplex_effects d uninit _ skbuf []

end MuQuinet.PacketEffects
