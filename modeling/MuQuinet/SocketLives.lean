import MuQuinet.AddressLeak
import MuQuinet.ConnectAnswers
import MuQuinet.HandlerEffects
import MuQuinet.Lib.Populations
import MuQuinet.TcpConnections
import MuQuinet.UdpEndpoints

namespace MuQuinet.SocketLives

open MuQuinet.Lib.Machines
open MuQuinet.Lib.Outcomes
open MuQuinet.Lib.Populations
open MuQuinet.Lib.Populations.Population
open MuQuinet.AddressLeak (sampleLabels sampleStart sampleStart_initial)
open MuQuinet.Buffers
open MuQuinet.ChannelSockets
open MuQuinet.ConnectAnswers (sampleAddr sampleSynSent)
open MuQuinet.DaemonSurvival
open MuQuinet.DefragRuns
open MuQuinet.DeliveryIsolation
open MuQuinet.HandlerEffects
open MuQuinet.IpHeaders
open MuQuinet.IpLayer
open MuQuinet.Pcbs
open MuQuinet.PeerlessSends (sampleTcp)
open MuQuinet.RequestHandler
open MuQuinet.Rpc
open MuQuinet.Sockets
open MuQuinet.TcpConnections (Connection pcbAfter recv_eq)
open MuQuinet.TcpLayer
open MuQuinet.UdpEndpoints (Endpoint EntryAddressed)
open MuQuinet.UdpLayer
open MuQuinet.Wire

theorem connection_slot_injective : Function.Injective Connection.slot := by
  rintro ⟨pcb, so⟩ ⟨pcb', so'⟩ h
  cases h
  rfl

/-- The elements of the list of `TcpPcb`s. -/
def connections : Population Connection (Slot TcpPcb) TcpConnections.Label where
  machine := TcpConnections.machine
  element := Connection.slot
  gone := .expired
  element_injective := connection_slot_injective
  element_ne_gone _ := fun h => nomatch congrArg Slot.pcb h

/-- The elements of the list of `UdpPcb`s. -/
def endpoints (stackAddr : UInt32) : Population Endpoint (Slot Pcb) UdpEndpoints.Label where
  machine := UdpEndpoints.machine stackAddr
  element := Endpoint.slot
  gone := .expired
  element_injective := UdpEndpoints.slot_injective
  element_ne_gone := UdpEndpoints.slot_ne_expired

/-- A step of the daemon, as one of its PCBs and their sockets. -/
structure PcbsStep (d d' : Daemon) : Prop where
  udp : (endpoints d.stackAddr).Step d.stack.udp.pcbs d'.stack.udp.pcbs
  tcp : connections.Step d.stack.tcp.pcbs d'.stack.tcp.pcbs
  stackAddr_eq : d'.stackAddr = d.stackAddr

structure PcbsLive (d : Daemon) : Prop where
  udp : (endpoints d.stackAddr).AllLive d.stack.udp.pcbs
  tcp : connections.AllLive d.stack.tcp.pcbs

section Steps

variable {d d' : Daemon}

theorem PcbsStep.refl (d : Daemon) : PcbsStep d d :=
  ⟨.refl _, .refl _, rfl⟩

theorem PcbsStep.setRRChannel (h : PcbsStep d d') (ch : Nat) (rr : Option ReqRespChannel) :
    PcbsStep d (d'.setRRChannel ch rr) :=
  ⟨h.udp, h.tcp, h.stackAddr_eq⟩

theorem PcbsStep.release (h : PcbsStep d d') (old : Option SocketRef) :
    PcbsStep d (d'.release old) := by
  rcases old with _ | ⟨_ | _, index⟩
  · exact h
  · exact ⟨h.udp.close index, h.tcp, h.stackAddr_eq⟩
  · exact ⟨h.udp, h.tcp.close index, h.stackAddr_eq⟩

theorem socketCall_step {mem : Uninit} {ch : Nat} {domain type : Int32} {resp : Response}
    (h : socketCall d mem ch domain type = .ok (d', resp)) : PcbsStep d d' := by
  unfold socketCall at h
  split at h
  · cases h
  · split at h
    · cases h
    · dsimp only at h
      split at h
      · cases h
        refine (PcbsStep.release ?_ _).setRRChannel ch _
        let so : Socket := { type := .TCP, nonblocking := type &&& SOCK_NONBLOCK ≠ 0 }
        have hinitial : connections.machine.initial
            { pcb := .new d.stackAddr mem.sendUnack mem.sendNext mem.irs mem.recvNext
              so := so } := ⟨_, _, _, _, _, _, rfl⟩
        exact ⟨.refl _, .append hinitial, rfl⟩
      · cases h
        refine (PcbsStep.release ?_ _).setRRChannel ch _
        let so : Socket := { type := .UDP, nonblocking := type &&& SOCK_NONBLOCK ≠ 0 }
        have hinitial : (endpoints d.stackAddr).machine.initial
            { pcb := .new d.stackAddr, so := so } := ⟨_, rfl⟩
        exact ⟨.append hinitial, .refl _, rfl⟩

/-- What is done to a connection is done to the element that holds it. -/
theorem step_setTcpSlot {i : Nat} {c c' : Connection} (hslot : d.tcpSlot i = c.slot)
    (hleads : TcpConnections.machine.Leads c c') : PcbsStep d (d.setTcpSlot i c'.slot) := by
  refine ⟨.refl _, .set ?_, rfl⟩
  have hheld : d.stack.tcp.pcbs.getD i .expired = c.slot := hslot
  rw [show connections.gone = Slot.expired from rfl, hheld]
  exact .moved hleads

theorem step_setUdpSlot {i : Nat} {e e' : Endpoint} (hslot : d.udpSlot i = e.slot)
    (hleads : (UdpEndpoints.machine d.stackAddr).Leads e e') :
    PcbsStep d (d.setUdpSlot i e'.slot) := by
  refine ⟨.set ?_, .refl _, rfl⟩
  have hheld : d.stack.udp.pcbs.getD i .expired = e.slot := hslot
  rw [show (endpoints d.stackAddr).gone = Slot.expired from rfl, hheld]
  exact .moved hleads

theorem step_tcpCalled {i : Nat} {pcb pcb' : TcpPcb} {so : Socket}
    (hslot : d.tcpSlot i = { pcb := some pcb, socket := some so })
    (hleads : TcpConnections.machine.Leads { pcb := pcb, so := so } { pcb := pcb', so := so })
    (port : UInt16) : PcbsStep d (tcpCalled d i port pcb') := by
  obtain ⟨hudp, htcp, hstackAddr⟩ := step_setTcpSlot hslot hleads
  have hheld : ({ d.tcpSlot i with pcb := some pcb' } : Slot TcpPcb) =
      { pcb := some pcb', socket := some so } := by
    rw [hslot]
  rw [tcpCalled, hheld]
  exact ⟨hudp, htcp, hstackAddr⟩

theorem step_udpCalled {i : Nat} {pcb pcb' : Pcb} {so : Socket}
    (hslot : d.udpSlot i = { pcb := some pcb, socket := some so }) {port : UInt16} {c : PcbCall}
    (hcall : pcb' = (udpCall port pcb c).2) (port' : UInt16) :
    PcbsStep d (udpCalled d i port' pcb') := by
  subst hcall
  have hleads : (UdpEndpoints.machine d.stackAddr).Leads { pcb := pcb, so := so }
      { pcb := (udpCall port pcb c).2, so := so } := .single (a := .call port c) rfl
  obtain ⟨hudp, htcp, hstackAddr⟩ := step_setUdpSlot hslot hleads
  have hheld : ({ d.udpSlot i with pcb := some (udpCall port pcb c).2 } : Slot Pcb) =
      { pcb := some (udpCall port pcb c).2, socket := some so } := by
    rw [hslot]
  rw [udpCalled, hheld]
  exact ⟨hudp, htcp, hstackAddr⟩

theorem run_recvfrom {so so' : Socket} {ch : Nat} {requireAddr : Bool} {resp : Response}
    (h : recvfrom so ch requireAddr = .ok (so', resp)) :
    (SocketOp.recvfrom ch requireAddr).run so = .ok so' :=
  map_eq_ok_iff.mpr ⟨_, h, rfl⟩

theorem run_sChannelReadCb {so so' : Socket} {sent : Option Response}
    (h : RequestHandler.sChannelReadCb so = .ok (so', sent)) :
    SocketOp.sChannelReadCb.run so = .ok so' :=
  map_eq_ok_iff.mpr ⟨_, h, rfl⟩

/-- What the event loop does with a socket is done to the endpoint or the connection that
holds it. -/
theorem step_setSocketAt {ref : SocketRef} {so so' : Socket} (hso : d.socketAt ref = some so)
    (hlive : PcbsLive d) {op : SocketOp} (hrun : op.run so = .ok so') :
    PcbsStep d (d.setSocketAt ref so') := by
  rcases ref with ⟨_ | _, index⟩
  · rcases hlive.udp index with hgone | ⟨e, hslot, -⟩
    · replace hgone : d.udpSlot index = .expired := hgone
      simp only [Daemon.socketAt, hgone, Slot.expired] at hso
      cases hso
    · replace hslot : d.udpSlot index = e.slot := hslot
      simp only [Daemon.socketAt, hslot, Endpoint.slot, Option.some.injEq] at hso
      change PcbsStep d (d.setUdpSlot index { d.udpSlot index with socket := some so' })
      rw [hslot]
      have hstep : e.step (.socket op) = some (e.withSocket so') :=
        Option.map_eq_some_iff.mpr ⟨so', toOption_eq_some_iff.mpr (hso ▸ hrun), rfl⟩
      exact step_setUdpSlot hslot (.single (a := .socket op) hstep)
  · rcases hlive.tcp index with hgone | ⟨c, hslot, -⟩
    · replace hgone : d.tcpSlot index = .expired := hgone
      simp only [Daemon.socketAt, hgone, Slot.expired] at hso
      cases hso
    · replace hslot : d.tcpSlot index = c.slot := hslot
      simp only [Daemon.socketAt, hslot, Connection.slot, Option.some.injEq] at hso
      have hstep : c.step (.socket op) = some { c with so := so' } :=
        Option.map_eq_some_iff.mpr ⟨so', toOption_eq_some_iff.mpr (hso ▸ hrun), rfl⟩
      change PcbsStep d (d.setTcpSlot index { d.tcpSlot index with socket := some so' })
      rw [hslot]
      exact step_setTcpSlot hslot (.single (a := .socket op) hstep)

theorem connectCall_step {ch : Nat} {addr : List UInt8} {resp : Response} (hconn : Connected d)
    (h : connectCall d ch addr = .ok (d', resp)) : PcbsStep d d' := by
  simp only [connectCall, bind_eq_ok_iff] at h
  obtain ⟨dest, -, ⟨ref, so⟩, hsocket, h⟩ := h
  have hso := socket_eq_ok_iff.mp hsocket
  split at h
  · rename_i htype
    obtain ⟨pcb, hpcb, ⟨⟩⟩ := bind_eq_ok_iff.mp h
    obtain ⟨-, pcb', hslot⟩ := hconn.udp hso htype
    obtain rfl := Except.ok.inj ((udpPcb_of_slot hslot).symm.trans hpcb)
    exact step_udpCalled hslot (c := .connect dest.sinAddr dest.sinPort) rfl _
  · rename_i htype
    split at h
    · cases h
      exact .refl d
    · obtain ⟨pcb, hpcb, ⟨⟩⟩ := bind_eq_ok_iff.mp h
      obtain ⟨-, pcb', hslot⟩ := hconn.tcp hso htype
      obtain rfl := Except.ok.inj ((tcpPcb_of_slot hslot).symm.trans hpcb)
      refine step_tcpCalled hslot ?_ _
      exact .head (a := .setOnConnEstabCB ch) rfl
        (.single (a := .connect d.stack.tcp.port dest.sinAddr dest.sinPort) rfl)

theorem sendtoCall_step {ch : Nat} {buf : List UInt8} {addr : Option (List UInt8)}
    {resp : Response} (hconn : Connected d) (h : sendtoCall d ch buf addr = .ok (d', resp)) :
    PcbsStep d d' := by
  obtain ⟨ref, so, hso, hexit⟩ := sendtoCall_exit h
  cases hexit with
  | @udpSendto _ dest _ _ htype _ hpcb hsent =>
      obtain ⟨-, pcb, hslot⟩ := hconn.udp hso htype
      obtain rfl := Except.ok.inj ((udpPcb_of_slot hslot).symm.trans hpcb)
      subst hsent
      exact step_udpCalled hslot (c := .sendto dest.sinAddr dest.sinPort buf) rfl _
  | udpSend htype hpcb hsent =>
      obtain ⟨-, pcb, hslot⟩ := hconn.udp hso htype
      obtain rfl := Except.ok.inj ((udpPcb_of_slot hslot).symm.trans hpcb)
      subst hsent
      exact step_udpCalled hslot (c := .send buf) rfl _
  | tcpSend htype hpcb hsent =>
      obtain ⟨-, pcb, hslot⟩ := hconn.tcp hso htype
      obtain rfl := Except.ok.inj ((tcpPcb_of_slot hslot).symm.trans hpcb)
      subst hsent
      exact step_tcpCalled hslot (.single (a := .send d.stack.tcp.port buf) rfl) _

theorem handleRequest_step {mem : Uninit} {ch : Nat} {req : Request} {resp : Response}
    (hconn : Connected d) (hlive : PcbsLive d)
    (h : handleRequest d mem ch req = .ok (d', resp)) : PcbsStep d d' := by
  unfold handleRequest at h
  generalize req.calling = calling at h
  cases calling with
  | socketCall domain type protocol => exact socketCall_step h
  | connectCall addr => exact connectCall_step hconn h
  | recvfromCall len flags requireAddr =>
      simp only [recvfromCall, bind_eq_ok_iff] at h
      obtain ⟨⟨ref, so⟩, hsocket, ⟨so', _⟩, hrecvfrom, ⟨⟩⟩ := h
      exact step_setSocketAt (socket_eq_ok_iff.mp hsocket).2 hlive (run_recvfrom hrecvfrom)
  | sendtoCall buf flags addr => exact sendtoCall_step hconn h
  | getpeernameCall =>
      obtain ⟨_, -, ⟨⟩⟩ := bind_eq_ok_iff.mp h
      exact .refl d
  | getsocknameCall =>
      obtain ⟨_, -, ⟨⟩⟩ := bind_eq_ok_iff.mp h
      exact .refl d
  | atstartAction progname =>
      cases h
      exact (PcbsStep.refl d).setRRChannel ch _
  | _ =>
      cases h
      exact .refl d

theorem onReadReady_step {mem : Uninit} {ch : Nat} {result : ReadResult} {writeFails : Bool}
    {sent : Option Response} (hconn : Connected d) (hlive : PcbsLive d)
    (h : onReadReady d mem ch result writeFails = .ok (d', sent)) : PcbsStep d d' := by
  cases onReadReady_exit h with
  | again => exact .refl d
  | eof => exact ((PcbsStep.refl d).release _).setRRChannel ch _
  | written hcall => exact handleRequest_step hconn hlive hcall
  | unwritten hcall => exact (handleRequest_step hconn hlive hcall).setRRChannel ch _

theorem tcp_rx_step (hlive : PcbsLive d) (uninit : SockaddrIn) (skbuf : SocketBuffer)
    (next : List SocketBuffer) :
    PcbsStep d { d with stack.tcp := (d.stack.tcp.rx uninit skbuf next).1 } := by
  unfold Tcp.rx
  dsimp only
  split
  · exact .refl d
  · rename_i i _
    split
    · exact .refl d
    · rename_i pcb hpcb
      rcases hlive.tcp i with hgone | ⟨c, hslot, -⟩
      · replace hgone : d.stack.tcp.pcbs.getD i .expired = .expired := hgone
        rw [hgone] at hpcb
        cases hpcb
      · replace hslot : d.stack.tcp.pcbs.getD i .expired = c.slot := hslot
        rw [hslot] at hpcb
        obtain rfl : c.pcb = pcb := Option.some.inj hpcb
        obtain ⟨so, hrecv⟩ := recv_eq c uninit skbuf next
        have hstep : c.step (.recv uninit skbuf next) =
            some { pcb := pcbAfter c.pcb skbuf, so := so } := by
          simp only [Connection.step, hrecv, Option.bind_eq_bind, Option.bind_some]
        rw [hslot]
        change PcbsStep d (d.setTcpSlot i (c.recv uninit skbuf next).1)
        rw [hrecv]
        exact step_setTcpSlot hslot (.single (a := .recv uninit skbuf next) hstep)

theorem udp_rx_step (hlive : PcbsLive d) (uninit : SockaddrIn) (skbuf : SocketBuffer)
    (hprotocol : (iphdr skbuf).protocol = 17) (next : List SocketBuffer) :
    PcbsStep d { d with stack.udp := (d.stack.udp.rx uninit skbuf next).1 } := by
  unfold Udp.rx
  dsimp only
  split
  · exact .refl d
  · rename_i i hfind
    obtain ⟨last, hlast⟩ := lastMatch_of_find hfind
    have hget := hlast.get_eq
    rw [List.getElem?_map] at hget
    obtain ⟨slot, hat, hpcb⟩ := Option.map_eq_some_iff.mp hget
    have hgetD : d.stack.udp.pcbs.getD i .expired = slot := by
      rw [List.getD_eq_getElem?_getD, hat, Option.getD_some]
    rcases hlive.udp i with hgone | ⟨e, hslot, -⟩
    · replace hgone : d.stack.udp.pcbs.getD i .expired = .expired := hgone
      rw [hgone] at hgetD
      subst hgetD
      cases hpcb
    · replace hslot : d.stack.udp.pcbs.getD i .expired = e.slot := hslot
      obtain rfl : e.slot = slot := hslot.symm.trans hgetD
      obtain rfl : e.pcb = last := Option.some.inj hpcb
      rw [hslot]
      exact step_setUdpSlot hslot (.single (a := .recv uninit skbuf next)
        (UdpEndpoints.step_recv hprotocol hlast.isMatch uninit next))

theorem demultiplex_step (hlive : PcbsLive d) (uninit : SockaddrIn) {hdr : IpHeader}
    {skbuf : SocketBuffer} (hprotocol : (iphdr skbuf).protocol = hdr.protocol)
    (next : List SocketBuffer) :
    PcbsStep d { d with stack := (demultiplex d.stack uninit hdr skbuf next).1 } := by
  unfold demultiplex
  dsimp only
  split
  · rename_i hudp
    have hlocated : (iphdr (locateTransport hdr.ihl skbuf)).protocol = 17 :=
      hprotocol.trans (protoxmap_eq_udp_iff.mp hudp)
    exact udp_rx_step hlive uninit _ hlocated next
  · exact tcp_rx_step hlive uninit _ next
  · exact .refl d

theorem rx_step (hlive : PcbsLive d) (hkeyed : KeyedChains OfKey d.stack.defrager)
    (uninit : SockaddrIn) (skbuf : SocketBuffer) :
    PcbsStep d { d with stack := (rx d.stack uninit skbuf).1 } := by
  unfold rx
  dsimp only
  split
  · exact .refl d
  · split
    · exact .refl d
    · split
      · split
        · exact .refl d
        · exact ⟨.refl _, .refl _, rfl⟩
        · rename_i defrager packet next hdefrag
          have hlive' : PcbsLive { d with stack.defrager := defrager } := ⟨hlive.udp, hlive.tcp⟩
          obtain ⟨hudp, htcp, hstackAddr⟩ :=
            demultiplex_step hlive' uninit (protocol_of_packet hkeyed hdefrag) next
          exact ⟨hudp, htcp, hstackAddr⟩
      · exact demultiplex_step hlive uninit rfl []

theorem keyed_rx (h : KeyedChains OfKey d.stack.defrager) (uninit : SockaddrIn)
    (skbuf : SocketBuffer) : KeyedChains OfKey (rx d.stack uninit skbuf).1.defrager := by
  unfold rx
  dsimp only
  split
  · exact h
  · split
    · exact h
    · split
      · split
        · exact h
        · rename_i hdefrag
          exact h.defrag_ofKey hdefrag
        · rename_i hdefrag
          rw [ReplyOverflow.defrager_demultiplex]
          exact h.defrag_ofKey hdefrag
      · rw [ReplyOverflow.defrager_demultiplex]
        exact h

theorem keyed_next {a : Label} (h : KeyedChains OfKey d.stack.defrager)
    (hnext : next (.running d) a = some (.running d')) : KeyedChains OfKey d'.stack.defrager := by
  rcases ReplyOverflow.defrager_next hnext with hsame | ⟨uninit, skbuf, rfl⟩
  · rw [hsame]
    exact h
  · cases hnext
    exact keyed_rx h uninit skbuf

theorem next_step {a : Label} (hconn : Connected d) (hlive : PcbsLive d)
    (hkeyed : KeyedChains OfKey d.stack.defrager)
    (hnext : next (.running d) a = some (.running d')) : PcbsStep d d' := by
  cases next_exit hnext with
  | accept => exact ⟨.refl _, .refl _, rfl⟩
  | read _ hread => exact onReadReady_step hconn hlive hread
  | hangUp => exact ((PcbsStep.refl d).release _).setRRChannel _ _
  | rx uninit skbuf => exact rx_step hlive hkeyed uninit skbuf
  | notified hso hread => exact step_setSocketAt hso hlive (run_sChannelReadCb hread)

theorem PcbsStep.live (h : PcbsStep d d') (hlive : PcbsLive d) : PcbsLive d' := by
  constructor
  · rw [h.stackAddr_eq]
    exact h.udp.allLive hlive.udp
  · exact h.tcp.allLive hlive.tcp

end Steps

section Runs

theorem keyed {s : State} (h : started.Reachable s) :
    ∀ d, s = .running d → KeyedChains OfKey d.stack.defrager := by
  refine h.invariant (I := fun s => ∀ d, s = .running d →
    KeyedChains OfKey d.stack.defrager) ?_ ?_
  · rintro s ⟨d, rfl, -, -, -, hempty⟩ d' ⟨⟩ c hc
    rw [hempty] at hc
    cases hc
  · rintro s a t hs - hnext d' rfl
    rcases s with d | fault
    · exact keyed_next (hs d rfl) hnext
    · cases hnext

theorem pcbsLive {s : State} (h : started.Reachable s) : ∀ d, s = .running d → PcbsLive d := by
  induction h with
  | initial hinitial =>
      obtain ⟨d, rfl, -, hudp, htcp, -⟩ := hinitial
      rintro d ⟨⟩
      constructor
      · rw [hudp]
        exact allLive_nil
      · rw [htcp]
        exact allLive_nil
  | @step s t a hreached _ hnext ih =>
      rintro d' rfl
      rcases s with d | fault
      · have hlive := ih d rfl
        have hconn := connected (reachable_of_started hreached) d rfl
        exact (next_step hconn hlive (keyed hreached d rfl) hnext).live hlive
      · cases hnext

/-- A run of the daemon, as one of its PCBs and their sockets. -/
structure PcbsRun (d d' : Daemon) : Prop where
  udp : (endpoints d.stackAddr).Run d.stack.udp.pcbs d'.stack.udp.pcbs
  tcp : connections.Run d.stack.tcp.pcbs d'.stack.tcp.pcbs
  stackAddr_eq : d'.stackAddr = d.stackAddr

theorem pcbsRun {d : Daemon} (hreached : started.Reachable (.running d)) {s : State}
    (hrun : started.Leads (.running d) s) :
    ∀ d', s = .running d' → started.Reachable (.running d') ∧ PcbsRun d d' := by
  refine hrun.invariant (I := fun s => ∀ d', s = .running d' →
    started.Reachable (.running d') ∧ PcbsRun d d') ?_ ?_
  · rintro s a t hs hnext d'' rfl
    rcases s with d' | fault
    · obtain ⟨hreached', hudp, htcp, hstackAddr⟩ := hs d' rfl
      have hconn := connected (reachable_of_started hreached') d' rfl
      obtain ⟨hudp', htcp', hstackAddr'⟩ :=
        next_step hconn (pcbsLive hreached' d' rfl) (keyed hreached' d' rfl) hnext
      refine ⟨hreached'.step trivial hnext, ?_, htcp.step htcp', hstackAddr'.trans hstackAddr⟩
      rw [hstackAddr] at hudp'
      exact hudp.step hudp'
    · cases hnext
  · rintro d' ⟨⟩
    have hlive := pcbsLive hreached d rfl
    exact ⟨hreached, .refl hlive.udp, .refl hlive.tcp, rfl⟩

/-- Every TCP socket of the daemon is in a state that a connection alone can reach, and every
UDP socket in one that a UDP endpoint alone can: what holds of these holds of them. -/
theorem pcbs_live_alone {d : Daemon} (h : started.Reachable (.running d)) :
    (∀ i pcb, (d.tcpSlot i).pcb = some pcb →
      ∃ so, d.tcpSlot i = { pcb := some pcb, socket := some so } ∧
        TcpConnections.machine.Reachable { pcb := pcb, so := so }) ∧
    (∀ i pcb, (d.udpSlot i).pcb = some pcb →
      ∃ so, d.udpSlot i = { pcb := some pcb, socket := some so } ∧
        (UdpEndpoints.machine d.stackAddr).Reachable { pcb := pcb, so := so }) := by
  obtain ⟨hudp, htcp⟩ := pcbsLive h d rfl
  constructor
  · intro i pcb hpcb
    rcases htcp i with hgone | ⟨⟨_, so⟩, hslot, hreached⟩
    · replace hgone : d.tcpSlot i = .expired := hgone
      rw [hgone] at hpcb
      cases hpcb
    · replace hslot : d.tcpSlot i = _ := hslot
      rw [hslot] at hpcb
      cases hpcb
      exact ⟨so, hslot, hreached⟩
  · intro i pcb hpcb
    rcases hudp i with hgone | ⟨⟨_, so⟩, hslot, hreached⟩
    · replace hgone : d.udpSlot i = .expired := hgone
      rw [hgone] at hpcb
      cases hpcb
    · replace hslot : d.udpSlot i = _ := hslot
      rw [hslot] at hpcb
      cases hpcb
      exact ⟨so, hslot, hreached⟩

/-- A client whose `connect` waits for the answer to its SYN. -/
def sampleConnecting : Daemon :=
  tcpCalled sampleTcp 0 1025 sampleSynSent

theorem sampleConnecting_reachable : started.Reachable (.running sampleConnecting) := by
  have hinitial : started.Reachable (.running sampleDaemon) :=
    .initial ⟨sampleDaemon, rfl, rfl, rfl, rfl, rfl⟩
  have hexec : started.exec (.running sampleDaemon)
      [.accept, sampleRead (.socketCall 2 1 0), sampleRead (.connectCall sampleAddr)] =
        some (.running sampleConnecting) := rfl
  exact Machine.reachable_of_exec hinitial hexec

theorem pcbs_live_alone_sample :
    ∃ so, sampleConnecting.tcpSlot 0 = { pcb := some sampleSynSent, socket := some so } ∧
      TcpConnections.machine.Reachable { pcb := sampleSynSent, so := so } :=
  (pcbs_live_alone sampleConnecting_reachable).1 0 sampleSynSent rfl

/-- A UDP socket that lives is the one of an endpoint. -/
theorem endpoint_of_socket {d : Daemon} (h : started.Reachable (.running d)) {i : Nat}
    {so : Socket} (hso : (d.udpSlot i).socket = some so) :
    ∃ e : Endpoint, d.udpSlot i = e.slot ∧ e.so = so ∧ UdpEndpoints.Invariant d.stackAddr e := by
  rcases (pcbsLive h d rfl).udp i with hgone | ⟨e, hslot, hreached⟩
  · replace hgone : d.udpSlot i = .expired := hgone
    rw [hgone] at hso
    cases hso
  · replace hslot : d.udpSlot i = e.slot := hslot
    rw [hslot] at hso
    exact ⟨e, hslot, Option.some.inj hso, UdpEndpoints.invariant hreached⟩

/-- What is in the queue of a UDP socket came as a UDP datagram to the socket's own port, or
to port 0, and for the address of the stack if that is not 0.0.0.0. -/
theorem queues_addressed {d : Daemon} (h : started.Reachable (.running d)) {i : Nat} {so : Socket}
    (hso : (d.udpSlot i).socket = some so) :
    ∃ pcb, (d.udpSlot i).pcb = some pcb ∧ pcb.laddr = d.stackAddr ∧
      ∀ entry ∈ so.recvQ, EntryAddressed pcb entry := by
  obtain ⟨e, hslot, rfl, hinvariant⟩ := endpoint_of_socket h hso
  rw [hslot]
  exact ⟨e.pcb, rfl, hinvariant.laddr_eq, hinvariant.queue⟩

theorem queues_addressed_sample :
    ∃ d so, started.exec (.running sampleStart) (sampleLabels .zero) = some (.running d) ∧
      (d.udpSlot 0).socket = some so ∧ so.recvQ.length = 1 ∧
      ∃ pcb, (d.udpSlot 0).pcb = some pcb ∧ pcb.laddr = d.stackAddr ∧
        ∀ entry ∈ so.recvQ, EntryAddressed pcb entry := by
  obtain ⟨d, so, hexec, hso, hlength⟩ : ∃ d so,
      started.exec (.running sampleStart) (sampleLabels .zero) = some (.running d) ∧
        (d.udpSlot 0).socket = some so ∧ so.recvQ.length = 1 := ⟨_, _, rfl, rfl, rfl⟩
  have hreached : started.Reachable (.running d) :=
    Machine.reachable_of_exec (.initial sampleStart_initial) hexec
  exact ⟨d, so, hexec, hso, hlength, queues_addressed hreached hso⟩

end Runs

end MuQuinet.SocketLives
