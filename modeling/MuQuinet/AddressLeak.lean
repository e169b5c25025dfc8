import MuQuinet.Lib.Lockstep
import MuQuinet.ReplyShape

namespace MuQuinet.AddressLeak

open MuQuinet.Lib.Lockstep
open MuQuinet.Lib.Outcomes
open MuQuinet.Lib.Words
open MuQuinet.Buffers
open MuQuinet.Callbacks
open MuQuinet.ChannelSockets
open MuQuinet.DaemonSurvival
open MuQuinet.HandlerAnswers
open MuQuinet.IpHeaders
open MuQuinet.IpLayer
open MuQuinet.Pcbs
open MuQuinet.Reassembly
open MuQuinet.RequestHandler
open MuQuinet.Rpc
open MuQuinet.Sockets
open MuQuinet.TcpLayer
open MuQuinet.UdpLayer
open MuQuinet.Wire

abbrev Entry := SockaddrIn × List SocketBuffer

/-- The same packet, from addresses that `R` relates. -/
structure EntryRel (R : SockaddrIn → SockaddrIn → Prop) (entry entry' : Entry) : Prop where
  addr : R entry.1 entry'.1
  chain : entry'.2 = entry.2

inductive SocketRel (R : SockaddrIn → SockaddrIn → Prop) : Socket → Socket → Prop
  | mk {so : Socket} {recvQ : List Entry} : List.Forall₂ (EntryRel R) so.recvQ recvQ →
      SocketRel R so { so with recvQ := recvQ }

/-- The same connection, up to the words that a new PCB does not initialise. -/
structure SameConnection (pcb pcb' : TcpPcb) : Prop where
  toPcb : pcb'.toPcb = pcb.toPcb
  connState : pcb'.connState = pcb.connState
  onConnEstabCB : pcb'.onConnEstabCB = pcb.onConnEstabCB

structure SlotRel {P : Type} (R : SockaddrIn → SockaddrIn → Prop) (C : P → P → Prop)
    (slot slot' : Slot P) : Prop where
  pcb : Option.Rel C slot.pcb slot'.pcb
  socket : Option.Rel (SocketRel R) slot.socket slot'.socket

structure StackRel (R : SockaddrIn → SockaddrIn → Prop) (st st' : Stack) : Prop where
  defrager : st'.defrager = st.defrager
  udpPort : st'.udp.port = st.udp.port
  tcpPort : st'.tcp.port = st.tcp.port
  udp : List.Forall₂ (SlotRel R Eq) st.udp.pcbs st'.udp.pcbs
  tcp : List.Forall₂ (SlotRel R SameConnection) st.tcp.pcbs st'.tcp.pcbs

structure DaemonRel (R : SockaddrIn → SockaddrIn → Prop) (d d' : Daemon) : Prop where
  rrChannels : d'.rrChannels = d.rrChannels
  stackAddr : d'.stackAddr = d.stackAddr
  stack : StackRel R d.stack d'.stack

/-- The peer's address in a response. -/
def addrOf (resp : Response) : Option (List UInt8) :=
  match resp.returning with
  | some (.recvfromCall _ _ _ addr) => addr
  | _ => none

/-- The same response, up to related addresses of the peer. -/
inductive ReplyRel (R : SockaddrIn → SockaddrIn → Prop) : Response → Response → Prop
  | same {resp : Response} : addrOf resp = none → ReplyRel R resp resp
  | packet (buf : List UInt8) {addr addr' : SockaddrIn} : R addr addr' →
      ReplyRel R
        (retOk (.recvfromCall (.ofInt buf.length) none (some buf) (some addr.bytes)))
        (retOk (.recvfromCall (.ofInt buf.length) none (some buf) (some addr'.bytes)))

/-- The same packets and requests, up to uninitialised memory. -/
inductive SameInput (R : SockaddrIn → SockaddrIn → Prop) : Label → Label → Prop
  | accept : SameInput R .accept .accept
  | read (mem mem' : Uninit) (ch : Nat) (result : ReadResult) (writeFails : Bool) :
      SameInput R (.read mem ch result writeFails) (.read mem' ch result writeFails)
  | hangUp (ch : Nat) : SameInput R (.hangUp ch) (.hangUp ch)
  | rx {uninit uninit' : SockaddrIn} (skbuf : SocketBuffer) : R uninit uninit' →
      SameInput R (.rx uninit skbuf) (.rx uninit' skbuf)
  | notified (ref : SocketRef) : SameInput R (.notified ref) (.notified ref)

/-- What the two runs relate is kept when the members that `Udp::rx` sets are set. -/
def KeptBySets (R : SockaddrIn → SockaddrIn → Prop) : Prop :=
  ∀ uninit uninit' family port addr, R uninit uninit' →
    R { uninit with sinFamily := family, sinPort := port, sinAddr := addr }
      { uninit' with sinFamily := family, sinPort := port, sinAddr := addr }

section Sockets

variable {R : SockaddrIn → SockaddrIn → Prop} {so so' : Socket}

theorem SocketRel.refl_of_empty (h : so.recvQ = []) : SocketRel R so so := by
  have hempty : List.Forall₂ (EntryRel R) so.recvQ [] := by
    rw [h]
    exact .nil
  have hrel := SocketRel.mk hempty
  rw [← h] at hrel
  exact hrel

theorem SocketRel.set {recvQ recvQ' : List Entry} (h : List.Forall₂ (EntryRel R) recvQ recvQ')
    (so : Socket) : SocketRel R { so with recvQ := recvQ } { so with recvQ := recvQ' } := by
  have hrecvQ : List.Forall₂ (EntryRel R) ({ so with recvQ := recvQ } : Socket).recvQ recvQ' := h
  exact .mk hrecvQ

theorem SocketRel.putToRecvQ (h : SocketRel R so so') {addr addr' : SockaddrIn}
    (haddr : R addr addr')
    (skbuf : List SocketBuffer) :
    SocketRel R (so.putToRecvQ addr skbuf) (so'.putToRecvQ addr' skbuf) := by
  cases h with
  | @mk recvQ hrecvQ =>
      have hlength := hrecvQ.length_eq
      unfold Socket.putToRecvQ
      simp only [← hlength]
      split
      · exact .mk hrecvQ
      · have hnew := forall₂_append hrecvQ (a := (addr, skbuf)) (b := (addr', skbuf)) ⟨haddr, rfl⟩
        unfold Socket.markSChannelAsReadable Socket.enqueue
        dsimp only
        split
        · exact .set hnew { so with notifyPipe := so.notifyPipe + 1 }
        · exact .set hnew so

theorem SocketRel.drainNotifyPipe (h : SocketRel R so so') :
    SocketRel R so.drainNotifyPipe so'.drainNotifyPipe := by
  cases h with
  | @mk recvQ hrecvQ => exact .set hrecvQ { so with notifyPipe := 0 }

theorem SocketRel.setWaiting (h : SocketRel R so so') (v : Bool) :
    SocketRel R (so.setWaiting v) (so'.setWaiting v) := by
  cases h with
  | @mk recvQ hrecvQ => exact .set hrecvQ (so.setWaiting v)

theorem SocketRel.setOnAsyncNewPacketCB (h : SocketRel R so so') (cb : OnAsyncNewPacket) :
    SocketRel R (so.setOnAsyncNewPacketCB cb) (so'.setOnAsyncNewPacketCB cb) := by
  cases h with
  | @mk recvQ hrecvQ => exact .set hrecvQ (so.setOnAsyncNewPacketCB cb)

theorem SocketRel.tryTakeFromRecvQ (h : SocketRel R so so') :
    Option.Rel (fun r r' => EntryRel R r.1 r'.1 ∧ SocketRel R r.2 r'.2) so.tryTakeFromRecvQ
      so'.tryTakeFromRecvQ := by
  cases h with
  | @mk recvQ hrecvQ =>
      unfold Socket.tryTakeFromRecvQ
      dsimp only
      generalize so.recvQ = queue at hrecvQ
      cases hrecvQ with
      | nil => exact .none
      | cons hentry hrest => exact .some ⟨hentry, .set hrest so⟩

theorem SocketRel.fields (h : SocketRel R so so') :
    so'.type = so.type ∧ so'.nonblocking = so.nonblocking ∧ so'.waiting = so.waiting ∧
      so'.onAsyncNewPacket = so.onAsyncNewPacket := by
  cases h
  exact ⟨rfl, rfl, rfl, rfl⟩

theorem SlotRel.withSocket {P : Type} {C : P → P → Prop} {slot slot' : Slot P}
    (h : SlotRel R C slot slot') (hso : SocketRel R so so') :
    SlotRel R C { slot with socket := some so } { slot' with socket := some so' } :=
  ⟨h.pcb, .some hso⟩

theorem SlotRel.withPcb {P : Type} {C : P → P → Prop} {slot slot' : Slot P}
    (h : SlotRel R C slot slot') {pcb pcb' : P} (hpcb : C pcb pcb') :
    SlotRel R C { slot with pcb := some pcb } { slot' with pcb := some pcb' } :=
  ⟨.some hpcb, h.socket⟩

theorem deliver_rel {P : Type} {C : P → P → Prop} {slot slot' : Slot P} (h : SlotRel R C slot slot')
    {addr addr' : SockaddrIn} (haddr : R addr addr') (skbuf : SocketBuffer)
    (next : List SocketBuffer) :
    SlotRel R C (slot.deliver addr skbuf next).1 (slot'.deliver addr' skbuf next).1 := by
  obtain ⟨hpcb, hsocket⟩ := h
  obtain ⟨pcb, socket⟩ := slot
  obtain ⟨pcb', socket'⟩ := slot'
  dsimp only at hpcb hsocket
  cases hsocket with
  | none => exact ⟨hpcb, .none⟩
  | some hso => exact ⟨hpcb, .some (hso.putToRecvQ haddr _)⟩

end Sockets

section Stacks

variable {R : SockaddrIn → SockaddrIn → Prop} {st st' : Stack} {uninit uninit' : SockaddrIn}

theorem slotRel_expired {P : Type} {C : P → P → Prop} : SlotRel R C .expired .expired :=
  ⟨.none, .none⟩

theorem option_eq_of_rel {α : Type} {x y : Option α} (h : Option.Rel Eq x y) : y = x := by
  cases h with
  | none => rfl
  | some heq => rw [heq]

theorem pcbs_eq_of_rel {pcbs pcbs' : List (Slot Pcb)} (h : List.Forall₂ (SlotRel R Eq) pcbs pcbs') :
    pcbs'.map (·.pcb) = pcbs.map (·.pcb) := by
  induction h with
  | nil => rfl
  | cons hslot _ ih => rw [List.map_cons, List.map_cons, ih, option_eq_of_rel hslot.pcb]

theorem toPcbs_eq_of_rel {pcbs pcbs' : List (Slot TcpPcb)}
    (h : List.Forall₂ (SlotRel R SameConnection) pcbs pcbs') :
    pcbs'.map (fun slot => slot.pcb.map TcpPcb.toPcb) =
      pcbs.map fun slot => slot.pcb.map TcpPcb.toPcb := by
  induction h with
  | nil => rfl
  | @cons slot slot' _ _ hslot _ ih =>
      obtain ⟨hpcb, -⟩ := hslot
      rw [List.map_cons, List.map_cons, ih]
      generalize slot.pcb = pcb, slot'.pcb = pcb' at hpcb ⊢
      cases hpcb with
      | none => rfl
      | some hsame => rw [Option.map_some, Option.map_some, hsame.toPcb]

/-- The receive path of UDP decides nothing by what it does not set. -/
theorem udp_rx_rel (hkept : KeptBySets R) (hu : R uninit uninit') (h : StackRel R st st')
    (skbuf : SocketBuffer) (next : List SocketBuffer) :
    StackRel R { st with udp := (st.udp.rx uninit skbuf next).1 }
      { st' with udp := (st'.udp.rx uninit' skbuf next).1 } := by
  obtain ⟨hdefrager, hudpPort, htcpPort, hudp, htcp⟩ := h
  have hfind : st'.udp.find (Udp.fourTuple skbuf) = st.udp.find (Udp.fourTuple skbuf) := by
    rw [Udp.find, Udp.find, pcbs_eq_of_rel hudp]
  unfold Udp.rx
  dsimp only
  rw [hfind]
  split
  · exact ⟨hdefrager, hudpPort, htcpPort, hudp, htcp⟩
  · rename_i i _
    have hslot := deliver_rel (forall₂_getD hudp slotRel_expired i)
      (hkept uninit uninit' AF_INET (Udp.fourTuple skbuf).fport (Udp.fourTuple skbuf).faddr hu)
      (UdpPcb.locatePayload skbuf) next
    exact ⟨hdefrager, hudpPort, htcpPort, forall₂_set hudp hslot i, htcp⟩

theorem sameConnection_recvAck {pcb pcb' : TcpPcb} (h : SameConnection pcb pcb') (hdr : TcpHeader) :
    SameConnection (pcb.recvAck hdr) (pcb'.recvAck hdr) := by
  obtain ⟨htoPcb, hconnState, hcb⟩ := h
  unfold TcpPcb.recvAck
  split <;> split <;> exact ⟨htoPcb, hconnState, hcb⟩

theorem tcp_recv_rel (hu : R uninit uninit') {slot slot' : Slot TcpPcb} {pcb pcb' : TcpPcb}
    (hpcb : slot.pcb = some pcb) (hpcb' : slot'.pcb = some pcb')
    (hslot : SlotRel R SameConnection slot slot') (skbuf : SocketBuffer)
    (next : List SocketBuffer) :
    SlotRel R SameConnection (TcpPcb.recv slot pcb uninit skbuf next).1
      (TcpPcb.recv slot' pcb' uninit' skbuf next).1 := by
  have hsame : SameConnection pcb pcb' := by
    have hrel := hslot.pcb
    rw [hpcb, hpcb'] at hrel
    cases hrel with
    | some hsame => exact hsame
  have hdeliver := deliver_rel hslot hu (TcpPcb.locatePayload skbuf) next
  have hacked := sameConnection_recvAck hsame (tcphdr skbuf)
  unfold TcpPcb.recv
  rw [hsame.connState]
  split
  · exact ⟨.some ⟨hsame.toPcb, rfl, hsame.onConnEstabCB⟩, hslot.socket⟩
  · dsimp only
    split
    · generalize slot.deliver uninit (TcpPcb.locatePayload skbuf) next = delivered,
        slot'.deliver uninit' (TcpPcb.locatePayload skbuf) next = delivered' at hdeliver
      have hnone : delivered'.1.socket = none ↔ delivered.1.socket = none := by
        have hsocket := hdeliver.socket
        generalize delivered.1.socket = socket, delivered'.1.socket = socket' at hsocket
        cases hsocket <;> simp
      simp only [hnone]
      split
      · exact hdeliver
      · exact ⟨.some ⟨hacked.toPcb, hacked.connState, hacked.onConnEstabCB⟩, hdeliver.socket⟩
    · exact ⟨.some hacked, hslot.socket⟩
  · exact hslot

theorem tcp_rx_rel (hu : R uninit uninit') (h : StackRel R st st') (skbuf : SocketBuffer)
    (next : List SocketBuffer) :
    StackRel R { st with tcp := (st.tcp.rx uninit skbuf next).1 }
      { st' with tcp := (st'.tcp.rx uninit' skbuf next).1 } := by
  obtain ⟨hdefrager, hudpPort, htcpPort, hudp, htcp⟩ := h
  have hfind : st'.tcp.find (Tcp.fourTuple skbuf) = st.tcp.find (Tcp.fourTuple skbuf) := by
    rw [Tcp.find, Tcp.find, toPcbs_eq_of_rel htcp]
  unfold Tcp.rx
  dsimp only
  rw [hfind]
  split
  · exact ⟨hdefrager, hudpPort, htcpPort, hudp, htcp⟩
  · rename_i i _
    have hslot := forall₂_getD htcp slotRel_expired i
    have hpcbs := hslot.pcb
    rcases hpcb : (st.tcp.pcbs.getD i .expired).pcb with _ | pcb <;>
      rcases hpcb' : (st'.tcp.pcbs.getD i .expired).pcb with _ | pcb'
    · exact ⟨hdefrager, hudpPort, htcpPort, hudp, htcp⟩
    · rw [hpcb, hpcb'] at hpcbs
      cases hpcbs
    · rw [hpcb, hpcb'] at hpcbs
      cases hpcbs
    · exact ⟨hdefrager, hudpPort, htcpPort, hudp,
        forall₂_set htcp (tcp_recv_rel hu hpcb hpcb' hslot skbuf next) i⟩

theorem demultiplex_rel (hkept : KeptBySets R) (hu : R uninit uninit') (h : StackRel R st st')
    (hdr : IpHeader) (skbuf : SocketBuffer) (next : List SocketBuffer) :
    StackRel R (demultiplex st uninit hdr skbuf next).1
      (demultiplex st' uninit' hdr skbuf next).1 := by
  unfold demultiplex
  dsimp only
  split
  · exact udp_rx_rel hkept hu h _ next
  · exact tcp_rx_rel hu h _ next
  · exact h

theorem StackRel.withDefrager (h : StackRel R st st') (defrager : Defrager) :
    StackRel R { st with defrager := defrager } { st' with defrager := defrager } :=
  ⟨rfl, h.udpPort, h.tcpPort, h.udp, h.tcp⟩

theorem rx_rel (hkept : KeptBySets R) (hu : R uninit uninit') (h : StackRel R st st')
    (skbuf : SocketBuffer) : StackRel R (rx st uninit skbuf).1 (rx st' uninit' skbuf).1 := by
  unfold rx
  dsimp only
  split
  · exact h
  · split
    · exact h
    · split
      · rw [h.defrager]
        split
        · exact h
        · exact h.withDefrager _
        · exact demultiplex_rel hkept hu (h.withDefrager _) _ _ _
      · exact demultiplex_rel hkept hu h _ skbuf []

end Stacks

section Handlers

variable {R : SockaddrIn → SockaddrIn → Prop} {d d' : Daemon}

theorem DaemonRel.rrChannel_eq (h : DaemonRel R d d') (ch : Nat) :
    d'.rrChannel ch = d.rrChannel ch := by
  rw [Daemon.rrChannel, Daemon.rrChannel, h.rrChannels]

theorem DaemonRel.socketOf_eq (h : DaemonRel R d d') (ch : Nat) :
    d'.socketOf ch = d.socketOf ch := by
  rw [Daemon.socketOf, Daemon.socketOf, h.rrChannel_eq]

theorem DaemonRel.udpSlot (h : DaemonRel R d d') (i : Nat) :
    SlotRel R Eq (d.udpSlot i) (d'.udpSlot i) :=
  forall₂_getD h.stack.udp slotRel_expired i

theorem DaemonRel.tcpSlot (h : DaemonRel R d d') (i : Nat) :
    SlotRel R SameConnection (d.tcpSlot i) (d'.tcpSlot i) :=
  forall₂_getD h.stack.tcp slotRel_expired i

theorem DaemonRel.socketAt (h : DaemonRel R d d') (ref : SocketRef) :
    Option.Rel (SocketRel R) (d.socketAt ref) (d'.socketAt ref) := by
  rcases ref with ⟨_ | _, index⟩
  · exact (h.udpSlot index).socket
  · exact (h.tcpSlot index).socket

theorem DaemonRel.setUdpSlot (h : DaemonRel R d d') {slot slot' : Slot Pcb}
    (hslot : SlotRel R Eq slot slot') (i : Nat) :
    DaemonRel R (d.setUdpSlot i slot) (d'.setUdpSlot i slot') :=
  ⟨h.rrChannels, h.stackAddr, h.stack.defrager, h.stack.udpPort, h.stack.tcpPort,
    forall₂_set h.stack.udp hslot i, h.stack.tcp⟩

theorem DaemonRel.setTcpSlot (h : DaemonRel R d d') {slot slot' : Slot TcpPcb}
    (hslot : SlotRel R SameConnection slot slot') (i : Nat) :
    DaemonRel R (d.setTcpSlot i slot) (d'.setTcpSlot i slot') :=
  ⟨h.rrChannels, h.stackAddr, h.stack.defrager, h.stack.udpPort, h.stack.tcpPort, h.stack.udp,
    forall₂_set h.stack.tcp hslot i⟩

theorem DaemonRel.setSocketAt (h : DaemonRel R d d') {so so' : Socket} (hso : SocketRel R so so')
    (ref : SocketRef) : DaemonRel R (d.setSocketAt ref so) (d'.setSocketAt ref so') := by
  rcases ref with ⟨_ | _, index⟩
  · exact h.setUdpSlot ((h.udpSlot index).withSocket hso) index
  · exact h.setTcpSlot ((h.tcpSlot index).withSocket hso) index

theorem DaemonRel.release (h : DaemonRel R d d') (old : Option SocketRef) :
    DaemonRel R (d.release old) (d'.release old) := by
  rcases old with _ | ⟨_ | _, index⟩
  · exact h
  · exact h.setUdpSlot slotRel_expired index
  · exact h.setTcpSlot slotRel_expired index

theorem DaemonRel.setRRChannel (h : DaemonRel R d d') (ch : Nat) (rr : Option ReqRespChannel) :
    DaemonRel R (d.setRRChannel ch rr) (d'.setRRChannel ch rr) := by
  refine ⟨?_, h.stackAddr, h.stack⟩
  rw [Daemon.setRRChannel, Daemon.setRRChannel, h.rrChannels]

theorem DaemonRel.socket (h : DaemonRel R d d') (ch : Nat) :
    Agree (fun x y => y.1 = x.1 ∧ SocketRel R x.2 y.2) (d.socket ch) (d'.socket ch) := by
  unfold Daemon.socket
  rw [h.socketOf_eq]
  split
  · exact .error _
  · rename_i ref _
    have hso := h.socketAt ref
    generalize d.socketAt ref = so, d'.socketAt ref = so' at hso
    cases hso with
    | none => exact .error _
    | some hso => exact .ok ⟨rfl, hso⟩

theorem DaemonRel.udpPcb_eq (h : DaemonRel R d d') (i : Nat) : d'.udpPcb i = d.udpPcb i := by
  rw [Daemon.udpPcb, Daemon.udpPcb, option_eq_of_rel (h.udpSlot i).pcb]

theorem DaemonRel.tcpPcb (h : DaemonRel R d d') (i : Nat) :
    Agree SameConnection (d.tcpPcb i) (d'.tcpPcb i) := by
  have hpcb := (h.tcpSlot i).pcb
  unfold Daemon.tcpPcb
  generalize (d.tcpSlot i).pcb = pcb, (d'.tcpSlot i).pcb = pcb' at hpcb
  cases hpcb with
  | none => exact .error _
  | some hsame => exact .ok hsame

/-- Related daemons, and related responses. -/
def ResultRel (R : SockaddrIn → SockaddrIn → Prop) (r r' : Daemon × Response) : Prop :=
  DaemonRel R r.1 r'.1 ∧ ReplyRel R r.2 r'.2

theorem socketCall_rel (h : DaemonRel R d d') (mem mem' : Uninit) (ch : Nat) (domain type : Int32) :
    Agree (ResultRel R) (socketCall d mem ch domain type) (socketCall d' mem' ch domain type) := by
  have hnew : ∀ nonblocking, SocketRel R
      ({ type := .UDP, nonblocking := nonblocking } : Socket)
        { type := .UDP, nonblocking := nonblocking } :=
    fun _ => .refl_of_empty rfl
  have hnewTcp : ∀ nonblocking, SocketRel R
      ({ type := .TCP, nonblocking := nonblocking } : Socket)
        { type := .TCP, nonblocking := nonblocking } :=
    fun _ => .refl_of_empty rfl
  unfold socketCall
  rw [h.socketOf_eq, h.rrChannel_eq, h.stack.udp.length_eq, h.stack.tcp.length_eq]
  split
  · exact .error _
  · split
    · exact .error _
    · dsimp only
      split
      · refine .ok ⟨(DaemonRel.release ?_ _).setRRChannel ch _, .same rfl⟩
        refine ⟨h.rrChannels, h.stackAddr, h.stack.defrager, h.stack.udpPort, h.stack.tcpPort,
          h.stack.udp, forall₂_append h.stack.tcp ⟨.some ⟨?_, rfl, rfl⟩, .some (hnewTcp _)⟩⟩
        rw [h.stackAddr]
        rfl
      · refine .ok ⟨(DaemonRel.release ?_ _).setRRChannel ch _, .same rfl⟩
        refine ⟨h.rrChannels, h.stackAddr, h.stack.defrager, h.stack.udpPort, h.stack.tcpPort,
          forall₂_append h.stack.udp ⟨.some ?_, .some (hnew _)⟩, h.stack.tcp⟩
        rw [h.stackAddr]

theorem DaemonRel.udpCalled (h : DaemonRel R d d') (i : Nat) (port : UInt16) (pcb : Pcb) :
    DaemonRel R (udpCalled d i port pcb) (udpCalled d' i port pcb) := by
  have hcalled := h.setUdpSlot ((h.udpSlot i).withPcb (rfl : pcb = pcb)) i
  exact ⟨hcalled.rrChannels, hcalled.stackAddr, hcalled.stack.defrager, rfl, hcalled.stack.tcpPort,
    hcalled.stack.udp, hcalled.stack.tcp⟩

theorem DaemonRel.tcpCalled (h : DaemonRel R d d') (i : Nat) (port : UInt16) {pcb pcb' : TcpPcb}
    (hpcb : SameConnection pcb pcb') :
    DaemonRel R (tcpCalled d i port pcb) (tcpCalled d' i port pcb') := by
  have hcalled := h.setTcpSlot ((h.tcpSlot i).withPcb hpcb) i
  exact ⟨hcalled.rrChannels, hcalled.stackAddr, hcalled.stack.defrager, hcalled.stack.udpPort, rfl,
    hcalled.stack.udp, hcalled.stack.tcp⟩

theorem tcpSend_ret (port : UInt16) (pcb : TcpPcb) (buf : List UInt8) :
    (TcpPcb.send port pcb buf).2.2.1 =
      if pcb.connState = .CLOSED ∨ pcb.connState = .ESTABLISHED then (buf.length : Int) else 0 := by
  unfold TcpPcb.send
  dsimp only
  split
  · rename_i hclosed
    rw [if_pos (.inl hclosed)]
  · rename_i hestab
    rw [if_pos (.inr hestab)]
  · rename_i hclosed hestab
    rw [if_neg (not_or.mpr ⟨hclosed, hestab⟩)]

/-- `TcpPcb::send` on the same connection: the same port and result. -/
theorem tcpSend_rel {pcb pcb' : TcpPcb} (h : SameConnection pcb pcb') (port : UInt16)
    (buf : List UInt8) :
    (TcpPcb.send port pcb' buf).1 = (TcpPcb.send port pcb buf).1 ∧
      SameConnection (TcpPcb.send port pcb buf).2.1 (TcpPcb.send port pcb' buf).2.1 ∧
      (TcpPcb.send port pcb' buf).2.2.1 = (TcpPcb.send port pcb buf).2.2.1 := by
  refine ⟨?_, ⟨?_, ?_, ?_⟩, ?_⟩
  · rw [(TcpIntegrity.send_toPcb port pcb' buf).1, (TcpIntegrity.send_toPcb port pcb buf).1,
      h.toPcb]
  · rw [(TcpIntegrity.send_toPcb port pcb' buf).2, (TcpIntegrity.send_toPcb port pcb buf).2,
      h.toPcb]
  · rw [send_connState, send_connState, h.connState]
  · rw [send_onConnEstabCB, send_onConnEstabCB, h.onConnEstabCB]
  · rw [tcpSend_ret, tcpSend_ret, h.connState]

theorem tcpConnect_rel {pcb pcb' : TcpPcb} (h : SameConnection pcb pcb') (port : UInt16)
    (faddr : UInt32) (fport : UInt16) :
    (TcpPcb.connect port pcb' faddr fport).1 = (TcpPcb.connect port pcb faddr fport).1 ∧
      SameConnection (TcpPcb.connect port pcb faddr fport).2.1
        (TcpPcb.connect port pcb' faddr fport).2.1 := by
  unfold TcpPcb.connect
  rw [h.toPcb]
  generalize Pcb.connect port pcb.toPcb faddr fport = r
  have hconnected : SameConnection { pcb with toPcb := r.2 } { pcb' with toPcb := r.2 } :=
    ⟨rfl, h.connState, h.onConnEstabCB⟩
  obtain ⟨hport, hsame, -⟩ := tcpSend_rel hconnected r.1 []
  exact ⟨hport, hsame⟩

theorem connectCall_rel (h : DaemonRel R d d') (ch : Nat) (addr : List UInt8) :
    Agree (ResultRel R) (connectCall d ch addr) (connectCall d' ch addr) := by
  unfold connectCall
  refine (Agree.refl (fun _ => rfl) (destAddr addr)).bind (T := Eq) ?_
  rintro dest _ rfl
  refine (h.socket ch).bind ?_
  rintro ⟨ref, so⟩ ⟨ref', so'⟩ ⟨href, hso⟩
  dsimp only at href hso ⊢
  subst href
  rw [hso.fields.1, hso.fields.2.1, h.stack.udpPort, h.stack.tcpPort]
  split
  · rw [h.udpPcb_eq]
    refine (Agree.refl (fun _ => rfl) (d.udpPcb ref'.index)).bind (T := Eq) ?_
    rintro pcb _ rfl
    exact .ok ⟨h.udpCalled _ _ _, .same rfl⟩
  · split
    · exact .ok ⟨h, .same rfl⟩
    · refine (h.tcpPcb ref'.index).bind ?_
      intro pcb pcb' hsame
      have hcb : SameConnection { pcb with onConnEstabCB := some ch }
          { pcb' with onConnEstabCB := some ch } := ⟨hsame.toPcb, hsame.connState, rfl⟩
      obtain ⟨hport, hconnected⟩ := tcpConnect_rel hcb d.stack.tcp.port dest.sinAddr dest.sinPort
      refine .ok ⟨?_, .same rfl⟩
      dsimp only
      rw [hport]
      exact h.tcpCalled _ _ hconnected

theorem sendtoCall_rel (h : DaemonRel R d d') (ch : Nat) (buf : List UInt8)
    (addr : Option (List UInt8)) :
    Agree (ResultRel R) (sendtoCall d ch buf addr) (sendtoCall d' ch buf addr) := by
  unfold sendtoCall
  refine (h.socket ch).bind ?_
  rintro ⟨ref, so⟩ ⟨ref', so'⟩ ⟨href, hso⟩
  dsimp only at href hso ⊢
  subst href
  rw [hso.fields.1, h.udpPcb_eq, h.stack.udpPort, h.stack.tcpPort]
  split
  · split
    · refine (Agree.refl (fun _ => rfl) (destAddr _)).bind (T := Eq) ?_
      rintro dest _ rfl
      refine (Agree.refl (fun _ => rfl) (d.udpPcb ref'.index)).bind (T := Eq) ?_
      rintro pcb _ rfl
      exact .ok ⟨h.udpCalled _ _ _, .same rfl⟩
    · refine (Agree.refl (fun _ => rfl) (d.udpPcb ref'.index)).bind (T := Eq) ?_
      rintro pcb _ rfl
      exact .ok ⟨h.udpCalled _ _ _, .same rfl⟩
  · refine (h.tcpPcb ref'.index).bind ?_
    intro pcb pcb' hsame
    obtain ⟨hport, hsent, hret⟩ := tcpSend_rel hsame d.stack.tcp.port buf
    refine .ok ⟨?_, ?_⟩
    · dsimp only
      rw [hport]
      exact h.tcpCalled _ _ hsent
    · dsimp only
      rw [hret]
      exact .same rfl

theorem packetResponse_rel {entry entry' : Entry} (h : EntryRel R entry entry')
    (requireAddr : Bool) :
    Agree (ReplyRel R) (packetResponse requireAddr entry) (packetResponse requireAddr entry') := by
  unfold packetResponse
  rw [h.chain]
  split
  · exact .error _
  · rename_i buf _
    rcases requireAddr with _ | _
    · exact .ok (.same rfl)
    · exact .ok (.packet buf h.addr)

theorem recvfrom_rel {so so' : Socket} (h : SocketRel R so so') (ch : Nat) (requireAddr : Bool) :
    Agree (fun r r' => SocketRel R r.1 r'.1 ∧ ReplyRel R r.2 r'.2) (recvfrom so ch requireAddr)
      (recvfrom so' ch requireAddr) := by
  obtain ⟨htype, hnonblocking, -, -⟩ := h.fields
  have htaken := h.tryTakeFromRecvQ
  unfold recvfrom
  rw [htype, hnonblocking]
  generalize so.tryTakeFromRecvQ = taken, so'.tryTakeFromRecvQ = taken' at htaken
  cases htaken with
  | some hrest =>
      refine (packetResponse_rel hrest.1 requireAddr).map ?_
      intro resp resp' hresp
      exact ⟨hrest.2, hresp⟩
  | none =>
      dsimp only
      split
      · exact .ok ⟨h, .same rfl⟩
      · exact .ok ⟨(h.setOnAsyncNewPacketCB _).setWaiting true, .same rfl⟩

theorem recvfromCall_rel (h : DaemonRel R d d') (ch : Nat) (requireAddr : Bool) :
    Agree (ResultRel R) (recvfromCall d ch requireAddr) (recvfromCall d' ch requireAddr) := by
  unfold recvfromCall
  refine (h.socket ch).bind ?_
  rintro ⟨ref, so⟩ ⟨ref', so'⟩ ⟨href, hso⟩
  dsimp only at href hso ⊢
  subst href
  refine (recvfrom_rel hso ch requireAddr).bind ?_
  rintro ⟨taken, resp⟩ ⟨taken', resp'⟩ ⟨htaken, hresp⟩
  exact .ok ⟨h.setSocketAt htaken ref', hresp⟩

theorem nameOf_eq (h : DaemonRel R d d') (ch : Nat) (name : Pcb → SockaddrIn) :
    Agree Eq (nameOf d ch name) (nameOf d' ch name) := by
  unfold nameOf
  refine (h.socket ch).bind ?_
  rintro ⟨ref, so⟩ ⟨ref', so'⟩ ⟨href, -⟩
  dsimp only at href ⊢
  subst href
  split
  · rw [h.udpPcb_eq]
    exact .refl (fun _ => rfl) _
  · refine (h.tcpPcb ref'.index).bind ?_
    intro pcb pcb' hsame
    rw [hsame.toPcb]
    exact .ok rfl

theorem handleRequest_rel (h : DaemonRel R d d') (mem mem' : Uninit) (ch : Nat) (req : Request) :
    Agree (ResultRel R) (handleRequest d mem ch req) (handleRequest d' mem' ch req) := by
  unfold handleRequest
  generalize req.calling = calling
  cases calling with
  | socketCall domain type protocol => exact socketCall_rel h mem mem' ch domain type
  | connectCall addr => exact connectCall_rel h ch addr
  | recvfromCall len flags requireAddr => exact recvfromCall_rel h ch requireAddr
  | sendtoCall buf flags addr => exact sendtoCall_rel h ch buf addr
  | getpeernameCall =>
      refine (nameOf_eq h ch _).bind ?_
      rintro name _ rfl
      exact .ok ⟨h, .same rfl⟩
  | getsocknameCall =>
      refine (nameOf_eq h ch _).bind ?_
      rintro name _ rfl
      exact .ok ⟨h, .same rfl⟩
  | atstartAction progname =>
      unfold atstartAction
      dsimp only
      rw [h.rrChannel_eq]
      exact .ok ⟨h.setRRChannel ch _, .same rfl⟩
  | _ => exact .ok ⟨h, .same rfl⟩

theorem byteSize_rel {resp resp' : Response} (h : ReplyRel R resp resp') :
    resp'.isInitialized = resp.isInitialized ∧ resp'.byteSize = resp.byteSize := by
  cases h with
  | same => exact ⟨rfl, rfl⟩
  | packet buf =>
      refine ⟨rfl, ?_⟩
      simp [Response.byteSize, Returning.byteSize, Returning.fieldsSize, retOk, optionalSize,
        bytesFieldSize]

theorem write_rel {resp resp' : Response} (h : ReplyRel R resp resp') :
    Agree (ReplyRel R) (write resp) (write resp') := by
  obtain ⟨hinit, hsize⟩ := byteSize_rel h
  unfold write
  rw [hinit, hsize]
  split
  · exact .error _
  · split
    · exact .error _
    · exact .ok h

theorem onReadReady_rel (h : DaemonRel R d d') (mem mem' : Uninit) (ch : Nat) (result : ReadResult)
    (writeFails : Bool) :
    Agree (fun r r' => DaemonRel R r.1 r'.1) (onReadReady d mem ch result writeFails)
      (onReadReady d' mem' ch result writeFails) := by
  cases result with
  | again => exact .ok h
  | eof =>
      refine .ok ?_
      rw [Daemon.removeRRChannel, Daemon.removeRRChannel, h.socketOf_eq]
      exact (h.release _).setRRChannel ch none
  | error => exact .error _
  | message req =>
      unfold onReadReady
      refine (handleRequest_rel h mem mem' ch req).bind ?_
      rintro ⟨handled, resp⟩ ⟨handled', resp'⟩ ⟨hhandled, hresp⟩
      refine (write_rel hresp).bind ?_
      intro sent sent' _
      dsimp only
      split
      · refine .ok ?_
        rw [hhandled.rrChannel_eq]
        exact hhandled.setRRChannel ch _
      · exact .ok hhandled

theorem onAsyncNewPacket_rel {so so' : Socket} (h : SocketRel R so so') (cb : OnAsyncNewPacket) :
    Agree (fun r r' => SocketRel R r.1 r'.1 ∧ ReplyRel R r.2 r'.2)
      (RequestHandler.onAsyncNewPacket so cb) (RequestHandler.onAsyncNewPacket so' cb) := by
  have htaken := h.tryTakeFromRecvQ
  unfold RequestHandler.onAsyncNewPacket
  generalize so.tryTakeFromRecvQ = taken, so'.tryTakeFromRecvQ = taken' at htaken
  cases htaken with
  | none => exact .error _
  | some hrest =>
      refine (packetResponse_rel hrest.1 cb.requireAddr).bind ?_
      intro resp resp' hresp
      refine (write_rel hresp).bind ?_
      intro sent sent' hsent
      exact .ok ⟨hrest.2, hsent⟩

theorem sChannelReadCb_rel {so so' : Socket} (h : SocketRel R so so') :
    Agree (fun r r' => SocketRel R r.1 r'.1 ∧ Option.Rel (ReplyRel R) r.2 r'.2) (sChannelReadCb so)
      (sChannelReadCb so') := by
  have hdrained := h.drainNotifyPipe
  obtain ⟨-, -, hwaiting, hcb⟩ := hdrained.fields
  unfold sChannelReadCb
  dsimp only
  rw [hwaiting, hcb]
  split
  · split
    · exact .ok ⟨hdrained.setWaiting false, .none⟩
    · rename_i cb _
      refine (onAsyncNewPacket_rel hdrained cb).map ?_
      rintro ⟨taken, sent⟩ ⟨taken', sent'⟩ ⟨htaken, hsent⟩
      exact ⟨htaken.setWaiting false, .some hsent⟩
  · exact .ok ⟨hdrained, .none⟩

end Handlers

inductive StateRel (R : SockaddrIn → SockaddrIn → Prop) :
    DaemonSurvival.State → DaemonSurvival.State → Prop
  | running {d d' : Daemon} : DaemonRel R d d' → StateRel R (.running d) (.running d')
  | failed (fault : Fault) : StateRel R (.failed fault) (.failed fault)

section Runs

variable {R : SockaddrIn → SockaddrIn → Prop}

theorem polled_eq {d d' : Daemon} (h : DaemonRel R d d') (ch : Nat) :
    polled d' ch = polled d ch := by
  rw [polled, polled, h.rrChannel_eq]

/-- One step of two runs on the same input. -/
theorem next_rel (hkept : KeptBySets R) {s s' : DaemonSurvival.State} {a a' : Label}
    (h : StateRel R s s') (ha : SameInput R a a') :
    Option.Rel (StateRel R) (started.next s a) (started.next s' a') := by
  cases h with
  | failed fault => exact .none
  | @running d d' hd =>
      cases ha with
      | accept => exact .some (.running ⟨by simp [accept, hd.rrChannels], hd.stackAddr, hd.stack⟩)
      | rx skbuf hu =>
          exact .some (.running ⟨hd.rrChannels, hd.stackAddr, rx_rel hkept hu hd.stack skbuf⟩)
      | hangUp ch =>
          simp only [started, DaemonSurvival.next, polled_eq hd]
          split
          · rw [Daemon.removeRRChannel, Daemon.removeRRChannel, hd.socketOf_eq]
            exact .some (.running ((hd.release _).setRRChannel ch none))
          · exact .none
      | read mem mem' ch result writeFails =>
          have hread := onReadReady_rel hd mem mem' ch result writeFails
          simp only [started, DaemonSurvival.next, polled_eq hd]
          split
          · generalize onReadReady d mem ch result writeFails = r,
              onReadReady d' mem' ch result writeFails = r' at hread
            cases hread with
            | ok hd' => exact .some (.running hd')
            | error fault => exact .some (.failed fault)
          · exact .none
      | notified ref =>
          have hso := hd.socketAt ref
          simp only [started, DaemonSurvival.next]
          generalize d.socketAt ref = so, d'.socketAt ref = so' at hso
          cases hso with
          | none => exact .none
          | @some so so' hso =>
              have hrun := sChannelReadCb_rel hso
              dsimp only
              generalize sChannelReadCb so = r, sChannelReadCb so' = r' at hrun
              cases hrun with
              | ok htaken => exact .some (.running (hd.setSocketAt htaken.1 ref))
              | error fault => exact .none

/-- What a step writes in answer to a request to receive. -/
def recvfromReply (d : Daemon) : Label → Option Response
  | .read mem ch (.message req) _ =>
      match req.calling with
      | .recvfromCall _ _ _ =>
          if polled d ch then
            ((handleRequest d mem ch req).bind fun r => write r.2).toOption
          else none
      | _ => none
  | .notified ref =>
      (d.socketAt ref).bind fun so => (sChannelReadCb so).toOption.bind Prod.snd
  | _ => none

theorem toOption_rel {ε α β : Type} {T : α → β → Prop} {x : Except ε α} {y : Except ε β}
    (h : Agree T x y) : Option.Rel T x.toOption y.toOption := by
  cases h with
  | ok hab => exact .some hab
  | error => exact .none

theorem recvfromReply_rel {Q : SockaddrIn → SockaddrIn → Prop} {d d' : Daemon} {a a' : Label}
    (h : DaemonRel R d d') (ha : SameInput Q a a') :
    Option.Rel (ReplyRel R) (recvfromReply d a) (recvfromReply d' a') := by
  cases ha with
  | accept => exact .none
  | rx => exact .none
  | hangUp => exact .none
  | read mem mem' ch result writeFails =>
      cases result with
      | message req =>
          have hhandled := handleRequest_rel h mem mem' ch req
          unfold recvfromReply
          dsimp only
          rw [polled_eq h]
          split
          · split
            · refine toOption_rel (hhandled.bind ?_)
              exact fun r r' hr => write_rel hr.2
            · exact .none
          · exact .none
      | _ => exact .none
  | notified ref =>
      have hso := h.socketAt ref
      unfold recvfromReply
      dsimp only
      generalize d.socketAt ref = so, d'.socketAt ref = so' at hso
      cases hso with
      | none => exact .none
      | @some so so' hso =>
          have hrun := toOption_rel (sChannelReadCb_rel hso)
          rw [Option.bind_some, Option.bind_some]
          generalize (sChannelReadCb so).toOption = r, (sChannelReadCb so').toOption = r' at hrun
          cases hrun with
          | none => exact .none
          | some hr => exact hr.2

end Runs

/-- A step that answers a request for the peer's address with a packet.  The callback
of a TCP socket never does. -/
inductive CarriesAddr (d : Daemon) : Label → Prop
  | read {mem : Uninit} {ch : Nat} {ref : SocketRef} {so : Socket} {entry : Entry}
      {rest : List Entry} {len flags : Int32} {pid : UInt64} {writeFails : Bool} :
      polled d ch = true → HasSocket d ch ref so → so.recvQ = entry :: rest →
      ReplyFits true entry.2 → CarriesAddr d
        (.read mem ch (.message { calling := .recvfromCall len flags true, pid := pid }) writeFails)
  | notified {ref : SocketRef} {so : Socket} {cb : OnAsyncNewPacket} {entry : Entry}
      {rest : List Entry} : d.socketAt ref = some so → so.waiting = true →
      so.onAsyncNewPacket = some cb → cb.requireAddr = true → so.recvQ = entry :: rest →
      ReplyFits true entry.2 → CarriesAddr d (.notified ref)

theorem packetResponse_of_fits {entry : Entry} (h : ReplyFits true entry.2) :
    ∃ resp, packetResponse true entry = .ok resp ∧ write resp = .ok resp ∧
      (addrOf resp).isSome := by
  obtain ⟨resp, hresp, hsendable⟩ := (packetResponse_sendable_iff true entry).mpr h
  refine ⟨resp, hresp, write_eq_ok_iff.mpr ⟨hsendable, rfl⟩, ?_⟩
  unfold packetResponse at hresp
  split at hresp
  · cases hresp
  · cases hresp
    rfl

theorem requireAddr_of_addr {entry : Entry} {requireAddr : Bool} {resp : Response}
    (h : packetResponse requireAddr entry = .ok resp) (haddr : (addrOf resp).isSome) :
    requireAddr = true := by
  unfold packetResponse at h
  split at h
  · cases h
  · cases h
    rcases requireAddr with _ | _
    · cases haddr
    · rfl

theorem reply_of_carriesAddr {d : Daemon} {a : Label} (h : CarriesAddr d a) :
    ∃ resp, recvfromReply d a = some resp ∧ (addrOf resp).isSome := by
  cases h with
  | @read mem ch ref so entry rest len flags pid writeFails hpolled hsocket hqueue hfits =>
      obtain ⟨resp, hresp, hwrite, haddr⟩ := packetResponse_of_fits hfits
      have htake : so.tryTakeFromRecvQ = some (entry, { so with recvQ := rest }) := by
        rw [Socket.tryTakeFromRecvQ, hqueue]
      have hrecvfrom : recvfrom so ch true = .ok ({ so with recvQ := rest }, resp) := by
        rw [recvfrom, htake]
        exact map_eq_ok_iff.mpr ⟨resp, hresp, rfl⟩
      have hhandled : recvfromCall d ch true =
          .ok (d.setSocketAt ref { so with recvQ := rest }, resp) :=
        bind_eq_ok_iff.mpr ⟨(ref, so), socket_eq_ok_iff.mpr hsocket,
          bind_eq_ok_iff.mpr ⟨_, hrecvfrom, rfl⟩⟩
      refine ⟨resp, ?_, haddr⟩
      simp only [recvfromReply, hpolled, if_true, handleRequest]
      exact toOption_eq_some_iff.mpr (bind_eq_ok_iff.mpr ⟨_, hhandled, hwrite⟩)
  | @notified ref so cb entry rest hso hwaiting hcb hrequire hqueue hfits =>
      obtain ⟨resp, hresp, hwrite, haddr⟩ := packetResponse_of_fits hfits
      rw [← hrequire] at hresp
      have htake : so.drainNotifyPipe.tryTakeFromRecvQ =
          some (entry, { so.drainNotifyPipe with recvQ := rest }) := by
        simp [Socket.tryTakeFromRecvQ, Socket.drainNotifyPipe, hqueue]
      have hrun : RequestHandler.onAsyncNewPacket so.drainNotifyPipe cb =
          .ok ({ so.drainNotifyPipe with recvQ := rest }, resp) := by
        unfold RequestHandler.onAsyncNewPacket
        rw [htake]
        exact bind_eq_ok_iff.mpr ⟨resp, hresp, bind_eq_ok_iff.mpr ⟨resp, hwrite, rfl⟩⟩
      refine ⟨resp, ?_, haddr⟩
      have hdrained : so.drainNotifyPipe.waiting = true ∧
          so.drainNotifyPipe.onAsyncNewPacket = some cb := ⟨hwaiting, hcb⟩
      simp only [recvfromReply, hso, Option.bind_some, sChannelReadCb, hdrained.1, hdrained.2,
        if_true, hrun]
      rfl

theorem carriesAddr_of_reply {d : Daemon} {a : Label} {resp : Response}
    (hreply : recvfromReply d a = some resp) (haddr : (addrOf resp).isSome) :
    CarriesAddr d a := by
  cases a with
  | read mem ch result writeFails =>
      rcases result with ⟨⟨calling, pid⟩⟩ | _ | _ | _
      · unfold recvfromReply at hreply
        dsimp only at hreply
        split at hreply
        · rename_i len flags requireAddr
          split at hreply
          · rename_i hpolled
            have hok := toOption_eq_some_iff.mp hreply
            obtain ⟨⟨d', handled⟩, hhandled, hwrite⟩ := bind_eq_ok_iff.mp hok
            obtain ⟨hsendable, rfl⟩ := write_eq_ok_iff.mp hwrite
            obtain ⟨⟨ref, so⟩, hsocket, hcall⟩ := bind_eq_ok_iff.mp hhandled
            obtain ⟨⟨so', received⟩, hrecvfrom, hend⟩ := bind_eq_ok_iff.mp hcall
            cases hend
            cases recvfrom_exit hrecvfrom with
            | again => cases haddr
            | waitNext => cases haddr
            | packet hqueue hresp =>
                obtain rfl := requireAddr_of_addr hresp haddr
                exact .read hpolled (socket_eq_ok_iff.mp hsocket) hqueue
                  ((packetResponse_sendable_iff true _).mp ⟨_, hresp, hsendable⟩)
          · cases hreply
        · cases hreply
      · cases hreply
      · cases hreply
      · cases hreply
  | notified ref =>
      obtain ⟨so, hso, hrun⟩ := Option.bind_eq_some_iff.mp hreply
      obtain ⟨⟨so', sent⟩, hok, hsent⟩ := Option.bind_eq_some_iff.mp hrun
      have heffect := HandlerAnswers.sChannelReadCb_effect (toOption_eq_some_iff.mp hok)
      dsimp only at hsent
      subst hsent
      cases heffect with
      | replied hwaiting hcb hqueue hresp hsendable =>
          have hrequire := requireAddr_of_addr hresp haddr
          rw [hrequire] at hresp
          exact .notified hso hwaiting hcb hrequire hqueue
            ((packetResponse_sendable_iff true _).mp ⟨resp, hresp, hsendable⟩)
  | _ => cases hreply

theorem carriesAddr_iff (d : Daemon) (a : Label) :
    CarriesAddr d a ↔ ∃ resp, recvfromReply d a = some resp ∧ (addrOf resp).isSome := by
  constructor
  · exact reply_of_carriesAddr
  · rintro ⟨resp, hreply, haddr⟩
    exact carriesAddr_of_reply hreply haddr

/-- Whatever the uninitialised memory holds. -/
def Any (_ _ : SockaddrIn) : Prop := True

/-- The padding differs, which nothing in the daemon sets. -/
def PaddingDiffers (addr addr' : SockaddrIn) : Prop :=
  addr.sinZero ≠ addr'.sinZero

theorem keptBySets_any : KeptBySets Any :=
  fun _ _ _ _ _ _ => trivial

theorem keptBySets_padding : KeptBySets PaddingDiffers :=
  fun _ _ _ _ _ hne => hne

/-- The same step, with other padding where a packet arrives. -/
def repad : Label → Label
  | .rx uninit skbuf => .rx { uninit with sinZero := uninit.sinZero + 1 } skbuf
  | a => a

theorem repad_padding (a : Label) : SameInput PaddingDiffers a (repad a) := by
  cases a with
  | accept => exact .accept
  | read mem ch result writeFails => exact .read _ _ _ _ _
  | hangUp ch => exact .hangUp ch
  | rx uninit skbuf =>
      refine .rx skbuf ?_
      intro heq
      have hsucc := congrArg UInt64.toNat heq
      dsimp only at hsucc
      rw [UInt64.toNat_add] at hsucc
      change _ = (uninit.sinZero.toNat + 1) % 18446744073709551616 at hsucc
      have hlt := uninit.sinZero.toNat_lt
      omega
  | notified ref => exact .notified ref

theorem SameInput.mono {R Q : SockaddrIn → SockaddrIn → Prop}
    (hRQ : ∀ addr addr', R addr addr' → Q addr addr')
    {a a' : Label} (h : SameInput R a a') : SameInput Q a a' := by
  cases h with
  | accept => exact .accept
  | read => exact .read _ _ _ _ _
  | hangUp => exact .hangUp _
  | rx skbuf hu => exact .rx skbuf (hRQ _ _ hu)
  | notified => exact .notified _

theorem bytes_ne {addr addr' : SockaddrIn} (h : PaddingDiffers addr addr') :
    addr.bytes ≠ addr'.bytes := by
  intro heq
  have hpadding := (List.append_inj' heq (by simp)).2
  exact h (UInt64.toNat_inj.mp (bytesLE_inj addr.sinZero.toNat_lt addr'.sinZero.toNat_lt hpadding))

theorem ReplyRel.ne {resp resp' : Response} (h : ReplyRel PaddingDiffers resp resp')
    (haddr : (addrOf resp).isSome) : resp' ≠ resp := by
  cases h with
  | same hnone =>
      rw [hnone] at haddr
      cases haddr
  | packet buf hpadding =>
      intro heq
      exact bytes_ne hpadding (Option.some.inj (congrArg addrOf heq)).symm

theorem daemonRel_initial {R : SockaddrIn → SockaddrIn → Prop} {d : Daemon}
    (h : started.initial (.running d)) : DaemonRel R d d := by
  obtain ⟨_, ⟨⟩, -, hudp, htcp, -⟩ := h
  refine ⟨rfl, rfl, rfl, rfl, rfl, ?_, ?_⟩
  · rw [hudp]
    exact .nil
  · rw [htcp]
    exact .nil

/-- Two runs on the same input go on together. -/
theorem exec_rel {R : SockaddrIn → SockaddrIn → Prop} (hkept : KeptBySets R) {d₀ d : Daemon}
    (hinitial : started.initial (.running d₀)) {labels labels' : List Label}
    (hinput : List.Forall₂ (SameInput R) labels labels')
    (hexec : started.exec (.running d₀) labels = some (.running d)) :
    ∃ d', started.exec (.running d₀) labels' = some (.running d') ∧ DaemonRel R d d' := by
  have hrel := exec_related (M := started) (fun _ _ _ _ hs ha => next_rel hkept hs ha) hinput
    (.running (daemonRel_initial hinitial))
  rw [hexec] at hrel
  generalize hexec' : started.exec (.running d₀) labels' = reached at hrel
  cases hrel with
  | some hstate =>
      cases hstate with
      | running hd => exact ⟨_, rfl, hd⟩

/-- After any run the reply of the next step is the same in every run on the same
packets and requests, unless it carries the peer's address: then it is not. -/
theorem replies_determined_iff {d₀ d : Daemon} {labels : List Label}
    (hinitial : started.initial (.running d₀))
    (hexec : started.exec (.running d₀) labels = some (.running d)) (a : Label) :
    (∀ labels' a', List.Forall₂ (SameInput Any) labels labels' → SameInput Any a a' →
      ∃ d', started.exec (.running d₀) labels' = some (.running d') ∧
        recvfromReply d' a' = recvfromReply d a) ↔ ¬ CarriesAddr d a := by
  constructor
  · intro hdetermined hcarries
    have hpadded : List.Forall₂ (SameInput PaddingDiffers) labels (labels.map repad) := by
      rw [List.forall₂_map_right_iff]
      exact List.forall₂_same.mpr fun b _ => repad_padding b
    obtain ⟨d', hexec', hrel⟩ := exec_rel keptBySets_padding hinitial hpadded hexec
    obtain ⟨d'', hexec'', hsame⟩ := hdetermined _ _
      (hpadded.imp fun _ _ h => h.mono fun _ _ _ => trivial)
      ((repad_padding a).mono fun _ _ _ => trivial)
    rw [hexec', Option.some.injEq, DaemonSurvival.State.running.injEq] at hexec''
    subst hexec''
    obtain ⟨resp, hreply, haddr⟩ := (carriesAddr_iff d a).mp hcarries
    have hreplies := recvfromReply_rel hrel (repad_padding a)
    rw [hsame, hreply] at hreplies
    cases hreplies with
    | some hresp => exact hresp.ne haddr rfl
  · intro hcarries labels' a' hlabels ha
    obtain ⟨d', hexec', hrel⟩ := exec_rel keptBySets_any hinitial hlabels hexec
    refine ⟨d', hexec', ?_⟩
    have hreplies := recvfromReply_rel hrel ha
    generalize hreply : recvfromReply d a = reply at hreplies ⊢
    generalize recvfromReply d' a' = reply' at hreplies ⊢
    cases hreplies with
    | none => rfl
    | some hresp =>
        cases hresp with
        | same => rfl
        | packet => exact absurd ((carriesAddr_iff d a).mpr ⟨_, hreply, rfl⟩) hcarries

def sampleStart : Daemon :=
  { sampleDaemon with stackAddr := 0x0200000a }

/-- What a server answers to the first datagram of the client's UDP socket. -/
def sampleAnswer : SocketBuffer :=
  tunDeviceRx ([0x45, 0, 0, 29, 0, 7, 0, 0, 64, 17, 0, 0, 10, 0, 0, 1, 10, 0, 0, 2] ++
    [0, 53, 4, 1, 0, 9, 0, 0] ++ [42])

def sampleLabels (uninit : SockaddrIn) : List Label :=
  [.accept, sampleRead (.socketCall 2 2 0),
    sampleRead (.sendtoCall [1] 0 (some ReplyShape.sampleAddr)),
    .rx uninit sampleAnswer]

def otherUninit : SockaddrIn :=
  { SockaddrIn.zero with sinZero := 1 }

theorem sampleStart_initial : started.initial (.running sampleStart) :=
  ⟨sampleStart, rfl, rfl, rfl, rfl, rfl⟩

theorem replies_determined_sample :
    ∃ d, started.exec (.running sampleStart) (sampleLabels .zero) = some (.running d) ∧
      ((∀ labels' a', List.Forall₂ (SameInput Any) (sampleLabels .zero) labels' →
        SameInput Any (sampleRead (.recvfromCall 16 0 false)) a' →
        ∃ d', started.exec (.running sampleStart) labels' = some (.running d') ∧
          recvfromReply d' a' = recvfromReply d (sampleRead (.recvfromCall 16 0 false))) ↔
        ¬ CarriesAddr d (sampleRead (.recvfromCall 16 0 false))) := by
  refine ⟨_, rfl, ?_⟩
  exact replies_determined_iff sampleStart_initial rfl _

/-- Two clients that send and receive the same get other last bytes of the address. -/
theorem padding_leaks :
    ¬ ∀ labels labels' d d' a, List.Forall₂ (SameInput Any) labels labels' →
      started.exec (.running sampleStart) labels = some (.running d) →
      started.exec (.running sampleStart) labels' = some (.running d') →
      recvfromReply d' a = recvfromReply d a := by
  intro hdetermined
  have hinput : List.Forall₂ (SameInput Any) (sampleLabels .zero) (sampleLabels otherUninit) := by
    refine .cons .accept (.cons ?_ (.cons ?_ (.cons ?_ .nil)))
    · exact .read _ _ _ _ _
    · exact .read _ _ _ _ _
    · exact .rx _ trivial
  have hsame := hdetermined _ _ _ _ (sampleRead (.recvfromCall 16 0 true)) hinput rfl rfl
  exact absurd hsame (by decide)

end MuQuinet.AddressLeak
