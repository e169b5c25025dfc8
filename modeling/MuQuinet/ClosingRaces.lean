import MuQuinet.DaemonSurvival
import MuQuinet.PacketEffects

namespace MuQuinet.ClosingRaces

open MuQuinet.Lib.Machines
open MuQuinet.Lib.Populations.Population (getD_set_cases)
open MuQuinet.Buffers
open MuQuinet.ChannelSockets
open MuQuinet.DaemonSurvival
open MuQuinet.DeliveryIsolation
open MuQuinet.HandlerEffects
open MuQuinet.IpHeaders
open MuQuinet.IpLayer
open MuQuinet.Pcbs
open MuQuinet.Reassembly
open MuQuinet.RequestHandler
open MuQuinet.Rpc
open MuQuinet.Sockets
open MuQuinet.TcpLayer
open MuQuinet.UdpLayer
open MuQuinet.Wire

/-- The `shared_ptr` that `Pcbs::find` returned, and the packet that is for it. -/
structure Held where
  ref : SocketRef
  peeraddr : SockaddrIn
  skbuf : SocketBuffer
  next : List SocketBuffer
deriving DecidableEq, Repr

/-- `Udp::rx` or `Tcp::rx` up to `Pcbs::find`. -/
def findPcb (st : Stack) (uninit : SockaddrIn) (hdr : IpHeader) (skbuf : SocketBuffer)
    (next : List SocketBuffer) : Option Held :=
  let skbuf := locateTransport hdr.ihl skbuf
  match protoxmap hdr.protocol with
  | some .UDP =>
      let t := Udp.fourTuple skbuf
      (st.udp.find t).map fun i =>
        { ref := { type := .UDP, index := i }
          peeraddr :=
            { uninit with sinFamily := UdpLayer.AF_INET, sinPort := t.fport, sinAddr := t.faddr }
          skbuf := skbuf
          next := next }
  | some .TCP =>
      (st.tcp.find (Tcp.fourTuple skbuf)).map fun i =>
        { ref := { type := .TCP, index := i }, peeraddr := uninit, skbuf := skbuf, next := next }
  | _ => none

/-- The round of `Ip::start` for a packet, up to `Pcbs::find`. -/
def find (st : Stack) (uninit : SockaddrIn) (skbuf : SocketBuffer) : Stack × Option Held :=
  let hdr := iphdr skbuf
  if hdr.version ≠ 4 then (st, none)
  else if skbuf.payloadEnd - skbuf.hdrsBegin.getD 0 < 20 then (st, none)
  else if isFrag skbuf then
    match defrag st.defrager skbuf with
    | none => (st, none)
    | some (defrager, []) => ({ st with defrager := defrager }, none)
    | some (defrager, packet :: next) =>
        let st := { st with defrager := defrager }
        (st, findPcb st uninit hdr packet next)
  else (st, findPcb st uninit hdr skbuf [])

/-- `UdpPcb::recv` and `TcpPcb::recv` of the PCB that is held. -/
def recv (st : Stack) (h : Held) : Stack × List Event :=
  match h.ref.type with
  | .UDP =>
      let (slot, events) :=
        UdpPcb.recv (st.udp.pcbs.getD h.ref.index .expired) h.peeraddr h.skbuf h.next
      ({ st with udp.pcbs := st.udp.pcbs.set h.ref.index slot }, events)
  | .TCP =>
      let slot := st.tcp.pcbs.getD h.ref.index .expired
      match slot.pcb with
      | none => (st, [])
      | some pcb =>
          let (slot, events) := TcpPcb.recv slot pcb h.peeraddr h.skbuf h.next
          ({ st with tcp.pcbs := st.tcp.pcbs.set h.ref.index slot }, events)

theorem demultiplex_eq (st : Stack) (uninit : SockaddrIn) (hdr : IpHeader) (skbuf : SocketBuffer)
    (next : List SocketBuffer) :
    (demultiplex st uninit hdr skbuf next).1 =
      (findPcb st uninit hdr skbuf next).elim st fun h => (recv st h).1 := by
  unfold demultiplex findPcb
  dsimp only
  generalize protoxmap hdr.protocol = protocol
  rcases protocol with _ | protocol
  · rfl
  · cases protocol with
    | UDP =>
        rcases hfind : st.udp.find (Udp.fourTuple (locateTransport hdr.ihl skbuf)) with _ | i
        · simp only [Udp.rx, hfind, Option.map_none, Option.elim_none]
        · simp only [Udp.rx, hfind, Option.map_some, Option.elim_some, recv]
    | TCP =>
        rcases hfind : st.tcp.find (Tcp.fourTuple (locateTransport hdr.ihl skbuf)) with _ | i
        · simp only [Tcp.rx, hfind, Option.map_none, Option.elim_none]
        · simp only [Tcp.rx, hfind, Option.map_some, Option.elim_some, recv]
          rcases (st.tcp.pcbs.getD i .expired).pcb with _ | pcb
          · rfl
          · rfl
    | _ => rfl

/-- Without interruption the two steps are the round that takes a packet. -/
theorem rx_eq_find_recv (st : Stack) (uninit : SockaddrIn) (skbuf : SocketBuffer) :
    (rx st uninit skbuf).1 =
      (find st uninit skbuf).2.elim (find st uninit skbuf).1
        fun h => (recv (find st uninit skbuf).1 h).1 := by
  unfold rx find
  dsimp only
  split
  · rfl
  · split
    · rfl
    · split
      · rcases defrag st.defrager skbuf with _ | ⟨defrager, _ | ⟨packet, next⟩⟩
        · rfl
        · rfl
        · exact demultiplex_eq _ _ _ _ _
      · exact demultiplex_eq _ _ _ _ _

/-- The PCB of a slot, if the IP thread holds it while a step of the other thread lets
go of its socket. -/
def hold (d d' : Daemon) : Option Held → Daemon
  | none => d'
  | some h =>
      match h.ref.type with
      | .UDP =>
          if d'.udpSlot h.ref.index = .expired then
            d'.setUdpSlot h.ref.index { pcb := (d.udpSlot h.ref.index).pcb, socket := none }
          else d'
      | .TCP =>
          if d'.tcpSlot h.ref.index = .expired then
            d'.setTcpSlot h.ref.index { pcb := (d.tcpSlot h.ref.index).pcb, socket := none }
          else d'

/-- The IP thread lets go of the PCB, which lives on if its socket does. -/
def drop (d : Daemon) (ref : SocketRef) : Daemon :=
  if d.socketAt ref = none then d.release (some ref) else d

/-- The daemon between two steps, with the PCB that the IP thread holds.
`usedDestroyed` is set when `recv` uses a socket that is gone. -/
structure State where
  daemon : Daemon
  held : Option Held
  usedDestroyed : Bool
deriving DecidableEq, Repr

inductive Label
  /-- The IP thread takes a packet and looks its PCB up. -/
  | find (uninit : SockaddrIn) (skbuf : SocketBuffer)
  /-- The IP thread calls `recv` of the PCB. -/
  | recv
  /-- The event loop thread handles an event. -/
  | event (a : DaemonSurvival.Label)
deriving DecidableEq, Repr

def isRx : DaemonSurvival.Label → Bool
  | .rx _ _ => true
  | _ => false

def next (s : State) (a : Label) : Option State :=
  if s.usedDestroyed then none
  else
    match a, s.held with
    | .find uninit skbuf, none =>
        let (stack, held) := find s.daemon.stack uninit skbuf
        some { s with daemon := { s.daemon with stack := stack }, held := held }
    | .recv, some h =>
        let (stack, events) := recv s.daemon.stack h
        some
          { daemon := drop { s.daemon with stack := stack } h.ref
            held := none
            usedDestroyed := decide (.nullSocket ∈ events) }
    | .event a, held =>
        match isRx a, DaemonSurvival.next (.running s.daemon) a with
        | false, some (.running d) => some { s with daemon := hold s.daemon d held }
        | _, _ => none
    | _, _ => none

def machine : Machine State Label where
  initial s := started.initial (.running s.daemon) ∧ s.held = none ∧ s.usedDestroyed = false
  next := next

/-- The event lets go of a socket: its channel is removed, or gets another socket. -/
def Closes (d : Daemon) (ref : SocketRef) : DaemonSurvival.Label → Prop
  | .hangUp ch => d.socketOf ch = some ref
  | .read _ ch .eof _ => d.socketOf ch = some ref
  | .read _ ch (.message req) _ => d.socketOf ch = some ref ∧ IsSocketCall req.calling
  | _ => False

/-- `recv` is going to put the packet on the socket: always for UDP, and for TCP where
the connection is established and the segment has a payload. -/
def UsesSocket (d : Daemon) (h : Held) : Prop :=
  h.ref.type = .TCP → ∃ pcb, (d.tcpSlot h.ref.index).pcb = some pcb ∧
    pcb.connState = .ESTABLISHED ∧ (TcpPcb.locatePayload h.skbuf).payloadLen ≠ 0

/-- The event loop does not let go of a socket between the lookup of its PCB and the
`recv` that uses it. -/
def Undisturbed (s : State) : Label → Prop
  | .event a => ∀ h, s.held = some h → UsesSocket s.daemon h → ¬ Closes s.daemon h.ref a
  | _ => True

/-- What an event does to an element of a protocol's list: a socket that is there
stays, unless the event lets go of it. -/
inductive EventEffect {P : Type} (closes : Prop) : Slot P → Slot P → Prop
  | unchanged (slot : Slot P) : EventEffect closes slot slot
  | closed (slot : Slot P) : closes → EventEffect closes slot .expired
  | live {slot slot' : Slot P} {so' : Socket} : (∃ so, slot.socket = some so) ∨ slot = .expired →
      slot'.socket = some so' → EventEffect closes slot slot'

def EventAt (closes : Prop) (d d' : Daemon) (ref : SocketRef) : Prop :=
  match ref.type with
  | .UDP => EventEffect closes (d.udpSlot ref.index) (d'.udpSlot ref.index)
  | .TCP => EventEffect closes (d.tcpSlot ref.index) (d'.tcpSlot ref.index)

section Events

variable {d d' : Daemon} {ch : Nat} {ref : SocketRef} {calling : Calling} {resp : Response}
  {closes : Prop}

theorem eventAt_of_stack_eq (h : d'.stack = d.stack) : EventAt closes d d' ref := by
  rcases ref with ⟨_ | _, index⟩
  · have hslot : d'.udpSlot index = d.udpSlot index := by
      rw [Daemon.udpSlot, h, Daemon.udpSlot]
    show EventEffect closes (d.udpSlot index) (d'.udpSlot index)
    rw [hslot]
    exact .unchanged _
  · have hslot : d'.tcpSlot index = d.tcpSlot index := by
      rw [Daemon.tcpSlot, h, Daemon.tcpSlot]
    show EventEffect closes (d.tcpSlot index) (d'.tcpSlot index)
    rw [hslot]
    exact .unchanged _

theorem eventAt_release (old : Option SocketRef) (hcloses : old = some ref → closes) :
    EventAt closes d (d.release old) ref := by
  rcases ref with ⟨_ | _, index⟩
  · show EventEffect closes (d.udpSlot index) ((d.release old).udpSlot index)
    rcases udpSlot_release d old index with heq | ⟨hold, heq⟩
    · rw [heq]
      exact .unchanged _
    · rw [heq]
      exact .closed _ (hcloses hold)
  · show EventEffect closes (d.tcpSlot index) ((d.release old).tcpSlot index)
    rcases tcpSlot_release d old index with heq | ⟨hold, heq⟩
    · rw [heq]
      exact .unchanged _
    · rw [heq]
      exact .closed _ (hcloses hold)

theorem eventAt_setSocketAt {ref' : SocketRef} {so : Socket} (hso : d.socketAt ref' = some so)
    (so' : Socket) : EventAt closes d (d.setSocketAt ref' so') ref := by
  rcases ref with ⟨_ | _, index⟩ <;> rcases ref' with ⟨_ | _, index'⟩
  · show EventEffect closes (d.stack.udp.pcbs.getD index .expired) _
    rcases getD_set_cases d.stack.udp.pcbs index' index
      { d.udpSlot index' with socket := some so' } .expired with heq | ⟨rfl, heq⟩
    · exact heq ▸ .unchanged _
    · exact .live (.inl ⟨so, hso⟩) (congrArg Slot.socket heq)
  · exact .unchanged _
  · exact .unchanged _
  · show EventEffect closes (d.stack.tcp.pcbs.getD index .expired) _
    rcases getD_set_cases d.stack.tcp.pcbs index' index
      { d.tcpSlot index' with socket := some so' } .expired with heq | ⟨rfl, heq⟩
    · exact heq ▸ .unchanged _
    · exact .live (.inl ⟨so, hso⟩) (congrArg Slot.socket heq)

theorem EventEffect.of_slotEffect {P : Type} {fresh : P → Prop} {called : P → P → Prop}
    {slot slot' : Slot P}
    (h : SlotEffect d ch ref calling resp fresh called slot slot')
    (hlive : d.socketOf ch = some ref → ∃ so, slot.socket = some so)
    (hcloses : d.socketOf ch = some ref → slot' = .expired → closes) :
    EventEffect closes slot slot' := by
  cases h with
  | unchanged => exact .unchanged _
  | released _ howner => exact .closed _ (hcloses howner rfl)
  | created type nonblocking => exact .live (.inr rfl) rfl
  | called socket howner =>
      obtain ⟨so, hso⟩ := hlive howner
      exact .live (.inl ⟨so, hso⟩) hso
  | received pcb => exact .live (.inl ⟨_, rfl⟩) rfl

theorem not_expired_of_alive (h : Alive d ref) : ¬ Expired d ref := by
  rcases ref with ⟨_ | _, index⟩
  · rintro hexpired
    obtain ⟨pcb, so, hslot, -⟩ := h
    cases hslot.symm.trans hexpired
  · rintro hexpired
    obtain ⟨pcb, so, hslot, -⟩ := h
    cases hslot.symm.trans hexpired

theorem eventAt_of_effects (hconn : Connected d) (h : Effects d d' ch calling resp)
    (hcloses : d.socketOf ch = some ref → Expired d' ref → closes) : EventAt closes d d' ref := by
  rcases ref with ⟨_ | _, index⟩
  · refine EventEffect.of_slotEffect (h.udp index) ?_ hcloses
    intro howner
    obtain ⟨pcb, so, hslot, -⟩ := hconn.alive ch _ howner
    exact ⟨so, congrArg Slot.socket hslot⟩
  · refine EventEffect.of_slotEffect (h.tcp index) ?_ hcloses
    intro howner
    obtain ⟨pcb, so, hslot, -⟩ := hconn.alive ch _ howner
    exact ⟨so, congrArg Slot.socket hslot⟩

theorem eventAt_handleRequest {mem : Uninit} {req : Request} (hconn : Connected d)
    (h : handleRequest d mem ch req = .ok (d', resp)) :
    EventAt (d.socketOf ch = some ref ∧ IsSocketCall req.calling) d d' ref := by
  apply eventAt_of_effects hconn (handleRequest_effects hconn h)
  intro howner hexpired
  refine ⟨howner, ?_⟩
  by_contra hcalling
  have halive := (handleRequest_keeps hcalling h).alive ref (hconn.alive ch ref howner)
  exact not_expired_of_alive halive hexpired

/-- Each event lets go of no socket but as `Closes` says. -/
theorem event_effect {a : DaemonSurvival.Label} (hconn : Connected d) (hrx : isRx a = false)
    (hnext : DaemonSurvival.next (.running d) a = some (.running d')) (ref : SocketRef) :
    EventAt (Closes d ref a) d d' ref := by
  cases next_exit hnext with
  | accept => exact eventAt_of_stack_eq rfl
  | read _ hread =>
      cases onReadReady_exit hread with
      | again => exact eventAt_of_stack_eq rfl
      | eof => exact eventAt_release _ id
      | written hcall => exact eventAt_handleRequest hconn hcall
      | @unwritten req handled _ _ hcall =>
          have heffect : EventAt (d.socketOf _ = some ref ∧ IsSocketCall req.calling) d handled
              ref := eventAt_handleRequest hconn hcall
          exact heffect
  | hangUp => exact eventAt_release _ id
  | rx => cases hrx
  | notified hso => exact eventAt_setSocketAt hso _

end Events

section Recv

theorem nullSocket_mem_deliver {P : Type} (slot : Slot P) (peeraddr : SockaddrIn)
    (skbuf : SocketBuffer) (next : List SocketBuffer) :
    .nullSocket ∈ (slot.deliver peeraddr skbuf next).2 ↔ slot.socket = none := by
  unfold Slot.deliver
  rcases slot.socket with _ | so
  · simp
  · dsimp only
    split <;> simp

theorem socket_deliver_eq_none_iff {P : Type} (slot : Slot P) (peeraddr : SockaddrIn)
    (skbuf : SocketBuffer) (next : List SocketBuffer) :
    (slot.deliver peeraddr skbuf next).1.socket = none ↔ slot.socket = none := by
  unfold Slot.deliver
  rcases hsocket : slot.socket with _ | so
  · simp [hsocket]
  · simp

theorem nullSocket_notMem_recvSynSent (pcb : TcpPcb) (hdr : TcpHeader) :
    .nullSocket ∉ (pcb.recvSynSent hdr).2 := by
  unfold TcpPcb.recvSynSent
  cases pcb.onConnEstabCB <;> cases hdr.syn && hdr.ack <;> simp

theorem nullSocket_mem_tcp_recv (slot : Slot TcpPcb) (pcb : TcpPcb) (peerAddr : SockaddrIn)
    (skbuf : SocketBuffer) (next : List SocketBuffer) :
    .nullSocket ∈ (TcpPcb.recv slot pcb peerAddr skbuf next).2 ↔
      slot.socket = none ∧ pcb.connState = .ESTABLISHED ∧
        (TcpPcb.locatePayload skbuf).payloadLen ≠ 0 := by
  have hdeliver := nullSocket_mem_deliver slot peerAddr (TcpPcb.locatePayload skbuf) next
  have hsocket := socket_deliver_eq_none_iff slot peerAddr (TcpPcb.locatePayload skbuf) next
  unfold TcpPcb.recv
  split
  · rename_i hsynSent
    refine iff_of_false (nullSocket_notMem_recvSynSent pcb _) ?_
    rw [hsynSent]
    exact fun h => absurd h.2.1 (by decide)
  · rename_i hestab
    dsimp only
    split
    · rename_i hpayload
      split
      · rename_i hnone
        rw [hdeliver]
        simp [hestab, hpayload]
      · rename_i hsome
        rw [hsocket] at hsome
        simp [hdeliver, hsome]
    · rename_i hpayload
      simp [hpayload]
  · rename_i hestab
    exact iff_of_false List.not_mem_nil fun h => hestab h.2.1

theorem nullSocket_mem_recv_iff (d : Daemon) (h : Held) :
    .nullSocket ∈ (recv d.stack h).2 ↔ d.socketAt h.ref = none ∧ UsesSocket d h := by
  rcases h with ⟨⟨_ | _, index⟩, peeraddr, skbuf, next⟩
  · simp only [recv, UdpPcb.recv, nullSocket_mem_deliver, UsesSocket, reduceCtorEq, false_implies,
      and_true]
    rfl
  · simp only [recv, UsesSocket, forall_const]
    rcases hpcb : (d.stack.tcp.pcbs.getD index .expired).pcb with _ | pcb
    · refine iff_of_false List.not_mem_nil ?_
      rintro ⟨-, pcb, hlive, -⟩
      cases hpcb.symm.trans hlive
    · simp only [nullSocket_mem_tcp_recv, Daemon.tcpSlot, hpcb, Option.some.injEq,
        exists_eq_left']
      rfl

end Recv

def Paired {P : Type} (slot : Slot P) : Prop :=
  slot.socket = none → slot = .expired

/-- No PCB outlives its socket. -/
def PairedAt (d : Daemon) (ref : SocketRef) : Prop :=
  match ref.type with
  | .UDP => Paired (d.udpSlot ref.index)
  | .TCP => Paired (d.tcpSlot ref.index)

theorem EventEffect.paired {P : Type} {closes : Prop} {slot slot' : Slot P}
    (h : EventEffect closes slot slot') (hpaired : Paired slot) : Paired slot' := by
  cases h with
  | unchanged => exact hpaired
  | closed => exact fun _ => rfl
  | live hslot hso =>
      intro hnone
      cases hso.symm.trans hnone

theorem EventAt.paired {closes : Prop} {d d' : Daemon} {ref : SocketRef}
    (h : EventAt closes d d' ref) (hpaired : PairedAt d ref) : PairedAt d' ref := by
  rcases ref with ⟨_ | _, index⟩
  · exact EventEffect.paired h hpaired
  · exact EventEffect.paired h hpaired

theorem pairedAt_of_slots {d d' : Daemon} {ref : SocketRef}
    (hudp : ∀ i, ref = { type := .UDP, index := i } → d'.udpSlot i = d.udpSlot i)
    (htcp : ∀ i, ref = { type := .TCP, index := i } → d'.tcpSlot i = d.tcpSlot i)
    (h : PairedAt d ref) : PairedAt d' ref := by
  rcases ref with ⟨_ | _, index⟩
  · show Paired (d'.udpSlot index)
    rw [hudp index rfl]
    exact h
  · show Paired (d'.tcpSlot index)
    rw [htcp index rfl]
    exact h

section Hold

variable {d d' : Daemon}

theorem udpSlot_hold (d d' : Daemon) (held : Option Held) (i : Nat) :
    (hold d d' held).udpSlot i = d'.udpSlot i ∨
      (∃ h, held = some h ∧ h.ref = { type := .UDP, index := i }) ∧ d'.udpSlot i = .expired ∧
        (hold d d' held).udpSlot i = { pcb := (d.udpSlot i).pcb, socket := none } := by
  rcases held with _ | ⟨⟨_ | _, index⟩, peeraddr, skbuf, next⟩
  · exact .inl rfl
  · unfold hold
    dsimp only
    split
    · rename_i hexpired
      rcases getD_set_cases d'.stack.udp.pcbs index i
        { pcb := (d.udpSlot index).pcb, socket := none } .expired with heq | ⟨rfl, heq⟩
      · exact .inl heq
      · exact .inr ⟨⟨_, rfl, rfl⟩, hexpired, heq⟩
    · exact .inl rfl
  · left
    unfold hold
    dsimp only
    split <;> rfl

theorem tcpSlot_hold (d d' : Daemon) (held : Option Held) (i : Nat) :
    (hold d d' held).tcpSlot i = d'.tcpSlot i ∨
      (∃ h, held = some h ∧ h.ref = { type := .TCP, index := i }) ∧ d'.tcpSlot i = .expired ∧
        (hold d d' held).tcpSlot i = { pcb := (d.tcpSlot i).pcb, socket := none } := by
  rcases held with _ | ⟨⟨_ | _, index⟩, peeraddr, skbuf, next⟩
  · exact .inl rfl
  · left
    unfold hold
    dsimp only
    split <;> rfl
  · unfold hold
    dsimp only
    split
    · rename_i hexpired
      rcases getD_set_cases d'.stack.tcp.pcbs index i
        { pcb := (d.tcpSlot index).pcb, socket := none } .expired with heq | ⟨rfl, heq⟩
      · exact .inl heq
      · exact .inr ⟨⟨_, rfl, rfl⟩, hexpired, heq⟩
    · exact .inl rfl

theorem rrChannels_hold (d d' : Daemon) (held : Option Held) :
    (hold d d' held).rrChannels = d'.rrChannels := by
  rcases held with _ | ⟨⟨_ | _, index⟩, peeraddr, skbuf, next⟩
  · rfl
  · unfold hold
    dsimp only
    split <;> rfl
  · unfold hold
    dsimp only
    split <;> rfl

theorem socketAt_hold (d d' : Daemon) (held : Option Held) (ref : SocketRef) :
    (hold d d' held).socketAt ref = d'.socketAt ref := by
  rcases ref with ⟨_ | _, index⟩
  · rcases udpSlot_hold d d' held index with heq | ⟨-, hexpired, heq⟩
    · exact congrArg Slot.socket heq
    · exact (congrArg Slot.socket heq).trans (congrArg Slot.socket hexpired).symm
  · rcases tcpSlot_hold d d' held index with heq | ⟨-, hexpired, heq⟩
    · exact congrArg Slot.socket heq
    · exact (congrArg Slot.socket heq).trans (congrArg Slot.socket hexpired).symm

theorem keeps_hold (d d' : Daemon) (held : Option Held) : Keeps d' (hold d d' held) := by
  constructor
  · intro ch
    simp only [Daemon.socketOf, Daemon.rrChannel, rrChannels_hold]
  · rintro ⟨_ | _, index⟩ ⟨pcb, so, hslot, htype⟩
    · refine ⟨pcb, so, ?_, htype⟩
      rcases udpSlot_hold d d' held index with heq | ⟨-, hexpired, -⟩
      · exact heq.trans hslot
      · cases hslot.symm.trans hexpired
    · refine ⟨pcb, so, ?_, htype⟩
      rcases tcpSlot_hold d d' held index with heq | ⟨-, hexpired, -⟩
      · exact heq.trans hslot
      · cases hslot.symm.trans hexpired

theorem pairedAt_hold {held : Option Held} {ref : SocketRef}
    (hne : ¬ ∃ h, held = some h ∧ h.ref = ref) (h : PairedAt d' ref) :
    PairedAt (hold d d' held) ref := by
  refine pairedAt_of_slots ?_ ?_ h
  · rintro i rfl
    exact (udpSlot_hold d d' held i).resolve_right fun hheld => hne hheld.1
  · rintro i rfl
    exact (tcpSlot_hold d d' held i).resolve_right fun hheld => hne hheld.1

/-- A PCB that is there after the step was there before, and the same. -/
theorem UsesSocket.of_pcb {t : Daemon} {h : Held}
    (hpcb : ∀ pcb, (t.tcpSlot h.ref.index).pcb = some pcb →
      (d.tcpSlot h.ref.index).pcb = some pcb)
    (huses : UsesSocket t h) : UsesSocket d h := by
  intro htype
  obtain ⟨pcb, hlive, hestab, hpayload⟩ := huses htype
  exact ⟨pcb, hpcb pcb hlive, hestab, hpayload⟩

theorem held_event {closes : Prop} {h : Held} (heffect : EventAt closes d d' h.ref)
    (hguard : UsesSocket d h → ¬ closes)
    (hheld : d.socketAt h.ref ≠ none ∨ ¬ UsesSocket d h) :
    (hold d d' (some h)).socketAt h.ref ≠ none ∨ ¬ UsesSocket (hold d d' (some h)) h := by
  rw [socketAt_hold]
  rcases h with ⟨⟨_ | _, index⟩, peeraddr, skbuf, next⟩
  · have huses : UsesSocket d ⟨⟨.UDP, index⟩, peeraddr, skbuf, next⟩ := by
      intro htcp
      cases htcp
    have hlive := hheld.resolve_right (not_not.mpr huses)
    left
    change EventEffect closes (d.udpSlot index) (d'.udpSlot index) at heffect
    change (d'.udpSlot index).socket ≠ none
    generalize hslot : d.udpSlot index = slot at heffect
    generalize d'.udpSlot index = slot' at heffect
    cases heffect with
    | unchanged => exact hslot ▸ hlive
    | closed hcloses => exact absurd hcloses (hguard huses)
    | live _ hso => simp [hso]
  · change EventEffect closes (d.tcpSlot index) (d'.tcpSlot index) at heffect
    have hslots := tcpSlot_hold d d' (some ⟨⟨.TCP, index⟩, peeraddr, skbuf, next⟩) index
    change (d'.tcpSlot index).socket ≠ none ∨ _
    generalize hslot : d.tcpSlot index = slot at heffect
    generalize hslot' : d'.tcpSlot index = slot' at heffect
    cases heffect with
    | unchanged =>
        refine hheld.imp (fun hlive => hslot ▸ hlive) (mt (UsesSocket.of_pcb ?_))
        intro pcb hpcb
        rcases hslots with heq | ⟨-, -, heq⟩
        · rwa [heq, hslot', ← hslot] at hpcb
        · rwa [heq] at hpcb
    | closed hcloses =>
        refine .inr (mt (UsesSocket.of_pcb ?_) fun huses => hguard huses hcloses)
        intro pcb hpcb
        rcases hslots with heq | ⟨-, -, heq⟩
        · rw [heq, hslot'] at hpcb
          cases hpcb
        · rwa [heq] at hpcb
    | live _ hso => exact .inl (by simp [hso])

end Hold

theorem stack_find (st : Stack) (uninit : SockaddrIn) (skbuf : SocketBuffer) :
    (find st uninit skbuf).1.udp = st.udp ∧ (find st uninit skbuf).1.tcp = st.tcp := by
  unfold find
  dsimp only
  split
  · exact ⟨rfl, rfl⟩
  · split
    · exact ⟨rfl, rfl⟩
    · split
      · split <;> exact ⟨rfl, rfl⟩
      · exact ⟨rfl, rfl⟩

theorem slots_find (d : Daemon) (uninit : SockaddrIn) (skbuf : SocketBuffer) :
    (∀ i, Daemon.udpSlot { d with stack := (find d.stack uninit skbuf).1 } i = d.udpSlot i) ∧
      ∀ i, Daemon.tcpSlot { d with stack := (find d.stack uninit skbuf).1 } i = d.tcpSlot i := by
  obtain ⟨hudp, htcp⟩ := stack_find d.stack uninit skbuf
  constructor
  · intro i
    rw [Daemon.udpSlot, hudp, Daemon.udpSlot]
  · intro i
    rw [Daemon.tcpSlot, htcp, Daemon.tcpSlot]

theorem keeps_find (d : Daemon) (uninit : SockaddrIn) (skbuf : SocketBuffer) :
    Keeps d { d with stack := (find d.stack uninit skbuf).1 } := by
  obtain ⟨hudp, htcp⟩ := slots_find d uninit skbuf
  refine ⟨fun _ => rfl, ?_⟩
  rintro ⟨_ | _, index⟩ ⟨pcb, so, hslot, htype⟩
  · exact ⟨pcb, so, (hudp index).trans hslot, htype⟩
  · exact ⟨pcb, so, (htcp index).trans hslot, htype⟩

/-- The PCB that was found is there. -/
theorem findPcb_live {st : Stack} {uninit : SockaddrIn} {hdr : IpHeader} {skbuf : SocketBuffer}
    {next : List SocketBuffer} {h : Held} (hfind : findPcb st uninit hdr skbuf next = some h)
    (d : Daemon) (hudp : d.stack.udp = st.udp) (htcp : d.stack.tcp = st.tcp) :
    ¬ Expired d h.ref := by
  unfold findPcb at hfind
  dsimp only at hfind
  split at hfind
  · obtain ⟨i, hi, rfl⟩ := Option.map_eq_some_iff.mp hfind
    obtain ⟨slot, pcb, hget, hpcb, -⟩ := @slot_of_find_some _ id _ _ _
      (by simpa [Udp.find] using hi)
    intro hexpired
    change d.stack.udp.pcbs.getD i .expired = .expired at hexpired
    rw [hudp, List.getD_eq_getElem?_getD, hget] at hexpired
    cases hpcb.symm.trans (congrArg Slot.pcb hexpired)
  · obtain ⟨i, hi, rfl⟩ := Option.map_eq_some_iff.mp hfind
    obtain ⟨slot, pcb, hget, hpcb, -⟩ := slot_of_find_some hi
    intro hexpired
    change d.stack.tcp.pcbs.getD i .expired = .expired at hexpired
    rw [htcp, List.getD_eq_getElem?_getD, hget] at hexpired
    cases hpcb.symm.trans (congrArg Slot.pcb hexpired)
  · cases hfind

theorem find_live {st : Stack} {uninit : SockaddrIn} {skbuf : SocketBuffer} {h : Held}
    (hfind : (find st uninit skbuf).2 = some h) (d : Daemon) (hudp : d.stack.udp = st.udp)
    (htcp : d.stack.tcp = st.tcp) : ¬ Expired d h.ref := by
  unfold find at hfind
  dsimp only at hfind
  split at hfind
  · cases hfind
  · split at hfind
    · cases hfind
    · split at hfind
      · split at hfind
        · cases hfind
        · cases hfind
        · exact findPcb_live hfind d hudp htcp
      · exact findPcb_live hfind d hudp htcp

theorem keeps_recv (d : Daemon) (h : Held) :
    Keeps d { d with stack := (recv d.stack h).1 } := by
  rcases h with ⟨⟨_ | _, index⟩, peeraddr, skbuf, next⟩
  · exact keeps_setUdpSlot fun hlive => hlive.deliver _ _ _
  · simp only [recv]
    split
    · exact .refl d
    · exact keeps_setTcpSlot fun hlive => liveSlot_tcp_recv hlive _ _ _ _

theorem keeps_drop (d : Daemon) (ref : SocketRef) : Keeps d (drop d ref) := by
  unfold drop
  split
  · rename_i hnone
    constructor
    · intro ch
      simp only [Daemon.socketOf, Daemon.rrChannel, rrChannels_release]
    · intro ref' halive
      apply alive_release halive
      rintro ⟨⟩
      rcases ref with ⟨_ | _, index⟩
      · obtain ⟨pcb, so, hslot, -⟩ := halive
        cases hnone.symm.trans (congrArg Slot.socket hslot)
      · obtain ⟨pcb, so, hslot, -⟩ := halive
        cases hnone.symm.trans (congrArg Slot.socket hslot)
  · exact .refl d

theorem slots_recv (d : Daemon) (h : Held) :
    (∀ i, h.ref ≠ { type := .UDP, index := i } →
      Daemon.udpSlot { d with stack := (recv d.stack h).1 } i = d.udpSlot i) ∧
    ∀ i, h.ref ≠ { type := .TCP, index := i } →
      Daemon.tcpSlot { d with stack := (recv d.stack h).1 } i = d.tcpSlot i := by
  rcases h with ⟨⟨_ | _, index⟩, peeraddr, skbuf, next⟩
  · refine ⟨?_, fun _ _ => rfl⟩
    intro i hne
    refine (getD_set_cases d.stack.udp.pcbs index i _ .expired).resolve_right ?_
    rintro ⟨rfl, -⟩
    exact hne rfl
  · simp only [recv]
    split
    · exact ⟨fun _ _ => rfl, fun _ _ => rfl⟩
    · refine ⟨fun _ _ => rfl, ?_⟩
      intro i hne
      refine (getD_set_cases d.stack.tcp.pcbs index i _ .expired).resolve_right ?_
      rintro ⟨rfl, -⟩
      exact hne rfl

theorem pairedAt_of_socket {d : Daemon} {ref : SocketRef} (h : d.socketAt ref ≠ none) :
    PairedAt d ref := by
  rcases ref with ⟨_ | _, index⟩
  · exact fun hnone => absurd hnone h
  · exact fun hnone => absurd hnone h

theorem pairedAt_of_expired {d : Daemon} {ref : SocketRef} (h : Expired d ref) :
    PairedAt d ref := by
  rcases ref with ⟨_ | _, index⟩
  · exact fun _ => h
  · exact fun _ => h

theorem expired_release (d : Daemon) (ref : SocketRef) : Expired (d.release (some ref)) ref := by
  rcases ref with ⟨_ | _, index⟩
  · exact getD_set_expired d.stack.udp.pcbs index
  · exact getD_set_expired d.stack.tcp.pcbs index

theorem pairedAt_drop {d : Daemon} {ref ref' : SocketRef} (h : ref' ≠ ref → PairedAt d ref') :
    PairedAt (drop d ref) ref' := by
  unfold drop
  rcases eq_or_ne ref' ref with rfl | hne
  · split
    · exact pairedAt_of_expired (expired_release d ref')
    · rename_i hsome
      exact pairedAt_of_socket hsome
  · split
    · refine pairedAt_of_slots ?_ ?_ (h hne)
      · rintro i rfl
        exact (udpSlot_release d (some ref) i).resolve_right fun hold =>
          hne (Option.some.inj hold.1).symm
      · rintro i rfl
        exact (tcpSlot_release d (some ref) i).resolve_right fun hold =>
          hne (Option.some.inj hold.1).symm
    · exact h hne

theorem pairedAt_recv {d : Daemon} {h : Held} (ref : SocketRef)
    (hpaired : ref ≠ h.ref → PairedAt d ref) :
    PairedAt (drop { d with stack := (recv d.stack h).1 } h.ref) ref := by
  apply pairedAt_drop
  intro hne
  refine pairedAt_of_slots ?_ ?_ (hpaired hne)
  · rintro i rfl
    exact (slots_recv d h).1 i hne.symm
  · rintro i rfl
    exact (slots_recv d h).2 i hne.symm

def HeldAt (s : State) (ref : SocketRef) : Prop :=
  ∃ h, s.held = some h ∧ h.ref = ref

structure Invariant (s : State) : Prop where
  connected : Connected s.daemon
  paired : ∀ ref, ¬ HeldAt s ref → PairedAt s.daemon ref

/-- The socket of the PCB that is held is there, unless `recv` does not use it. -/
structure Safe (s : State) : Prop extends Invariant s where
  held : ∀ h, s.held = some h → s.daemon.socketAt h.ref ≠ none ∨ ¬ UsesSocket s.daemon h
  usedDestroyed : s.usedDestroyed = false

/-- The steps of the machine, with what each of them requires. -/
inductive Step (s : State) : Label → State → Prop
  | find (uninit : SockaddrIn) (skbuf : SocketBuffer) : s.held = none →
      Step s (.find uninit skbuf)
        { s with
          daemon := { s.daemon with stack := (find s.daemon.stack uninit skbuf).1 }
          held := (find s.daemon.stack uninit skbuf).2 }
  | recv {h : Held} : s.held = some h →
      Step s .recv
        { daemon := drop { s.daemon with stack := (recv s.daemon.stack h).1 } h.ref
          held := none
          usedDestroyed := decide (.nullSocket ∈ (recv s.daemon.stack h).2) }
  | event {a : DaemonSurvival.Label} {d : Daemon} : isRx a = false →
      DaemonSurvival.next (.running s.daemon) a = some (.running d) →
      Step s (.event a) { s with daemon := hold s.daemon d s.held }

theorem step_of_next {s t : State} {a : Label} (h : next s a = some t) :
    s.usedDestroyed = false ∧ Step s a t := by
  unfold next at h
  split at h
  · cases h
  · rename_i halive
    refine ⟨Bool.eq_false_iff.mpr halive, ?_⟩
    split at h
    · rename_i hheld
      cases h
      exact .find _ _ hheld
    · rename_i hheld
      cases h
      exact .recv hheld
    · split at h
      · rename_i hrx hnext
        cases h
        exact .event hrx hnext
      · cases h
    · cases h

theorem connected_event {d d' : Daemon} {a : DaemonSurvival.Label} (hconn : Connected d)
    (hnext : DaemonSurvival.next (.running d) a = some (.running d')) : Connected d' :=
  connected_step hconn hnext d' rfl

theorem Invariant.pairedAt_find {s : State} (h : Invariant s) (hnone : s.held = none)
    (uninit : SockaddrIn) (skbuf : SocketBuffer) (ref : SocketRef) :
    PairedAt { s.daemon with stack := (find s.daemon.stack uninit skbuf).1 } ref := by
  obtain ⟨hudp, htcp⟩ := slots_find s.daemon uninit skbuf
  refine pairedAt_of_slots (fun i _ => hudp i) (fun i _ => htcp i) (h.paired ref ?_)
  rintro ⟨h', hheld, -⟩
  cases hnone.symm.trans hheld

theorem PairedAt.socketAt {d : Daemon} {ref : SocketRef} (h : PairedAt d ref)
    (hlive : ¬ Expired d ref) : d.socketAt ref ≠ none := by
  rcases ref with ⟨_ | _, index⟩
  · exact fun hnone => hlive (h hnone)
  · exact fun hnone => hlive (h hnone)

theorem invariant_step {s t : State} {a : Label} (h : Invariant s) (hstep : Step s a t) :
    Invariant t := by
  cases hstep with
  | find uninit skbuf hnone =>
      constructor
      · exact h.connected.keeps (keeps_find s.daemon uninit skbuf)
      · intro ref _
        exact h.pairedAt_find hnone uninit skbuf ref
  | recv hheld =>
      constructor
      · exact (h.connected.keeps (keeps_recv _ _)).keeps (keeps_drop _ _)
      · intro ref _
        apply pairedAt_recv
        intro hne
        apply h.paired
        rintro ⟨h', hheld', rfl⟩
        cases hheld.symm.trans hheld'
        exact hne rfl
  | event hrx hnext =>
      constructor
      · exact (connected_event h.connected hnext).keeps (keeps_hold _ _ _)
      · intro ref hnot
        apply pairedAt_hold hnot
        exact (event_effect h.connected hrx hnext ref).paired (h.paired ref hnot)

theorem safe_step {s t : State} {a : Label} (h : Safe s) (hguard : Undisturbed s a)
    (hstep : Step s a t) : Safe t := by
  refine ⟨invariant_step h.toInvariant hstep, ?_, ?_⟩
  · cases hstep with
    | find uninit skbuf hnone =>
        intro held hfind
        obtain ⟨hudp, htcp⟩ := stack_find s.daemon.stack uninit skbuf
        have hpaired := h.toInvariant.pairedAt_find hnone uninit skbuf held.ref
        exact .inl (hpaired.socketAt (find_live hfind _ hudp htcp))
    | recv hheld =>
        intro held hnone
        cases hnone
    | event hrx hnext =>
        intro held hheld
        change s.held = some held at hheld
        have heffect := event_effect h.connected hrx hnext held.ref
        rw [hheld]
        exact held_event heffect (hguard held hheld) (h.held held hheld)
  · cases hstep with
    | find uninit skbuf hnone => exact h.usedDestroyed
    | recv hheld =>
        simp only [decide_eq_false_iff_not, nullSocket_mem_recv_iff]
        rintro ⟨hnone, huses⟩
        rcases h.held _ hheld with hlive | hunused
        · exact hlive hnone
        · exact hunused huses
    | event hrx hnext => exact h.usedDestroyed

theorem invariant_initial {s : State} (h : machine.initial s) : Invariant s := by
  obtain ⟨⟨d, hd, hrrChannels, hudp, htcp, -⟩, -, -⟩ := h
  obtain rfl := State.running.inj hd
  constructor
  · exact connected (.initial ⟨_, rfl, hrrChannels⟩) _ rfl
  · rintro ⟨_ | _, index⟩ -
    · show Paired (s.daemon.stack.udp.pcbs.getD index .expired)
      rw [hudp]
      exact fun _ => rfl
    · show Paired (s.daemon.stack.tcp.pcbs.getD index .expired)
      rw [htcp]
      exact fun _ => rfl

theorem safe {s : State} (h : machine.ReachableUnder Undisturbed s) : Safe s := by
  refine h.invariant (I := Safe) ?_ ?_
  · intro s hinitial
    refine ⟨invariant_initial hinitial, ?_, hinitial.2.2⟩
    intro held hheld
    cases hinitial.2.1.symm.trans hheld
  · intro s a t hs hguard hnext
    exact safe_step hs hguard (step_of_next hnext).2

theorem length_tcp_release (d : Daemon) (old : Option SocketRef) :
    (d.release old).stack.tcp.pcbs.length = d.stack.tcp.pcbs.length := by
  rcases old with _ | ⟨_ | _, index⟩
  · rfl
  · rfl
  · exact List.length_set

theorem socketCall_closes {d d' : Daemon} {mem : Uninit} {ch : Nat} {domain type : Int32}
    {resp : Response} {ref : SocketRef} (howner : d.socketOf ch = some ref)
    (h : socketCall d mem ch domain type = .ok (d', resp)) :
    Expired d' ref ∧ d.stack.tcp.pcbs.length ≤ d'.stack.tcp.pcbs.length := by
  unfold socketCall at h
  rw [howner] at h
  split at h
  · cases h
  · split at h
    · cases h
    · dsimp only at h
      split at h
      · cases h
        refine ⟨expired_release _ ref, ?_⟩
        show _ ≤ (Daemon.release _ (some ref)).stack.tcp.pcbs.length
        rw [length_tcp_release, Tcp.newPcb, List.length_append]
        exact Nat.le_add_right _ _
      · cases h
        refine ⟨expired_release _ ref, ?_⟩
        show _ ≤ (Daemon.release _ (some ref)).stack.tcp.pcbs.length
        rw [length_tcp_release]

theorem handleRequest_closes {d d' : Daemon} {mem : Uninit} {ch : Nat} {req : Request}
    {resp : Response} {ref : SocketRef}
    (hcloses : d.socketOf ch = some ref ∧ IsSocketCall req.calling)
    (h : handleRequest d mem ch req = .ok (d', resp)) :
    Expired d' ref ∧ d.stack.tcp.pcbs.length ≤ d'.stack.tcp.pcbs.length := by
  obtain ⟨howner, domain, type, protocol, hcalling⟩ := hcloses
  rw [handleRequest, hcalling] at h
  exact socketCall_closes howner h

/-- An event that closes a socket leaves nothing of it. -/
theorem closes_expired {d d' : Daemon} {ref : SocketRef} {a : DaemonSurvival.Label}
    (hcloses : Closes d ref a)
    (hnext : DaemonSurvival.next (.running d) a = some (.running d')) :
    Expired d' ref ∧ d.stack.tcp.pcbs.length ≤ d'.stack.tcp.pcbs.length := by
  have hremoved : ∀ ch, d.socketOf ch = some ref → Expired (d.removeRRChannel ch) ref ∧
      d.stack.tcp.pcbs.length ≤ (d.removeRRChannel ch).stack.tcp.pcbs.length := by
    intro ch howner
    rw [Daemon.removeRRChannel, howner]
    refine ⟨expired_release d ref, ?_⟩
    show _ ≤ (d.release (some ref)).stack.tcp.pcbs.length
    rw [length_tcp_release]
  cases next_exit hnext with
  | hangUp => exact hremoved _ hcloses
  | read _ hread =>
      cases onReadReady_exit hread with
      | again => exact hcloses.elim
      | eof => exact hremoved _ hcloses
      | written hcall => exact handleRequest_closes hcloses hcall
      | unwritten hcall =>
          have hclosed := handleRequest_closes hcloses hcall
          exact hclosed
  | accept => exact hcloses.elim
  | rx => exact hcloses.elim
  | notified => exact hcloses.elim

/-- The socket is gone while the PCB is held, so `recv` uses what is not there. -/
theorem crashes_of_closes {d d' : Daemon} {h : Held} (hexpired : Expired d' h.ref)
    (hlength : d.stack.tcp.pcbs.length ≤ d'.stack.tcp.pcbs.length) (huses : UsesSocket d h) :
    .nullSocket ∈ (recv (hold d d' (some h)).stack h).2 := by
  rw [nullSocket_mem_recv_iff, socketAt_hold]
  rcases h with ⟨⟨_ | _, index⟩, peeraddr, skbuf, next⟩
  · refine ⟨congrArg Slot.socket hexpired, ?_⟩
    intro htcp
    cases htcp
  · refine ⟨congrArg Slot.socket hexpired, ?_⟩
    intro _
    obtain ⟨pcb, hpcb, hestab, hpayload⟩ := huses rfl
    have hlt : index < d'.stack.tcp.pcbs.length := by
      refine Nat.lt_of_lt_of_le ?_ hlength
      by_contra hge
      have hnone : d.tcpSlot index = .expired := List.getD_eq_default _ _ (Nat.not_lt.mp hge)
      cases hpcb.symm.trans (congrArg Slot.pcb hnone)
    have hhold : hold d d' (some ⟨⟨.TCP, index⟩, peeraddr, skbuf, next⟩) =
        d'.setTcpSlot index { pcb := (d.tcpSlot index).pcb, socket := none } := if_pos hexpired
    refine ⟨pcb, ?_, hestab, hpayload⟩
    rw [hhold, ← hpcb]
    simp [Daemon.tcpSlot, Daemon.setTcpSlot, hlt]

theorem next_recv {s : State} {h : Held} (halive : s.usedDestroyed = false)
    (hheld : s.held = some h) :
    next s .recv = some
      { daemon := drop { s.daemon with stack := (recv s.daemon.stack h).1 } h.ref
        held := none
        usedDestroyed := decide (.nullSocket ∈ (recv s.daemon.stack h).2) } := by
  unfold next
  rw [if_neg (by simp [halive]), hheld]

/-- No `recv` uses a socket that is gone where the event loop leaves alone the socket
of the PCB that is held; an event that does not lets the next `recv` crash. -/
theorem recv_safe_iff_undisturbed (s : State) :
    (machine.ReachableUnder Undisturbed s → s.usedDestroyed = false) ∧
      ∀ t a, machine.Reachable s → ¬ Undisturbed s a → machine.next s a = some t →
        ∃ u, machine.next t .recv = some u ∧ u.usedDestroyed = true := by
  constructor
  · intro h
    exact (safe h).usedDestroyed
  · intro t a hreach hguard hnext
    obtain ⟨halive, hstep⟩ := step_of_next hnext
    cases hstep with
    | find uninit skbuf hnone => exact absurd trivial hguard
    | recv hheld => exact absurd trivial hguard
    | @event a d hrx hevent =>
        simp only [Undisturbed, not_forall, not_not] at hguard
        obtain ⟨h, hheld, huses, hcloses⟩ := hguard
        obtain ⟨hexpired, hlength⟩ := closes_expired hcloses hevent
        have hcrash := crashes_of_closes hexpired hlength huses
        rw [← hheld] at hcrash
        exact ⟨_, @next_recv { s with daemon := hold s.daemon d s.held } h halive hheld,
          decide_eq_true hcrash⟩

def sampleState : State :=
  { daemon := { sampleDaemon with stackAddr := 0x0200000a }
    held := none
    usedDestroyed := false }

theorem sampleState_initial : machine.initial sampleState :=
  ⟨⟨_, rfl, rfl, rfl, rfl, rfl⟩, rfl, rfl⟩

def sampleAddr : List UInt8 :=
  [2, 0, 0, 53, 10, 0, 0, 1, 0, 0, 0, 0, 0, 0, 0, 0]

/-- A client sends a datagram from its new UDP socket, and the IP thread looks up the
PCB for the answer. -/
def sampleLookup : List Label :=
  [.event .accept, .event (sampleRead (.socketCall 2 2 0)),
    .event (sampleRead (.sendtoCall [1] 0 (some sampleAddr))), .find .zero sampleAnswer]

/-- The state after the first `n` steps. -/
def sampleRun (n : Nat) : State :=
  (machine.exec sampleState (sampleLookup.take n)).getD sampleState

theorem undisturbed_of_none {s : State} (h : s.held = none) (a : Label) : Undisturbed s a := by
  cases a with
  | event a =>
      intro held hheld
      cases h.symm.trans hheld
  | _ => trivial

theorem sampleRun_reachable : machine.ReachableUnder Undisturbed (sampleRun 4) := by
  have h₁ : machine.ReachableUnder Undisturbed (sampleRun 1) :=
    .step (.initial sampleState_initial) (undisturbed_of_none rfl (.event .accept)) rfl
  have h₂ : machine.ReachableUnder Undisturbed (sampleRun 2) :=
    h₁.step (undisturbed_of_none rfl (.event (sampleRead (.socketCall 2 2 0)))) rfl
  have h₃ : machine.ReachableUnder Undisturbed (sampleRun 3) :=
    h₂.step (undisturbed_of_none rfl (.event (sampleRead (.sendtoCall [1] 0 (some sampleAddr)))))
      rfl
  exact h₃.step (undisturbed_of_none rfl (.find .zero sampleAnswer)) rfl

theorem sampleRun_disturbed : ¬ Undisturbed (sampleRun 4) (.event (.hangUp 0)) := by
  obtain ⟨h, hheld, href⟩ : ∃ h, (sampleRun 4).held = some h ∧
      h.ref = { type := .UDP, index := 0 } := ⟨_, rfl, rfl⟩
  intro hguard
  refine hguard h hheld ?_ ?_
  · intro htcp
    rw [href] at htcp
    cases htcp
  · rw [href]
    rfl

theorem recv_safe_sample :
    (sampleRun 4).usedDestroyed = false ∧
      ∃ t, machine.next (sampleRun 4) (.event (.hangUp 0)) = some t ∧
        ∃ u, machine.next t .recv = some u ∧ u.usedDestroyed = true := by
  obtain ⟨t, hnext⟩ : ∃ t, machine.next (sampleRun 4) (.event (.hangUp 0)) = some t := ⟨_, rfl⟩
  have hsafe := recv_safe_iff_undisturbed (sampleRun 4)
  exact ⟨hsafe.1 sampleRun_reachable, t, hnext,
    hsafe.2 t _ sampleRun_reachable.reachable sampleRun_disturbed hnext⟩

/-- The client hangs up between the lookup and `recv`. -/
theorem recv_after_hangUp : ¬ ∀ s, machine.Reachable s → s.usedDestroyed = false := by
  intro hsafe
  obtain ⟨u, hexec, hused⟩ : ∃ u, machine.exec (sampleRun 4) [.event (.hangUp 0), .recv] = some u ∧
      u.usedDestroyed = true := ⟨_, rfl, rfl⟩
  have hreach : machine.Reachable u :=
    Machine.reachable_of_exec sampleRun_reachable.reachable hexec
  rw [hsafe u hreach] at hused
  cases hused

end MuQuinet.ClosingRaces
