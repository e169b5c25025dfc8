import MuQuinet.HandlerAnswers
import MuQuinet.Lib.Outcomes
import MuQuinet.ReplyOverflow
import MuQuinet.SendtoFrame

namespace MuQuinet.UdpEndpoints

open MuQuinet.Lib.Machines
open MuQuinet.Lib.Outcomes
open MuQuinet.Buffers
open MuQuinet.DeliveryIsolation
open MuQuinet.HandlerAnswers
open MuQuinet.IpHeaders
open MuQuinet.Pcbs
open MuQuinet.ReplyOverflow
open MuQuinet.RequestHandler
open MuQuinet.SendtoFrame
open MuQuinet.Sockets
open MuQuinet.UdpLayer
open MuQuinet.Wire

/-- A `UdpPcb` and the socket that keeps it alive. -/
structure Endpoint where
  pcb : Pcb
  so : Socket
deriving DecidableEq, Repr

/-- The calls a `UdpPcb` gets, and what the event loop does with its socket. -/
inductive Label
  | call (port : UInt16) (c : PcbCall)
  | recv (uninit : SockaddrIn) (skbuf : SocketBuffer) (next : List SocketBuffer)
  | socket (op : SocketOp)

namespace Endpoint

def slot (e : Endpoint) : Slot Pcb :=
  { pcb := some e.pcb, socket := some e.so }

def withSocket (e : Endpoint) (so : Socket) : Endpoint :=
  { e with so := so }

/-- A packet of another protocol does not get here, nor one that `Pcbs::find` gives no
score to. -/
def step (e : Endpoint) : Label → Option Endpoint
  | .call port c => some { e with pcb := (udpCall port e.pcb c).2 }
  | .recv uninit skbuf next =>
      if protoxmap (iphdr skbuf).protocol = some .UDP then do
        let _ ← score (Udp.fourTuple skbuf) e.pcb
        some (e.withSocket
          (e.so.putToRecvQ (peeraddr uninit skbuf) (UdpPcb.locatePayload skbuf :: next)))
      else none
  | .socket op => (op.run e.so).toOption.map e.withSocket

end Endpoint

/-- The lives of a `UdpPcb` from its construction on. -/
def machine (stackAddr : UInt32) : Machine Endpoint Label where
  initial e := ∃ nonblocking,
    e = { pcb := .new stackAddr, so := { type := .UDP, nonblocking := nonblocking } }
  next := Endpoint.step

theorem slot_injective : Function.Injective Endpoint.slot := by
  rintro ⟨pcb, so⟩ ⟨pcb', so'⟩ h
  cases h
  rfl

theorem slot_ne_expired (e : Endpoint) : e.slot ≠ .expired :=
  fun h => nomatch congrArg Slot.pcb h

theorem step_recv {e : Endpoint} {skbuf : SocketBuffer} (hprotocol : (iphdr skbuf).protocol = 17)
    (h : Matches (Udp.fourTuple skbuf) e.pcb) (uninit : SockaddrIn) (next : List SocketBuffer) :
    e.step (.recv uninit skbuf next) =
      some (e.withSocket
        (e.so.putToRecvQ (peeraddr uninit skbuf) (UdpPcb.locatePayload skbuf :: next))) := by
  obtain ⟨accum, m, hscore, -⟩ := score_eq_some h
  rw [Endpoint.step, if_pos (protoxmap_eq_udp_iff.mpr hprotocol), hscore]
  rfl

theorem matches_of_step_recv {e e' : Endpoint} {uninit : SockaddrIn} {skbuf : SocketBuffer}
    {next : List SocketBuffer} (h : e.step (.recv uninit skbuf next) = some e') :
    (iphdr skbuf).protocol = 17 ∧ Matches (Udp.fourTuple skbuf) e.pcb := by
  rw [Endpoint.step] at h
  split at h
  · rename_i hprotocol
    refine ⟨protoxmap_eq_udp_iff.mp hprotocol, ?_⟩
    by_contra hnot
    rw [score_eq_none hnot] at h
    cases h
  · cases h

theorem recvQ_subset_of_run {op : SocketOp} {so so' : Socket} (h : op.run so = .ok so') :
    so'.recvQ ⊆ so.recvQ := by
  cases op with
  | recvfrom rrChannel requireAddr =>
      obtain ⟨⟨taken, resp⟩, hrecvfrom, heq⟩ := map_eq_ok_iff.mp h
      obtain rfl : taken = so' := heq
      exact recvfrom_recvQ_subset hrecvfrom
  | sChannelReadCb =>
      obtain ⟨⟨read, sent⟩, hread, heq⟩ := map_eq_ok_iff.mp h
      obtain rfl : read = so' := heq
      exact sChannelReadCb_recvQ_subset hread

/-- How a step of an endpoint changes what is in the queue of its socket. -/
inductive QueueStep (e e' : Endpoint) : Prop
  | call (port : UInt16) (c : PcbCall) : e'.pcb = (udpCall port e.pcb c).2 → e'.so = e.so →
      QueueStep e e'
  | put (uninit : SockaddrIn) (skbuf : SocketBuffer) (next : List SocketBuffer) :
      (iphdr skbuf).protocol = 17 → Matches (Udp.fourTuple skbuf) e.pcb → e'.pcb = e.pcb →
      e'.so = e.so.putToRecvQ (peeraddr uninit skbuf) (UdpPcb.locatePayload skbuf :: next) →
      QueueStep e e'
  | taken : e'.pcb = e.pcb → e'.so.recvQ ⊆ e.so.recvQ → QueueStep e e'

theorem queueStep {e e' : Endpoint} {a : Label} (h : e.step a = some e') : QueueStep e e' := by
  cases a with
  | call port c =>
      cases h
      exact .call port c rfl rfl
  | recv uninit skbuf next =>
      obtain ⟨hprotocol, hmatch⟩ := matches_of_step_recv h
      rw [step_recv hprotocol hmatch] at h
      cases h
      exact .put uninit skbuf next hprotocol hmatch rfl rfl
  | socket op =>
      obtain ⟨so, hrun, rfl⟩ := Option.map_eq_some_iff.mp h
      exact .taken rfl (recvQ_subset_of_run (toOption_eq_some_iff.mp hrun))

/-- The local address stays, and so does a local port that was given. -/
structure LocalKept (pcb pcb' : Pcb) : Prop where
  laddr_eq : pcb'.laddr = pcb.laddr
  lport_eq : pcb.lport ≠ 0 → pcb'.lport = pcb.lport

theorem LocalKept.trans {pcb pcb' pcb'' : Pcb} (h : LocalKept pcb pcb')
    (h' : LocalKept pcb' pcb'') : LocalKept pcb pcb'' := by
  refine ⟨h'.laddr_eq.trans h.laddr_eq, ?_⟩
  intro hbound
  have hkept := h.lport_eq hbound
  exact (h'.lport_eq (hkept ▸ hbound)).trans hkept

theorem local_bind (port : UInt16) (pcb : Pcb) : LocalKept pcb (Pcb.bind port pcb).2 := by
  refine ⟨laddr_bind port pcb, ?_⟩
  intro hbound
  rw [PortUniqueness.bind_of_ne_zero hbound]

theorem local_connect (port : UInt16) (pcb : Pcb) (faddr : UInt32) (fport : UInt16) :
    LocalKept pcb (Pcb.connect port pcb faddr fport).2 := by
  obtain ⟨hladdr, hlport⟩ := local_bind port { pcb with faddr := faddr, fport := fport }
  exact ⟨hladdr, hlport⟩

theorem local_send (port : UInt16) (pcb : Pcb) (buf : List UInt8) :
    LocalKept pcb (UdpPcb.send port pcb buf).2.1 :=
  local_bind port pcb

theorem local_sendto (port : UInt16) (pcb : Pcb) (faddr : UInt32) (fport : UInt16)
    (buf : List UInt8) : LocalKept pcb (UdpPcb.sendto port pcb faddr fport buf).2.1 := by
  have hbound : LocalKept pcb (pcb.sendto port fport).2.1 := local_bind port pcb
  unfold UdpPcb.sendto
  rcases hfirst : pcb.sendto port fport with ⟨port₁, pcb₁, _⟩
  rw [hfirst] at hbound
  have hconnected := hbound.trans (local_connect port₁ pcb₁ faddr fport)
  dsimp only
  rcases hsecond : pcb₁.connect port₁ faddr fport with ⟨port₂, pcb₂⟩
  rw [hsecond] at hconnected
  obtain ⟨hladdr, hlport⟩ := hconnected.trans (local_send port₂ pcb₂ buf)
  exact ⟨hladdr, hlport⟩

theorem local_udpCall (port : UInt16) (pcb : Pcb) (c : PcbCall) :
    LocalKept pcb (udpCall port pcb c).2 := by
  cases c with
  | connect faddr fport => exact local_connect port pcb faddr fport
  | send buf => exact local_send port pcb buf
  | sendto faddr fport buf => exact local_sendto port pcb faddr fport buf
  | disconnect => exact ⟨rfl, fun _ => rfl⟩

/-- A packet is a UDP datagram to the port of the PCB, or to port 0, and to its address if
that is not 0.0.0.0, and is known to come from its sender. -/
structure Addressed (pcb : Pcb) (peer : SockaddrIn) (skbuf : SocketBuffer) : Prop where
  protocol_eq : (iphdr skbuf).protocol = 17
  family_eq : peer.sinFamily = UdpLayer.AF_INET
  port_eq : peer.sinPort = (udphdr skbuf).source
  addr_eq : peer.sinAddr = (iphdr skbuf).saddr
  dest_eq : (udphdr skbuf).dest = pcb.lport ∨ (udphdr skbuf).dest = 0
  daddr_eq : pcb.laddr ≠ 0 → (iphdr skbuf).daddr = pcb.laddr

/-- The first buffer of an entry of the queue is of a packet that is addressed to the PCB. -/
def EntryAddressed (pcb : Pcb) (entry : SockaddrIn × List SocketBuffer) : Prop :=
  ∃ skbuf next, entry.2 = UdpPcb.locatePayload skbuf :: next ∧ Addressed pcb entry.1 skbuf

theorem EntryAddressed.call {pcb : Pcb} {entry : SockaddrIn × List SocketBuffer}
    (h : EntryAddressed pcb entry) (port : UInt16) (c : PcbCall) :
    EntryAddressed (udpCall port pcb c).2 entry := by
  obtain ⟨skbuf, next, hentry, haddressed⟩ := h
  obtain ⟨hladdr, hlport⟩ := local_udpCall port pcb c
  refine ⟨skbuf, next, hentry, haddressed.protocol_eq, haddressed.family_eq, haddressed.port_eq,
    haddressed.addr_eq, ?_, ?_⟩
  · have hdest := haddressed.dest_eq
    rcases eq_or_ne pcb.lport 0 with hzero | hbound
    · rw [hzero, or_self] at hdest
      exact .inr hdest
    · rw [hlport hbound]
      exact hdest
  · rw [hladdr]
    exact haddressed.daddr_eq

theorem entryAddressed_of_matches {pcb : Pcb} {skbuf : SocketBuffer}
    (hprotocol : (iphdr skbuf).protocol = 17) (h : Matches (Udp.fourTuple skbuf) pcb)
    (uninit : SockaddrIn) (next : List SocketBuffer) :
    EntryAddressed pcb (peeraddr uninit skbuf, UdpPcb.locatePayload skbuf :: next) := by
  refine ⟨skbuf, next, rfl, hprotocol, rfl, rfl, rfl, ?_, ?_⟩
  · exact .inl h.lport_eq.symm
  · intro hladdr
    exact (h.laddr_eq.resolve_left hladdr).symm

structure Invariant (stackAddr : UInt32) (e : Endpoint) : Prop where
  laddr_eq : e.pcb.laddr = stackAddr
  queue : ∀ entry ∈ e.so.recvQ, EntryAddressed e.pcb entry

theorem invariant_step {stackAddr : UInt32} {e e' : Endpoint} {a : Label}
    (h : Invariant stackAddr e) (hstep : e.step a = some e') : Invariant stackAddr e' := by
  cases queueStep hstep with
  | call port c hpcb hso =>
      constructor
      · rw [hpcb, (local_udpCall port e.pcb c).laddr_eq]
        exact h.laddr_eq
      · rw [hpcb, hso]
        intro entry hentry
        exact (h.queue entry hentry).call port c
  | put uninit skbuf next hprotocol hmatch hpcb hso =>
      constructor
      · rw [hpcb]
        exact h.laddr_eq
      · rw [hpcb, hso]
        intro entry hentry
        rcases mem_recvQ_putToRecvQ hentry with hold | rfl
        · exact h.queue entry hold
        · exact entryAddressed_of_matches hprotocol hmatch uninit next
  | taken hpcb hsubset =>
      constructor
      · rw [hpcb]
        exact h.laddr_eq
      · rw [hpcb]
        intro entry hentry
        exact h.queue entry (hsubset hentry)

theorem invariant {stackAddr : UInt32} {e : Endpoint} (h : (machine stackAddr).Reachable e) :
    Invariant stackAddr e := by
  refine h.invariant (I := Invariant stackAddr) ?_ ?_
  · rintro e ⟨nonblocking, rfl⟩
    refine ⟨rfl, ?_⟩
    rintro entry ⟨⟩
  · intro e a e' he _ hstep
    exact invariant_step he hstep

end MuQuinet.UdpEndpoints
