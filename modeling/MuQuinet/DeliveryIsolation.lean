import MuQuinet.Lib.Machines
import MuQuinet.TcpLayer
import MuQuinet.UdpLayer

namespace MuQuinet.DeliveryIsolation

open MuQuinet.Lib.Machines
open MuQuinet.Buffers
open MuQuinet.Sockets
open MuQuinet.Pcbs
open MuQuinet.UdpLayer
open MuQuinet.TcpLayer

/-- A PCB may receive the packets of a four-tuple: its local port is theirs, and
what else it fixes agrees. -/
structure Matches (t : FourTuple) (pcb : Pcb) : Prop where
  lport_eq : pcb.lport = t.lport
  fport_eq : pcb.fport = 0 ∨ pcb.fport = t.fport
  faddr_eq : pcb.faddr = 0 ∨ pcb.faddr = t.faddr
  laddr_eq : pcb.laddr = 0 ∨ pcb.laddr = t.laddr

theorem inAddrMatch_nonneg_iff (ours theirs : UInt32) :
    inAddrMatch ours theirs ≠ -1 ↔ ours = 0 ∨ ours = theirs := by
  unfold inAddrMatch
  by_cases hzero : ours = 0
  · simp [hzero]
  · rw [if_neg hzero]
    by_cases heq : ours = theirs
    · rw [if_pos heq]
      exact iff_of_true (by decide) (.inr heq)
    · rw [if_neg heq]
      exact iff_of_false (fun h => h rfl) (not_or.mpr ⟨hzero, heq⟩)

theorem inAddrMatch_ge (ours theirs : UInt32) : -1 ≤ inAddrMatch ours theirs := by
  unfold inAddrMatch
  split
  · decide
  · split <;> decide

theorem score_eq_none {t : FourTuple} {curr : Pcb} (h : ¬ Matches t curr) :
    score t curr = none := by
  unfold score
  by_cases hlport : curr.lport = t.lport
  · by_cases hfport : curr.fport = 0 ∨ curr.fport = t.fport
    · have hkeep : ¬ (curr.fport ≠ 0 ∧ curr.fport ≠ t.fport) := by
        rintro ⟨hne, hne'⟩
        exact hfport.elim hne hne'
      rw [if_neg (not_not.mpr hlport), if_neg hkeep]
      by_cases hfaddr : inAddrMatch curr.faddr t.faddr = -1
      · simp [hfaddr]
      · by_cases hladdr : inAddrMatch curr.laddr t.laddr = -1
        · simp [hladdr]
        · exact absurd ⟨hlport, hfport, (inAddrMatch_nonneg_iff _ _).mp hfaddr,
            (inAddrMatch_nonneg_iff _ _).mp hladdr⟩ h
    · rw [if_neg (not_not.mpr hlport), if_pos (not_or.mp hfport)]
  · rw [if_pos hlport]

/-- A PCB that matches always beats the `m` it is compared with. -/
theorem score_eq_some {t : FourTuple} {curr : Pcb} (h : Matches t curr) :
    ∃ accum m, score t curr = some (accum, m) ∧ accum > m := by
  have hkeep : ¬ (curr.fport ≠ 0 ∧ curr.fport ≠ t.fport) := by
    rintro ⟨hne, hne'⟩
    exact h.fport_eq.elim hne hne'
  have hfaddr := (inAddrMatch_nonneg_iff _ _).mpr h.faddr_eq
  have hladdr := (inAddrMatch_nonneg_iff _ _).mpr h.laddr_eq
  have hge := inAddrMatch_ge curr.faddr t.faddr
  simp only [score]
  rw [if_neg (not_not.mpr h.lport_eq), if_neg hkeep, if_neg hfaddr, if_neg hladdr]
  refine ⟨_, _, rfl, ?_⟩
  split <;> omega

/-- The last live PCB of the list that matches, and where it is. -/
structure LastMatch (t : FourTuple) (pcbs : List (Option Pcb)) (i : Nat) (pcb : Pcb) : Prop where
  get_eq : pcbs[i]? = some (some pcb)
  isMatch : Matches t pcb
  none_after : ∀ j, i < j → ∀ other, pcbs[j]? = some (some other) → ¬ Matches t other

theorem LastMatch.cons {t : FourTuple} {pcbs : List (Option Pcb)} {i : Nat} {pcb : Pcb}
    (h : LastMatch t pcbs i pcb) (first : Option Pcb) :
    LastMatch t (first :: pcbs) (i + 1) pcb := by
  refine ⟨by simpa using h.get_eq, h.isMatch, ?_⟩
  rintro (_ | j) hlt other hget
  · exact absurd hlt (Nat.not_lt_zero _)
  · exact h.none_after j (Nat.lt_of_succ_lt_succ hlt) other (by simpa using hget)

theorem lastMatch_head {t : FourTuple} {pcbs : List (Option Pcb)} {pcb : Pcb}
    (hmatch : Matches t pcb) (hnone : ∀ other, some other ∈ pcbs → ¬ Matches t other) :
    LastMatch t (some pcb :: pcbs) 0 pcb := by
  refine ⟨rfl, hmatch, ?_⟩
  rintro (_ | j) hlt other hget
  · exact absurd hlt (Nat.lt_irrefl 0)
  · exact hnone other (List.mem_of_getElem? (by simpa using hget))

theorem LastMatch.index_eq {t : FourTuple} {pcbs : List (Option Pcb)} {i j : Nat} {pcb pcb' : Pcb}
    (h : LastMatch t pcbs i pcb) (h' : LastMatch t pcbs j pcb') : i = j := by
  rcases Nat.lt_trichotomy i j with hlt | heq | hgt
  · exact absurd h'.isMatch (h.none_after j hlt pcb' h'.get_eq)
  · exact heq
  · exact absurd h.isMatch (h'.none_after i hgt pcb h.get_eq)

/-- The loop ends with its first candidate where nothing matches, and at the last
live PCB that matches otherwise. -/
theorem findLoop_cases (t : FourTuple) (pcb : Option Nat) (i : Nat)
    (rest : List (Option Pcb)) :
    findLoop t pcb i rest = pcb ∧ (∀ curr, some curr ∈ rest → ¬ Matches t curr) ∨
      ∃ j curr, findLoop t pcb i rest = some (i + j) ∧ LastMatch t rest j curr := by
  induction rest generalizing pcb i with
  | nil => exact .inl ⟨rfl, by simp⟩
  | cons first rest ih =>
      have hlater : ∀ pcb', (∃ j curr, findLoop t pcb' (i + 1) rest = some (i + 1 + j) ∧
          LastMatch t rest j curr) →
          ∃ j curr, findLoop t pcb' (i + 1) rest = some (i + j) ∧
            LastMatch t (first :: rest) j curr := by
        rintro pcb' ⟨j, curr, hfind, hlast⟩
        refine ⟨j + 1, curr, ?_, hlast.cons first⟩
        rw [hfind, Nat.add_assoc, Nat.add_comm 1 j]
      cases first with
      | none =>
          rw [findLoop]
          rcases ih pcb (i + 1) with ⟨hfind, hnone⟩ | hfound
          · exact .inl ⟨hfind, by simpa using hnone⟩
          · exact .inr (hlater pcb hfound)
      | some curr =>
          by_cases hmatches : Matches t curr
          · obtain ⟨accum, m, hscore, hgt⟩ := score_eq_some hmatches
            rw [findLoop, hscore]
            simp only [if_pos hgt]
            rcases ih (some i) (i + 1) with ⟨hfind, hnone⟩ | hfound
            · exact .inr ⟨0, curr, hfind, lastMatch_head hmatches hnone⟩
            · exact .inr (hlater (some i) hfound)
          · rw [findLoop, score_eq_none hmatches]
            rcases ih pcb (i + 1) with ⟨hfind, hnone⟩ | hfound
            · refine .inl ⟨hfind, ?_⟩
              intro curr' hcurr'
              rcases List.mem_cons.mp hcurr' with heq | hcurr'
              · cases heq
                exact hmatches
              · exact hnone curr' hcurr'
            · exact .inr (hlater pcb hfound)

theorem lastMatch_of_find {t : FourTuple} {pcbs : List (Option Pcb)} {i : Nat}
    (h : find pcbs t = some i) : ∃ curr, LastMatch t pcbs i curr := by
  rcases findLoop_cases t none 0 pcbs with ⟨hnone, -⟩ | ⟨j, curr, hfind, hlast⟩
  · rw [find, hnone] at h
    cases h
  · rw [find, hfind, Nat.zero_add] at h
    cases h
    exact ⟨curr, hlast⟩

theorem find_eq_some {t : FourTuple} {pcbs : List (Option Pcb)} {i : Nat}
    (h : find pcbs t = some i) : ∃ curr, pcbs[i]? = some (some curr) ∧ Matches t curr := by
  obtain ⟨curr, hlast⟩ := lastMatch_of_find h
  exact ⟨curr, hlast.get_eq, hlast.isMatch⟩

theorem find_eq_none_iff {t : FourTuple} {pcbs : List (Option Pcb)} :
    find pcbs t = none ↔ ∀ curr, some curr ∈ pcbs → ¬ Matches t curr := by
  constructor
  · intro h
    rcases findLoop_cases t none 0 pcbs with ⟨-, hnone⟩ | ⟨j, curr, hfind, -⟩
    · exact hnone
    · rw [find, hfind] at h
      cases h
  · intro hnone
    rcases findLoop_cases t none 0 pcbs with ⟨hfind, -⟩ | ⟨j, curr, -, hlast⟩
    · exact hfind
    · exact absurd hlast.isMatch (hnone curr (List.mem_of_getElem? hlast.get_eq))

theorem find_of_lastMatch {t : FourTuple} {pcbs : List (Option Pcb)} {i : Nat} {pcb : Pcb}
    (h : LastMatch t pcbs i pcb) : find pcbs t = some i := by
  cases hfind : find pcbs t with
  | none =>
      exact absurd h.isMatch
        (find_eq_none_iff.mp hfind pcb (List.mem_of_getElem? h.get_eq))
  | some j =>
      obtain ⟨pcb', hlast⟩ := lastMatch_of_find hfind
      rw [h.index_eq hlast]

/-- `Pcbs::find` takes the last PCB that matches, whatever the others fix. -/
theorem find_eq_some_iff {t : FourTuple} {pcbs : List (Option Pcb)} {i : Nat} :
    find pcbs t = some i ↔ ∃ pcb, LastMatch t pcbs i pcb := by
  constructor
  · exact lastMatch_of_find
  · rintro ⟨pcb, hlast⟩
    exact find_of_lastMatch hlast

def receivers (events : List Event) : List Nat :=
  events.filterMap fun
    | .received i => some i
    | _ => none

/-- The address that `Udp::rx` makes of the headers of a packet. -/
def peeraddr (uninit : SockaddrIn) (skbuf : SocketBuffer) : SockaddrIn :=
  { uninit with
    sinFamily := UdpLayer.AF_INET
    sinPort := (Udp.fourTuple skbuf).fport
    sinAddr := (Udp.fourTuple skbuf).faddr }

/-- The `recv` of the PCB that a packet is for. -/
def udpRecv (uninit : SockaddrIn) (skbuf : SocketBuffer) (next : List SocketBuffer)
    (slot : Slot Pcb) (_ : Pcb) : Slot Pcb × List Event :=
  UdpPcb.recv slot (peeraddr uninit skbuf) skbuf next

def tcpRecv (uninit : SockaddrIn) (skbuf : SocketBuffer) (next : List SocketBuffer)
    (slot : Slot TcpPcb) (pcb : TcpPcb) : Slot TcpPcb × List Event :=
  TcpPcb.recv slot pcb uninit skbuf next

/-- What one packet with a four-tuple did to the PCBs of its protocol: `recv` was called on
the one that received it, and on no other. -/
structure Isolated {P : Type} (toPcb : P → Pcb) (recv : Slot P → P → Slot P × List Event)
    (t : FourTuple) (pcbs pcbs' : List (Slot P)) (events : List Event) : Prop where
  at_most_one : (receivers events).length ≤ 1
  receiver_matches : ∀ i ∈ receivers events, ∃ slot pcb,
    pcbs[i]? = some slot ∧ slot.pcb = some pcb ∧ Matches t (toPcb pcb) ∧
      pcbs'[i]? = some (recv slot pcb).1 ∧ (recv slot pcb).2 <:+ events
  dropped_iff : .dropped ∈ events ↔
    ∀ slot ∈ pcbs, ∀ pcb, slot.pcb = some pcb → ¬ Matches t (toPcb pcb)
  dropped_iff_not_received : .dropped ∈ events ↔ receivers events = []
  others_unchanged : ∀ j, j ∉ receivers events → pcbs'[j]? = pcbs[j]?

/-- Events that neither hand a packet to a PCB nor drop it. -/
def Internal (events : List Event) : Prop :=
  ∀ e ∈ events, (∀ i, e ≠ .received i) ∧ e ≠ .dropped

theorem Internal.append {events events' : List Event} (h : Internal events)
    (h' : Internal events') : Internal (events ++ events') := by
  intro e he
  rcases List.mem_append.mp he with he | he
  · exact h e he
  · exact h' e he

theorem Internal.receivers_eq_nil {events : List Event} (h : Internal events) :
    receivers events = [] := by
  rw [receivers, List.filterMap_eq_nil_iff]
  intro e he
  cases e with
  | received i => exact absurd rfl ((h _ he).1 i)
  | _ => rfl

theorem internal_deliver {P : Type} (slot : Slot P) (peeraddr : SockaddrIn)
    (skbuf : SocketBuffer) (next : List SocketBuffer) :
    Internal (slot.deliver peeraddr skbuf next).2 := by
  unfold Slot.deliver
  split
  · simp [Internal]
  · split <;> simp [Internal]

theorem internal_tcp_recv (slot : Slot TcpPcb) (pcb : TcpPcb) (peerAddr : SockaddrIn)
    (skbuf : SocketBuffer) (next : List SocketBuffer) :
    Internal (TcpPcb.recv slot pcb peerAddr skbuf next).2 := by
  unfold TcpPcb.recv
  split
  · simp only [TcpPcb.recvSynSent]
    refine .append (.append ?_ ?_) ?_
    · split <;> simp [Internal]
    · simp [Internal]
    · simp [Internal]
  · simp only
    split
    · split
      · exact internal_deliver _ _ _ _
      · refine .append (internal_deliver _ _ _ _) ?_
        simp [Internal]
    · simp [Internal]
  · simp [Internal]

theorem isolated_of_find_none {P : Type} {toPcb : P → Pcb}
    {recv : Slot P → P → Slot P × List Event} {t : FourTuple}
    {pcbs : List (Slot P)} {transportHdr size payloadEnd : Nat}
    (h : find (pcbs.map fun slot => slot.pcb.map toPcb) t = none) :
    Isolated toPcb recv t pcbs pcbs [.headerRead transportHdr size payloadEnd, .dropped] := by
  have hnone := find_eq_none_iff.mp h
  refine ⟨by simp [receivers], by simp [receivers], ?_, by simp [receivers], fun _ _ => rfl⟩
  simp only [List.mem_cons, reduceCtorEq, List.not_mem_nil, or_false, false_or, true_iff]
  intro slot hslot pcb hpcb
  refine hnone (toPcb pcb) (List.mem_map.mpr ⟨slot, hslot, ?_⟩)
  rw [hpcb, Option.map_some]

theorem slot_of_find_some {P : Type} {toPcb : P → Pcb} {t : FourTuple}
    {pcbs : List (Slot P)} {i : Nat}
    (h : find (pcbs.map fun slot => slot.pcb.map toPcb) t = some i) :
    ∃ slot pcb, pcbs[i]? = some slot ∧ slot.pcb = some pcb ∧ Matches t (toPcb pcb) := by
  obtain ⟨curr, hget, hmatches⟩ := find_eq_some h
  rw [List.getElem?_map, Option.map_eq_some_iff] at hget
  obtain ⟨slot, hslot, hpcb⟩ := hget
  obtain ⟨pcb, hlive, rfl⟩ := Option.map_eq_some_iff.mp hpcb
  exact ⟨slot, pcb, hslot, hlive, hmatches⟩

theorem isolated_of_find_some {P : Type} {toPcb : P → Pcb}
    {recv : Slot P → P → Slot P × List Event} {t : FourTuple} {pcbs : List (Slot P)} {i : Nat}
    {slot : Slot P} {pcb : P} {transportHdr size payloadEnd : Nat}
    (hslot : pcbs[i]? = some slot) (hpcb : slot.pcb = some pcb) (hmatches : Matches t (toPcb pcb))
    (hevents : Internal (recv slot pcb).2) :
    Isolated toPcb recv t pcbs (pcbs.set i (recv slot pcb).1)
      (.headerRead transportHdr size payloadEnd :: .received i :: (recv slot pcb).2) := by
  generalize hcall : recv slot pcb = called at hevents ⊢
  obtain ⟨slot', events⟩ := called
  have hreceivers : receivers
      (.headerRead transportHdr size payloadEnd :: .received i :: events) = [i] := by
    have hnil := hevents.receivers_eq_nil
    rw [receivers] at hnil
    simp [receivers, hnil]
  have hkept : Event.dropped ∉
      Event.headerRead transportHdr size payloadEnd :: .received i :: events := by
    intro hmem
    simp only [List.mem_cons, reduceCtorEq, false_or] at hmem
    exact (hevents _ hmem).2 rfl
  refine ⟨by simp [hreceivers], ?_, ?_, ?_, ?_⟩
  · intro j hj
    rw [hreceivers, List.mem_singleton] at hj
    subst hj
    have hlt : j < pcbs.length := (List.getElem?_eq_some_iff.mp hslot).1
    refine ⟨slot, pcb, hslot, hpcb, hmatches, ?_, ?_⟩
    · rw [hcall, List.getElem?_set_self hlt]
    · rw [hcall]
      exact List.suffix_append [.headerRead transportHdr size payloadEnd, .received j] events
  · refine iff_of_false hkept fun hall => ?_
    exact hall slot (List.mem_of_getElem? hslot) pcb hpcb hmatches
  · exact iff_of_false hkept (by simp [hreceivers])
  · intro j hj
    rw [hreceivers, List.mem_singleton] at hj
    exact List.getElem?_set_ne (Ne.symm hj)

theorem udp_rx_isolated (udp : Udp) (uninit : SockaddrIn) (skbuf : SocketBuffer)
    (next : List SocketBuffer) :
    Isolated id (udpRecv uninit skbuf next) (Udp.fourTuple skbuf) udp.pcbs
      (udp.rx uninit skbuf next).1.pcbs (udp.rx uninit skbuf next).2 := by
  have hpcbs : udp.find (Udp.fourTuple skbuf) =
      find (udp.pcbs.map fun slot => slot.pcb.map id) (Udp.fourTuple skbuf) := by
    simp [Udp.find]
  cases hfind : udp.find (Udp.fourTuple skbuf) with
  | none =>
      simp only [Udp.rx, hfind]
      exact isolated_of_find_none (hpcbs ▸ hfind)
  | some i =>
      obtain ⟨slot, pcb, hslot, hpcb, hmatches⟩ := slot_of_find_some (hpcbs ▸ hfind)
      have hget : udp.pcbs.getD i .expired = slot := by simp [hslot]
      simp only [Udp.rx, hfind, hget]
      have hevents : Internal (udpRecv uninit skbuf next slot pcb).2 := internal_deliver _ _ _ _
      exact isolated_of_find_some hslot hpcb hmatches hevents

theorem tcp_rx_isolated (tcp : Tcp) (uninit : SockaddrIn) (skbuf : SocketBuffer)
    (next : List SocketBuffer) :
    Isolated TcpPcb.toPcb (tcpRecv uninit skbuf next) (Tcp.fourTuple skbuf) tcp.pcbs
      (tcp.rx uninit skbuf next).1.pcbs (tcp.rx uninit skbuf next).2 := by
  cases hfind : tcp.find (Tcp.fourTuple skbuf) with
  | none =>
      simp only [Tcp.rx, hfind]
      exact isolated_of_find_none hfind
  | some i =>
      obtain ⟨slot, pcb, hslot, hpcb, hmatches⟩ := slot_of_find_some hfind
      have hget : tcp.pcbs.getD i .expired = slot := by simp [hslot]
      simp only [Tcp.rx, hfind, hget, hpcb]
      have hevents : Internal (tcpRecv uninit skbuf next slot pcb).2 :=
        internal_tcp_recv _ _ _ _ _
      exact isolated_of_find_some hslot hpcb hmatches hevents

inductive PcbCall
  | connect (faddr : UInt32) (fport : UInt16)
  | send (buf : List UInt8)
  | sendto (faddr : UInt32) (fport : UInt16) (buf : List UInt8)
  | disconnect
deriving DecidableEq, Repr

def udpCall (port : UInt16) (pcb : Pcb) : PcbCall → UInt16 × Pcb
  | .connect faddr fport => pcb.connect port faddr fport
  | .send buf =>
      let (port, pcb, _) := UdpPcb.send port pcb buf
      (port, pcb)
  | .sendto faddr fport buf =>
      let (port, pcb, _) := UdpPcb.sendto port pcb faddr fport buf
      (port, pcb)
  | .disconnect => (port, pcb.disconnect)

/-- TCP overrides neither `send` to an address nor, with a body, `disconnect`. -/
def tcpCall (port : UInt16) (pcb : TcpPcb) : PcbCall → UInt16 × TcpPcb
  | .connect faddr fport =>
      let (port, pcb, _) := pcb.connect port faddr fport
      (port, pcb)
  | .send buf =>
      let (port, pcb, _) := TcpPcb.send port pcb buf
      (port, pcb)
  | .sendto _ fport _ =>
      let (port, base, _) := pcb.toPcb.sendto port fport
      (port, { pcb with toPcb := base })
  | .disconnect => (port, pcb)

def callAt {P : Type} (call : UInt16 → P → PcbCall → UInt16 × P) (pcbs : List (Slot P))
    (port : UInt16) (i : Nat) (c : PcbCall) : Option (List (Slot P) × UInt16) :=
  match pcbs[i]? with
  | some { pcb := some pcb, socket } =>
      let (port, pcb) := call port pcb c
      some (pcbs.set i { pcb := some pcb, socket := socket }, port)
  | _ => none

def destroyAt {P : Type} (pcbs : List (Slot P)) (i : Nat) : Option (List (Slot P)) :=
  match pcbs[i]? with
  | some { pcb := some _, .. } => some (pcbs.set i .expired)
  | _ => none

/-- The steps of a run on one protocol.  `Fresh` is what a new PCB starts from. -/
inductive Step (Fresh : Type)
  | newPcb (fresh : Fresh) (so : Socket)
  | call (i : Nat) (c : PcbCall)
  | destroy (i : Nat)
  | rx (uninit : SockaddrIn) (skbuf : SocketBuffer) (next : List SocketBuffer)

def udpMachine : Machine Udp (Step UInt32) where
  initial udp := udp.pcbs = []
  next udp
    | .newPcb stackAddr so => some (udp.newPcb stackAddr so)
    | .call i c => (callAt udpCall udp.pcbs udp.port i c).map fun r => ⟨r.1, r.2⟩
    | .destroy i => (destroyAt udp.pcbs i).map fun pcbs => { udp with pcbs := pcbs }
    | .rx uninit skbuf next => some (udp.rx uninit skbuf next).1

/-- A new TCP PCB has the stack's address and four uninitialised words. -/
def tcpMachine : Machine Tcp (Step (UInt32 × UInt32 × UInt32 × UInt32 × UInt32)) where
  initial tcp := tcp.pcbs = []
  next tcp
    | .newPcb (stackAddr, sendUnack, sendNext, irs, recvNext) so =>
        some (tcp.newPcb (.new stackAddr sendUnack sendNext irs recvNext) so)
    | .call i c => (callAt tcpCall tcp.pcbs tcp.port i c).map fun r => ⟨r.1, r.2⟩
    | .destroy i => (destroyAt tcp.pcbs i).map fun pcbs => { tcp with pcbs := pcbs }
    | .rx uninit skbuf next => some (tcp.rx uninit skbuf next).1

/-- A PCB is alive just as long as its socket. -/
def Owned {P : Type} (pcbs : List (Slot P)) : Prop :=
  ∀ slot ∈ pcbs, slot.pcb.isSome = slot.socket.isSome

theorem Owned.append_new {P : Type} {pcbs : List (Slot P)} (h : Owned pcbs) (pcb : P)
    (so : Socket) : Owned (pcbs ++ [{ pcb := some pcb, socket := some so }]) := by
  intro slot hslot
  rcases List.mem_append.mp hslot with hslot | hslot
  · exact h slot hslot
  · obtain rfl := List.mem_singleton.mp hslot
    rfl

theorem Owned.set {P : Type} {pcbs : List (Slot P)} (h : Owned pcbs) {slot : Slot P}
    (hslot : slot.pcb.isSome = slot.socket.isSome) (i : Nat) : Owned (pcbs.set i slot) := by
  intro slot' hslot'
  rcases List.mem_or_eq_of_mem_set hslot' with hmem | rfl
  · exact h slot' hmem
  · exact hslot

theorem Owned.callAt {P : Type} {call : UInt16 → P → PcbCall → UInt16 × P}
    {pcbs : List (Slot P)} {port : UInt16} {i : Nat} {c : PcbCall}
    {r : List (Slot P) × UInt16} (h : Owned pcbs)
    (hcall : callAt call pcbs port i c = some r) : Owned r.1 := by
  unfold DeliveryIsolation.callAt at hcall
  split at hcall
  · rename_i pcb socket hget
    cases hcall
    have hlive := h _ (List.mem_of_getElem? hget)
    exact Owned.set h (by exact hlive) i
  · cases hcall

theorem Owned.destroyAt {P : Type} {pcbs pcbs' : List (Slot P)} {i : Nat} (h : Owned pcbs)
    (hdestroy : destroyAt pcbs i = some pcbs') : Owned pcbs' := by
  unfold DeliveryIsolation.destroyAt at hdestroy
  split at hdestroy
  · cases hdestroy
    exact h.set rfl i
  · cases hdestroy

theorem deliver_isSome {P : Type} (slot : Slot P) (peeraddr : SockaddrIn)
    (skbuf : SocketBuffer) (next : List SocketBuffer) :
    (slot.deliver peeraddr skbuf next).1.pcb = slot.pcb ∧
      (slot.deliver peeraddr skbuf next).1.socket.isSome = slot.socket.isSome := by
  unfold Slot.deliver
  split
  · exact ⟨rfl, rfl⟩
  · rename_i so hso
    exact ⟨rfl, by rw [hso]; rfl⟩

theorem deliver_not_nullSocket {P : Type} {slot : Slot P} (h : slot.socket.isSome)
    (peeraddr : SockaddrIn) (skbuf : SocketBuffer) (next : List SocketBuffer) :
    .nullSocket ∉ (slot.deliver peeraddr skbuf next).2 := by
  unfold Slot.deliver
  split
  · rename_i hnone
    simp [hnone] at h
  · split <;> simp

theorem tcp_recv_isSome {slot : Slot TcpPcb} {pcb : TcpPcb} (hpcb : slot.pcb = some pcb)
    (hsocket : slot.socket.isSome) (peerAddr : SockaddrIn) (skbuf : SocketBuffer)
    (next : List SocketBuffer) :
    let r := TcpPcb.recv slot pcb peerAddr skbuf next
    r.1.pcb.isSome ∧ r.1.socket.isSome ∧ .nullSocket ∉ r.2 := by
  have hdeliver := deliver_isSome slot peerAddr (TcpPcb.locatePayload skbuf) next
  have hquiet :=
    deliver_not_nullSocket hsocket peerAddr (TcpPcb.locatePayload skbuf) next
  rw [← hdeliver.2] at hsocket
  unfold TcpPcb.recv
  split
  · refine ⟨rfl, hdeliver.2 ▸ hsocket, ?_⟩
    simp only [TcpPcb.recvSynSent]
    split <;> simp
  · simp only
    split
    · split
      · exact ⟨by rw [hdeliver.1, hpcb]; rfl, hsocket, hquiet⟩
      · refine ⟨rfl, hsocket, ?_⟩
        simpa using hquiet
    · exact ⟨rfl, hdeliver.2 ▸ hsocket, by simp⟩
  · exact ⟨by rw [hpcb]; rfl, hdeliver.2 ▸ hsocket, by simp⟩

theorem udp_rx_owned {udp : Udp} (h : Owned udp.pcbs) (uninit : SockaddrIn)
    (skbuf : SocketBuffer) (next : List SocketBuffer) :
    Owned (udp.rx uninit skbuf next).1.pcbs ∧
      .nullSocket ∉ (udp.rx uninit skbuf next).2 := by
  cases hfind : udp.find (Udp.fourTuple skbuf) with
  | none =>
      simp only [Udp.rx, hfind]
      exact ⟨h, by simp⟩
  | some i =>
      have hpcbs : udp.find (Udp.fourTuple skbuf) =
          find (udp.pcbs.map fun slot => slot.pcb.map id) (Udp.fourTuple skbuf) := by
        simp [Udp.find]
      obtain ⟨slot, pcb, hslot, hpcb, -⟩ := slot_of_find_some (hpcbs ▸ hfind)
      have hget : udp.pcbs.getD i .expired = slot := by simp [hslot]
      have howned := h slot (List.mem_of_getElem? hslot)
      have hsocket : slot.socket.isSome := by
        rw [← howned, hpcb]
        rfl
      simp only [Udp.rx, hfind, hget, UdpPcb.recv]
      refine ⟨Owned.set h ?_ i, ?_⟩
      · have hdeliver := deliver_isSome slot
        rw [(hdeliver _ _ _).1, (hdeliver _ _ _).2]
        exact howned
      · simpa using deliver_not_nullSocket hsocket _ _ _

theorem tcp_rx_owned {tcp : Tcp} (h : Owned tcp.pcbs) (uninit : SockaddrIn)
    (skbuf : SocketBuffer) (next : List SocketBuffer) :
    Owned (tcp.rx uninit skbuf next).1.pcbs ∧
      .nullSocket ∉ (tcp.rx uninit skbuf next).2 := by
  cases hfind : tcp.find (Tcp.fourTuple skbuf) with
  | none =>
      simp only [Tcp.rx, hfind]
      exact ⟨h, by simp⟩
  | some i =>
      obtain ⟨slot, pcb, hslot, hpcb, -⟩ := slot_of_find_some hfind
      have hget : tcp.pcbs.getD i .expired = slot := by simp [hslot]
      have howned := h slot (List.mem_of_getElem? hslot)
      have hsocket : slot.socket.isSome := by
        rw [← howned, hpcb]
        rfl
      obtain ⟨hpcb', hsocket', hquiet⟩ := tcp_recv_isSome hpcb hsocket uninit skbuf next
      simp only [Tcp.rx, hfind, hget, hpcb]
      exact ⟨Owned.set h (by rw [hpcb', hsocket']) i, by simpa using hquiet⟩

theorem udp_owned {udp : Udp} (h : udpMachine.Reachable udp) : Owned udp.pcbs := by
  refine Machine.ReachableUnder.invariant (I := fun udp => Owned udp.pcbs) ?_ ?_ h
  · intro udp hinitial slot hslot
    rw [hinitial] at hslot
    cases hslot
  · intro udp step udp' howned _ hnext
    cases step with
    | newPcb stackAddr so =>
        cases hnext
        exact howned.append_new _ _
    | call i c =>
        obtain ⟨r, hcall, rfl⟩ := Option.map_eq_some_iff.mp hnext
        exact howned.callAt hcall
    | destroy i =>
        obtain ⟨pcbs, hdestroy, rfl⟩ := Option.map_eq_some_iff.mp hnext
        exact howned.destroyAt hdestroy
    | rx uninit skbuf next =>
        cases hnext
        exact (udp_rx_owned howned _ _ _).1

theorem tcp_owned {tcp : Tcp} (h : tcpMachine.Reachable tcp) : Owned tcp.pcbs := by
  refine Machine.ReachableUnder.invariant (I := fun tcp => Owned tcp.pcbs) ?_ ?_ h
  · intro tcp hinitial slot hslot
    rw [hinitial] at hslot
    cases hslot
  · intro tcp step tcp' howned _ hnext
    cases step with
    | newPcb fresh so =>
        cases hnext
        exact howned.append_new _ _
    | call i c =>
        obtain ⟨r, hcall, rfl⟩ := Option.map_eq_some_iff.mp hnext
        exact howned.callAt hcall
    | destroy i =>
        obtain ⟨pcbs, hdestroy, rfl⟩ := Option.map_eq_some_iff.mp hnext
        exact howned.destroyAt hdestroy
    | rx uninit skbuf next =>
        cases hnext
        exact (tcp_rx_owned howned _ _ _).1

/-- Whatever a protocol went through before, a packet reaches at most one PCB,
one that matches it and whose `recv` is called, and changes no other. -/
theorem delivery_isolated :
    (∀ udp, udpMachine.Reachable udp → ∀ uninit skbuf next,
      Isolated id (udpRecv uninit skbuf next) (Udp.fourTuple skbuf) udp.pcbs
          (udp.rx uninit skbuf next).1.pcbs (udp.rx uninit skbuf next).2 ∧
        .nullSocket ∉ (udp.rx uninit skbuf next).2) ∧
      ∀ tcp, tcpMachine.Reachable tcp → ∀ uninit skbuf next,
        Isolated TcpPcb.toPcb (tcpRecv uninit skbuf next) (Tcp.fourTuple skbuf) tcp.pcbs
            (tcp.rx uninit skbuf next).1.pcbs (tcp.rx uninit skbuf next).2 ∧
          .nullSocket ∉ (tcp.rx uninit skbuf next).2 := by
  constructor
  · intro udp hreach uninit skbuf next
    exact ⟨udp_rx_isolated udp uninit skbuf next,
      (udp_rx_owned (udp_owned hreach) uninit skbuf next).2⟩
  · intro tcp hreach uninit skbuf next
    exact ⟨tcp_rx_isolated tcp uninit skbuf next,
      (tcp_rx_owned (tcp_owned hreach) uninit skbuf next).2⟩

def sampleSteps : List (Step UInt32) :=
  [.newPcb 0x0200000a { type := .UDP, nonblocking := false },
    .call 0 (.sendto 0x0100000a 0x3500 [1, 2])]

def sampleUdp : Udp :=
  { pcbs :=
      [{ pcb := some { faddr := 0, fport := 0, laddr := 0x0200000a, lport := 0x0104 }
         socket := some { type := .UDP, nonblocking := false } }]
    port := 1025 }

def sampleAnswer : SocketBuffer :=
  { tunDeviceRx ([0x45, 0, 0, 29, 0, 7, 0, 0, 64, 17, 0, 0, 10, 0, 0, 1, 10, 0, 0, 2] ++
      [0, 53, 4, 1, 0, 9, 0, 0] ++ [42]) with
    transportHdr := some 20 }

theorem sampleUdp_reachable : udpMachine.Reachable sampleUdp := by
  have hrun : udpMachine.exec { pcbs := [], port := 1024 } sampleSteps = some sampleUdp := by
    decide
  refine Machine.reachable_of_exec ?_ hrun
  exact .initial rfl

theorem delivery_isolated_sampleUdp :
    receivers (sampleUdp.rx .zero sampleAnswer []).2 = [0] ∧
      (Isolated id (udpRecv .zero sampleAnswer []) (Udp.fourTuple sampleAnswer) sampleUdp.pcbs
          (sampleUdp.rx .zero sampleAnswer []).1.pcbs (sampleUdp.rx .zero sampleAnswer []).2 ∧
        .nullSocket ∉ (sampleUdp.rx .zero sampleAnswer []).2) ∧
      Isolated TcpPcb.toPcb (tcpRecv .zero sampleAnswer []) (Tcp.fourTuple sampleAnswer) []
          (Tcp.rx { pcbs := [], port := 1024 } .zero sampleAnswer []).1.pcbs
          (Tcp.rx { pcbs := [], port := 1024 } .zero sampleAnswer []).2 ∧
        .nullSocket ∉ (Tcp.rx { pcbs := [], port := 1024 } .zero sampleAnswer []).2 :=
  ⟨by decide, delivery_isolated.1 _ sampleUdp_reachable _ _ _,
    delivery_isolated.2 { pcbs := [], port := 1024 } (.initial rfl) _ _ _⟩

end MuQuinet.DeliveryIsolation
