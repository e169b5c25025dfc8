import MuQuinet.PacketEffects

namespace MuQuinet.PortUniqueness

open MuQuinet.Lib.Machines
open MuQuinet.Lib.Words
open MuQuinet.Buffers
open MuQuinet.DeliveryIsolation
open MuQuinet.IpHeaders
open MuQuinet.PacketEffects
open MuQuinet.Pcbs
open MuQuinet.Sockets
open MuQuinet.TcpLayer
open MuQuinet.UdpLayer
open MuQuinet.Wire

def hostPort (lport : UInt16) : Nat :=
  (be16ToCpu lport).toNat

/-- The local ports of a list of PCBs, `none` for the PCBs that are gone. -/
def lports {P : Type} (toPcb : P → Pcb) (pcbs : List (Slot P)) : List (Option UInt16) :=
  pcbs.map fun slot => slot.pcb.map fun pcb => (toPcb pcb).lport

/-- What binding a PCB, once or more, makes of the port counter and of its local port.
A counter that wraps gives the port 0, and the next attempt asks again. -/
inductive Bound (port : UInt16) : UInt16 → UInt16 → UInt16 → Prop
  | kept {lport : UInt16} : lport ≠ 0 → Bound port lport port lport
  | given : port ≠ 65535 → Bound port 0 (port + 1) (cpuToBe16 (port + 1))
  | wrapped : port = 65535 → Bound port 0 0 0
  | wrappedTwice : port = 65535 → Bound port 0 1 (cpuToBe16 1)

/-- What a step does to the local ports of a protocol's PCBs. -/
inductive Effect {F : Type} (port : UInt16) (ports : List (Option UInt16)) :
    Step F → List (Option UInt16) → Prop
  | newPcb (fresh : F) (so : Socket) : Effect port ports (.newPcb fresh so) (ports ++ [some 0])
  | bind {i : Nat} {c : PcbCall} {lport port' lport' : UInt16} : c ≠ .disconnect →
      ports[i]? = some (some lport) → Bound port lport port' lport' →
      Effect port ports (.call i c) (ports.set i (some lport'))
  | disconnect (i : Nat) : Effect port ports (.call i .disconnect) ports
  | destroy (i : Nat) : Effect port ports (.destroy i) (ports.set i none)
  | rx (uninit : SockaddrIn) (skbuf : SocketBuffer) (next : List SocketBuffer) :
      Effect port ports (.rx uninit skbuf next) ports

theorem hostPort_cpuToBe16 (port : UInt16) : hostPort (cpuToBe16 port) = port.toNat := by
  rw [hostPort, be16ToCpu, cpuToBe16, swap16_swap16]

theorem hostPort_injective {a b : UInt16} (h : hostPort a = hostPort b) : a = b := by
  have hswapped : swap16 a = swap16 b := UInt16.toNat_inj.mp h
  rw [← swap16_swap16 a, hswapped, swap16_swap16]

theorem toNat_succ {port : UInt16} (h : port ≠ 65535) : (port + 1).toNat = port.toNat + 1 := by
  have hlt := port.toNat_lt
  have hne : port.toNat ≠ 65535 := fun heq => h (UInt16.toNat_inj.mp heq)
  rw [UInt16.toNat_add]
  change (port.toNat + 1) % 65536 = _
  omega

theorem given_ne_zero {port : UInt16} (h : port ≠ 65535) : cpuToBe16 (port + 1) ≠ 0 := by
  intro hzero
  have hvalue := congrArg hostPort hzero
  rw [hostPort_cpuToBe16, toNat_succ h] at hvalue
  exact absurd hvalue (Nat.succ_ne_zero _)

theorem bind_of_ne_zero {port : UInt16} {pcb : Pcb} (h : pcb.lport ≠ 0) :
    Pcb.bind port pcb = (port, pcb) :=
  if_neg h

theorem bind_of_zero {port : UInt16} {pcb : Pcb} (h : pcb.lport = 0) :
    Pcb.bind port pcb = (port + 1, { pcb with lport := cpuToBe16 (port + 1) }) :=
  if_pos h

theorem bound_bind (port : UInt16) (pcb : Pcb) :
    Bound port pcb.lport (Pcb.bind port pcb).1 (Pcb.bind port pcb).2.lport := by
  by_cases hlport : pcb.lport = 0
  · rw [bind_of_zero hlport, hlport]
    by_cases hport : port = 65535
    · subst hport
      exact .wrapped rfl
    · exact .given hport
  · rw [bind_of_ne_zero hlport]
    exact .kept hlport

theorem Bound.again {port lport port' : UInt16} {pcb : Pcb} (h : Bound port lport port' pcb.lport) :
    Bound port lport (Pcb.bind port' pcb).1 (Pcb.bind port' pcb).2.lport := by
  generalize hlport : pcb.lport = lport' at h
  cases h with
  | kept hne =>
      rw [bind_of_ne_zero (hlport ▸ hne), hlport]
      exact .kept hne
  | given hport =>
      rw [bind_of_ne_zero (hlport ▸ given_ne_zero hport), hlport]
      exact .given hport
  | wrapped hport =>
      rw [bind_of_zero hlport]
      exact .wrappedTwice hport
  | wrappedTwice hport =>
      rw [bind_of_ne_zero (hlport ▸ by decide), hlport]
      exact .wrappedTwice hport

theorem bound_udpCall (port : UInt16) (pcb : Pcb) {c : PcbCall} (hc : c ≠ .disconnect) :
    Bound port pcb.lport (udpCall port pcb c).1 (udpCall port pcb c).2.lport := by
  cases c with
  | connect faddr fport => exact bound_bind port { pcb with faddr := faddr, fport := fport }
  | send buf => exact bound_bind port pcb
  | sendto faddr fport buf =>
      have hconnect := @Bound.again port pcb.lport (Pcb.bind port pcb).1
        { (Pcb.bind port pcb).2 with faddr := faddr, fport := fport } (bound_bind port pcb)
      simp only [udpCall, UdpPcb.sendto, UdpPcb.send, Pcb.sendto, Pcb.send, Pcb.connect,
        Pcb.disconnect]
      exact hconnect.again
  | disconnect => exact absurd rfl hc

theorem bound_tcpCall (port : UInt16) (pcb : TcpPcb) {c : PcbCall} (hc : c ≠ .disconnect) :
    Bound port pcb.lport (tcpCall port pcb c).1 (tcpCall port pcb c).2.lport := by
  cases c with
  | connect faddr fport =>
      have hconnect := bound_bind port { pcb.toPcb with faddr := faddr, fport := fport }
      generalize hbase : Pcb.bind port { pcb.toPcb with faddr := faddr, fport := fport } = base
        at hconnect
      have hcall : tcpCall port pcb (.connect faddr fport) =
          ((TcpPcb.send base.1 { pcb with toPcb := base.2 } []).1,
            (TcpPcb.send base.1 { pcb with toPcb := base.2 } []).2.1) := by
        subst hbase
        rfl
      obtain ⟨hport, hpcb⟩ := TcpIntegrity.send_toPcb base.1 { pcb with toPcb := base.2 } []
      rw [hcall, hport, hpcb]
      exact hconnect.again
  | send buf =>
      have hcall : tcpCall port pcb (.send buf) =
          ((TcpPcb.send port pcb buf).1, (TcpPcb.send port pcb buf).2.1) := rfl
      obtain ⟨hport, hpcb⟩ := TcpIntegrity.send_toPcb port pcb buf
      rw [hcall, hport, hpcb]
      exact bound_bind port pcb.toPcb
  | sendto faddr fport buf => exact bound_bind port pcb.toPcb
  | disconnect => exact absurd rfl hc

section Lists

variable {P : Type} {toPcb : P → Pcb} {pcbs : List (Slot P)}

theorem getElem?_lports {i : Nat} {pcb : P} {socket : Option Socket}
    (h : pcbs[i]? = some { pcb := some pcb, socket := socket }) :
    (lports toPcb pcbs)[i]? = some (some (toPcb pcb).lport) := by
  simp [lports, h]

theorem lports_set (i : Nat) (slot : Slot P) :
    lports toPcb (pcbs.set i slot) =
      (lports toPcb pcbs).set i (slot.pcb.map fun pcb => (toPcb pcb).lport) :=
  List.map_set

theorem lports_append (slot : Slot P) :
    lports toPcb (pcbs ++ [slot]) =
      lports toPcb pcbs ++ [slot.pcb.map fun pcb => (toPcb pcb).lport] :=
  List.map_append

/-- A PCB that is put back with the same local port leaves the list of ports alone. -/
theorem lports_set_of_eq {i : Nat} {slot : Slot P}
    (h : slot.pcb.map (fun pcb => (toPcb pcb).lport) =
      (pcbs.getD i .expired).pcb.map fun pcb => (toPcb pcb).lport) :
    lports toPcb (pcbs.set i slot) = lports toPcb pcbs := by
  rw [lports, List.map_set, h]
  rcases Nat.lt_or_ge i pcbs.length with hlt | hge
  · have hlength : i < (pcbs.map fun slot => slot.pcb.map fun pcb => (toPcb pcb).lport).length := by
      simpa using hlt
    have hget : (pcbs.map fun slot => slot.pcb.map fun pcb => (toPcb pcb).lport)[i] =
        (pcbs.getD i .expired).pcb.map fun pcb => (toPcb pcb).lport := by
      simp [hlt]
    rw [← hget, List.set_getElem_self]
    rfl
  · rw [List.set_eq_of_length_le (by simpa using hge)]
    rfl

theorem effect_callAt {F : Type} {call : UInt16 → P → PcbCall → UInt16 × P} {port : UInt16}
    {i : Nat}
    {c : PcbCall} {r : List (Slot P) × UInt16}
    (hbound : ∀ pcb, c ≠ .disconnect → Bound port (toPcb pcb).lport (call port pcb c).1
      (toPcb (call port pcb c).2).lport)
    (hkept : ∀ pcb, (toPcb (call port pcb .disconnect).2).lport = (toPcb pcb).lport)
    (h : callAt call pcbs port i c = some r) :
    Effect (F := F) port (lports toPcb pcbs) (.call i c) (lports toPcb r.1) := by
  unfold callAt at h
  split at h
  · rename_i pcb socket hget
    cases h
    by_cases hc : c = .disconnect
    · subst hc
      rw [lports_set_of_eq (by simpa [hget] using hkept pcb)]
      exact .disconnect i
    · rw [lports_set]
      exact .bind hc (getElem?_lports hget) (hbound pcb hc)
  · cases h

theorem effect_destroyAt {F : Type} {port : UInt16} {i : Nat} {pcbs' : List (Slot P)}
    (h : destroyAt pcbs i = some pcbs') :
    Effect (F := F) port (lports toPcb pcbs) (.destroy i) (lports toPcb pcbs') := by
  unfold destroyAt at h
  split at h
  · cases h
    rw [lports_set]
    exact .destroy i
  · cases h

theorem effect_newPcb {F : Type} {port : UInt16} (fresh : F) {pcb : P}
    (hpcb : (toPcb pcb).lport = 0)
    (so : Socket) :
    Effect port (lports toPcb pcbs) (.newPcb fresh so)
      (lports toPcb (pcbs ++ [{ pcb := some pcb, socket := some so }])) := by
  rw [lports_append, Option.map_some, hpcb]
  exact .newPcb fresh so

end Lists

theorem lports_udp_rx (udp : Udp) (uninit : SockaddrIn) (skbuf : SocketBuffer)
    (next : List SocketBuffer) :
    lports id (udp.rx uninit skbuf next).1.pcbs = lports id udp.pcbs := by
  unfold Udp.rx
  dsimp only
  split
  · rfl
  · apply lports_set_of_eq
    rw [UdpPcb.recv, pcb_deliver]

theorem lport_recv {slot : Slot TcpPcb} {pcb : TcpPcb} (hpcb : slot.pcb = some pcb)
    (peerAddr : SockaddrIn) (skbuf : SocketBuffer) (next : List SocketBuffer) :
    (TcpPcb.recv slot pcb peerAddr skbuf next).1.pcb.map (fun pcb => pcb.lport) =
      slot.pcb.map fun pcb => pcb.lport := by
  have hack : (pcb.recvAck (tcphdr skbuf)).lport = pcb.lport := by
    unfold TcpPcb.recvAck
    split <;> rfl
  unfold TcpPcb.recv
  split
  · rw [hpcb]
    rfl
  · dsimp only
    split
    · split
      · rw [pcb_deliver]
      · rw [hpcb]
        exact congrArg some hack
    · rw [hpcb]
      exact congrArg some hack
  · rfl

theorem lports_tcp_rx (tcp : Tcp) (uninit : SockaddrIn) (skbuf : SocketBuffer)
    (next : List SocketBuffer) :
    lports TcpPcb.toPcb (tcp.rx uninit skbuf next).1.pcbs = lports TcpPcb.toPcb tcp.pcbs := by
  unfold Tcp.rx
  dsimp only
  split
  · rfl
  · split
    · rfl
    · rename_i pcb hpcb
      exact lports_set_of_eq (lport_recv hpcb uninit skbuf next)

theorem udp_effect {udp udp' : Udp} {a : Step UInt32} (h : udpMachine.next udp a = some udp') :
    Effect udp.port (lports id udp.pcbs) a (lports id udp'.pcbs) := by
  cases a with
  | newPcb stackAddr so =>
      cases h
      exact effect_newPcb stackAddr rfl so
  | call i c =>
      obtain ⟨r, hcall, rfl⟩ := Option.map_eq_some_iff.mp h
      exact effect_callAt (fun pcb hc => bound_udpCall udp.port pcb hc) (fun _ => rfl) hcall
  | destroy i =>
      obtain ⟨pcbs, hdestroy, rfl⟩ := Option.map_eq_some_iff.mp h
      exact effect_destroyAt hdestroy
  | rx uninit skbuf next =>
      cases h
      rw [lports_udp_rx]
      exact .rx uninit skbuf next

theorem tcp_effect {tcp tcp' : Tcp} {a : Step (UInt32 × UInt32 × UInt32 × UInt32 × UInt32)}
    (h : tcpMachine.next tcp a = some tcp') :
    Effect tcp.port (lports TcpPcb.toPcb tcp.pcbs) a (lports TcpPcb.toPcb tcp'.pcbs) := by
  cases a with
  | newPcb fresh so =>
      cases h
      exact effect_newPcb fresh rfl so
  | call i c =>
      obtain ⟨r, hcall, rfl⟩ := Option.map_eq_some_iff.mp h
      exact effect_callAt (fun pcb hc => bound_tcpCall tcp.port pcb hc) (fun _ => rfl) hcall
  | destroy i =>
      obtain ⟨pcbs, hdestroy, rfl⟩ := Option.map_eq_some_iff.mp h
      exact effect_destroyAt hdestroy
  | rx uninit skbuf next =>
      cases h
      rw [lports_tcp_rx]
      exact .rx uninit skbuf next

/-- A protocol and the PCBs that a call has bound. -/
structure Tracked (σ : Type) where
  protocol : σ
  bound : List Nat

def boundAfter {F : Type} (bound : List Nat) : Step F → List Nat
  | .call i c => if c = .disconnect then bound else i :: bound
  | _ => bound

/-- The runs of a protocol from its start, when the static counter of `nextAvailPort`
is 1024. -/
def tracked {σ F : Type} (M : Machine σ (Step F)) (port : σ → UInt16) :
    Machine (Tracked σ) (Step F) where
  initial s := M.initial s.protocol ∧ port s.protocol = 1024 ∧ s.bound = []
  next s a := (M.next s.protocol a).map fun protocol =>
    { protocol := protocol, bound := boundAfter s.bound a }

/-- The PCBs that are live and bound have ports above 1024, each its own. -/
structure PortsUnique (ports : List (Option UInt16)) (bound : List Nat) : Prop where
  above : ∀ i ∈ bound, ∀ lport, ports[i]? = some (some lport) → 1024 < hostPort lport
  distinct : ∀ i ∈ bound, ∀ j ∈ bound, ∀ lport, ports[i]? = some (some lport) →
    ports[j]? = some (some lport) → i = j

/-- A call on a PCB without a port finds the counter at or above 1024 and not at its
end, and no live PCB has the port that is next. -/
def FreshPort {F : Type} (port : UInt16) (ports : List (Option UInt16)) : Step F → Prop
  | .call i c => c ≠ .disconnect → ports[i]? = some (some 0) →
      1024 ≤ port.toNat ∧ port.toNat < 65535 ∧
        ∀ lport, some lport ∈ ports → hostPort lport ≠ port.toNat + 1
  | _ => True

/-- Besides, the PCBs that are not bound have no port. -/
structure Invariant (ports : List (Option UInt16)) (bound : List Nat) : Prop
    extends PortsUnique ports bound where
  unbound : ∀ i lport, i ∉ bound → ports[i]? = some (some lport) → lport = 0
  lt_length : ∀ i ∈ bound, i < ports.length

section Invariants

variable {F : Type} {port : UInt16} {ports ports' : List (Option UInt16)} {bound : List Nat}

theorem getElem?_set_cases {i j : Nat} {p : Option UInt16} {lport : UInt16}
    (h : (ports.set i p)[j]? = some (some lport)) :
    j = i ∧ p = some lport ∨ j ≠ i ∧ ports[j]? = some (some lport) := by
  rw [List.getElem?_set] at h
  split at h
  · rename_i heq
    split at h
    · exact .inl ⟨heq.symm, Option.some.inj h⟩
    · cases h
  · rename_i hne
    exact .inr ⟨Ne.symm hne, h⟩

theorem getElem?_set_of_get {i : Nat} {p : Option UInt16} (h : ports[i]? = some p)
    (p' : Option UInt16) : (ports.set i p')[i]? = some p' := by
  have hlt : i < ports.length := (List.getElem?_eq_some_iff.mp h).1
  simp [hlt]

theorem Invariant.mem_bound (h : Invariant ports bound) {i : Nat} {lport : UInt16}
    (hget : ports[i]? = some (some lport)) (hne : lport ≠ 0) : i ∈ bound := by
  by_contra hnot
  exact hne (h.unbound i lport hnot hget)

theorem Invariant.newPcb (h : Invariant ports bound) : Invariant (ports ++ [some 0]) bound := by
  have hold : ∀ i ∈ bound, (ports ++ [some (0 : UInt16)])[i]? = ports[i]? := fun i hi =>
    List.getElem?_append_left (h.lt_length i hi)
  refine ⟨⟨?_, ?_⟩, ?_, ?_⟩
  · intro i hi lport hget
    rw [hold i hi] at hget
    exact h.above i hi lport hget
  · intro i hi j hj lport hgeti hgetj
    rw [hold i hi] at hgeti
    rw [hold j hj] at hgetj
    exact h.distinct i hi j hj lport hgeti hgetj
  · intro i lport hi hget
    rw [List.getElem?_append] at hget
    split at hget
    · exact h.unbound i lport hi hget
    · rw [List.getElem?_singleton] at hget
      split at hget
      · exact (Option.some.inj (Option.some.inj hget)).symm
      · cases hget
  · intro i hi
    rw [List.length_append]
    exact Nat.lt_add_right _ (h.lt_length i hi)

theorem Invariant.destroy (h : Invariant ports bound) (i : Nat) :
    Invariant (ports.set i none) bound := by
  have hold : ∀ {j : Nat} {lport : UInt16}, (ports.set i none)[j]? = some (some lport) →
      ports[j]? = some (some lport) := by
    intro j lport hget
    rcases getElem?_set_cases hget with ⟨-, ⟨⟩⟩ | ⟨-, hget⟩
    exact hget
  refine ⟨⟨?_, ?_⟩, ?_, ?_⟩
  · exact fun j hj lport hget => h.above j hj lport (hold hget)
  · exact fun j hj k hk lport hgetj hgetk => h.distinct j hj k hk lport (hold hgetj) (hold hgetk)
  · exact fun j lport hj hget => h.unbound j lport hj (hold hget)
  · intro j hj
    rw [List.length_set]
    exact h.lt_length j hj

theorem Invariant.kept (h : Invariant ports bound) {i : Nat} (hi : i ∈ bound) :
    Invariant ports (i :: bound) := by
  have hmem : ∀ j, j ∈ i :: bound → j ∈ bound := by
    intro j hj
    rcases List.mem_cons.mp hj with rfl | hj
    · exact hi
    · exact hj
  refine ⟨⟨?_, ?_⟩, ?_, ?_⟩
  · exact fun j hj => h.above j (hmem j hj)
  · exact fun j hj k hk => h.distinct j (hmem j hj) k (hmem k hk)
  · exact fun j lport hj => h.unbound j lport fun hold => hj (List.mem_cons_of_mem _ hold)
  · exact fun j hj => h.lt_length j (hmem j hj)

/-- A port above 1024 that no live PCB has is given to one that had none. -/
theorem Invariant.given (h : Invariant ports bound) {i : Nat} {lport : UInt16}
    (hget : ports[i]? = some (some 0)) (habove : 1024 < hostPort lport)
    (hfresh : some lport ∉ ports) : Invariant (ports.set i (some lport)) (i :: bound) := by
  have hother : ∀ {j : Nat} {lport' : UInt16}, j ∈ i :: bound →
      (ports.set i (some lport))[j]? = some (some lport') →
      j = i ∧ lport' = lport ∨ j ∈ bound ∧ ports[j]? = some (some lport') := by
    intro j lport' hj hgetj
    rcases getElem?_set_cases hgetj with ⟨rfl, heq⟩ | ⟨hne, hgetj⟩
    · exact .inl ⟨rfl, (Option.some.inj heq).symm⟩
    · exact .inr ⟨(List.mem_cons.mp hj).resolve_left hne, hgetj⟩
  refine ⟨⟨?_, ?_⟩, ?_, ?_⟩
  · intro j hj lport' hgetj
    rcases hother hj hgetj with ⟨-, rfl⟩ | ⟨hmem, hgetj⟩
    · exact habove
    · exact h.above j hmem lport' hgetj
  · intro j hj k hk lport' hgetj hgetk
    rcases hother hj hgetj with ⟨hji, hnew⟩ | ⟨hjmem, holdj⟩
    · rcases hother hk hgetk with ⟨hki, -⟩ | ⟨-, holdk⟩
      · exact hji.trans hki.symm
      · rw [hnew] at holdk
        exact absurd (List.mem_of_getElem? holdk) hfresh
    · rcases hother hk hgetk with ⟨-, hnew⟩ | ⟨hkmem, holdk⟩
      · rw [hnew] at holdj
        exact absurd (List.mem_of_getElem? holdj) hfresh
      · exact h.distinct j hjmem k hkmem lport' holdj holdk
  · intro j lport' hj hgetj
    rw [List.mem_cons, not_or] at hj
    rcases getElem?_set_cases hgetj with ⟨heq, -⟩ | ⟨-, hgetj⟩
    · exact absurd heq hj.1
    · exact h.unbound j lport' hj.2 hgetj
  · intro j hj
    rw [List.length_set]
    rcases List.mem_cons.mp hj with rfl | hj
    · exact (List.getElem?_eq_some_iff.mp hget).1
    · exact h.lt_length j hj

/-- The condition for the next port to be given in order. -/
theorem freshPort_given_iff (h : Invariant ports bound) {i : Nat} (hget : ports[i]? = some (some 0))
    (hport : port ≠ 65535) :
    PortsUnique (ports.set i (some (cpuToBe16 (port + 1)))) (i :: bound) ↔
      1024 ≤ port.toNat ∧ ∀ lport, some lport ∈ ports → hostPort lport ≠ port.toNat + 1 := by
  have hgiven : hostPort (cpuToBe16 (port + 1)) = port.toNat + 1 := by
    rw [hostPort_cpuToBe16, toNat_succ hport]
  have hself := getElem?_set_of_get hget (some (cpuToBe16 (port + 1)))
  constructor
  · intro hunique
    have habove := hunique.above i List.mem_cons_self _ hself
    refine ⟨by omega, ?_⟩
    intro lport hmem hsame
    obtain rfl : lport = cpuToBe16 (port + 1) := hostPort_injective (hsame.trans hgiven.symm)
    obtain ⟨j, hgetj⟩ := List.mem_iff_getElem?.mp hmem
    have hne : i ≠ j := by
      rintro rfl
      rw [hget, Option.some.injEq, Option.some.injEq] at hgetj
      exact given_ne_zero hport hgetj.symm
    have hgetj' : (ports.set i (some (cpuToBe16 (port + 1))))[j]? =
        some (some (cpuToBe16 (port + 1))) := by
      rw [List.getElem?_set_ne hne]
      exact hgetj
    have hbound := List.mem_cons_of_mem i (h.mem_bound hgetj (given_ne_zero hport))
    exact hne (hunique.distinct i List.mem_cons_self j hbound _ hself hgetj')
  · rintro ⟨habove, hfresh⟩
    refine (h.given hget (by omega) ?_).toPortsUnique
    intro hmem
    exact hfresh _ hmem hgiven

theorem set_of_get {i : Nat} {p : Option UInt16} (h : ports[i]? = some p) :
    ports.set i p = ports := by
  apply List.ext_getElem?
  intro j
  rcases eq_or_ne i j with rfl | hne
  · rw [getElem?_set_of_get h, h]
  · exact List.getElem?_set_ne hne

theorem Invariant.step {a : Step F} (h : Invariant ports bound) (hfresh : FreshPort port ports a)
    (heffect : Effect port ports a ports') : Invariant ports' (boundAfter bound a) := by
  cases heffect with
  | newPcb => exact h.newPcb
  | destroy i => exact h.destroy i
  | disconnect => exact h
  | rx => exact h
  | bind hc hget hbound =>
      rw [boundAfter, if_neg hc]
      cases hbound with
      | kept hne =>
          rw [set_of_get hget]
          exact h.kept (h.mem_bound hget hne)
      | given hport =>
          obtain ⟨habove, -, hunused⟩ := hfresh hc hget
          have hgiven := hostPort_cpuToBe16 (port + 1)
          rw [toNat_succ hport] at hgiven
          exact h.given hget (by omega) fun hmem => hunused _ hmem hgiven
      | wrapped hport =>
          subst hport
          exact absurd (hfresh hc hget).2.1 (by decide)
      | wrappedTwice hport =>
          subst hport
          exact absurd (hfresh hc hget).2.1 (by decide)

theorem portsUnique_iff_fresh {a : Step F} (h : Invariant ports bound)
    (heffect : Effect port ports a ports') :
    PortsUnique ports' (boundAfter bound a) ↔ FreshPort port ports a := by
  refine ⟨?_, fun hfresh => (h.step hfresh heffect).toPortsUnique⟩
  intro hunique
  cases heffect with
  | newPcb => trivial
  | destroy => trivial
  | disconnect => exact fun hc => absurd rfl hc
  | rx => trivial
  | bind hc hget hbound =>
      rw [boundAfter, if_neg hc] at hunique
      intro _ hzero
      rw [hget, Option.some.injEq, Option.some.injEq] at hzero
      subst hzero
      have habove := hunique.above _ List.mem_cons_self _ (getElem?_set_of_get hget _)
      cases hbound with
      | kept hne => exact absurd rfl hne
      | given hport =>
          have hlt := toNat_succ hport ▸ (port + 1).toNat_lt
          obtain ⟨hlower, hunused⟩ := (freshPort_given_iff h hget hport).mp hunique
          exact ⟨hlower, by omega, hunused⟩
      | wrapped => exact absurd habove (by decide)
      | wrappedTwice => exact absurd habove (by decide)

end Invariants

section Runs

variable {σ F : Type} {M : Machine σ (Step F)} {port : σ → UInt16}
  {ports : σ → List (Option UInt16)}

/-- The guard of a protocol's runs. -/
def Fresh (port : σ → UInt16) (ports : σ → List (Option UInt16)) (s : Tracked σ) (a : Step F) :
    Prop :=
  FreshPort (port s.protocol) (ports s.protocol) a

def Unique (ports : σ → List (Option UInt16)) (s : Tracked σ) : Prop :=
  PortsUnique (ports s.protocol) s.bound

variable (hinitial : ∀ s, M.initial s → ports s = [])
  (heffect : ∀ s a t, M.next s a = some t → Effect (port s) (ports s) a (ports t))

include hinitial heffect

theorem invariant {s : Tracked σ} (h : (tracked M port).ReachableUnder (Fresh port ports) s) :
    Invariant (ports s.protocol) s.bound := by
  induction h with
  | initial hs =>
      obtain ⟨hprotocol, -, hbound⟩ := hs
      rw [hinitial _ hprotocol, hbound]
      exact ⟨⟨by simp, by simp⟩, by simp, by simp⟩
  | step _ hfresh hnext ih =>
      obtain ⟨protocol, hprotocol, rfl⟩ := Option.map_eq_some_iff.mp hnext
      exact ih.step hfresh (heffect _ _ _ hprotocol)

/-- Ports are unique in the runs that find them fresh, and a step that does not find
the port it needs fresh ends that. -/
theorem unique_iff_fresh (s : Tracked σ)
    (h : (tracked M port).ReachableUnder (Fresh port ports) s) :
    Unique ports s ∧ ∀ a t, (tracked M port).next s a = some t →
      (Unique ports t ↔ Fresh port ports s a) := by
  have hinvariant := invariant hinitial heffect h
  refine ⟨hinvariant.toPortsUnique, ?_⟩
  intro a t hnext
  obtain ⟨protocol, hprotocol, rfl⟩ := Option.map_eq_some_iff.mp hnext
  exact portsUnique_iff_fresh hinvariant (heffect _ _ _ hprotocol)

end Runs

def udpPorts (udp : Udp) : List (Option UInt16) :=
  lports id udp.pcbs

def tcpPorts (tcp : Tcp) : List (Option UInt16) :=
  lports TcpPcb.toPcb tcp.pcbs

def udpRuns : Machine (Tracked Udp) (Step UInt32) :=
  tracked udpMachine Udp.port

def tcpRuns : Machine (Tracked Tcp) (Step (UInt32 × UInt32 × UInt32 × UInt32 × UInt32)) :=
  tracked tcpMachine Tcp.port

/-- The ports of either protocol are unique in the runs whose calls find the port they
need fresh, and no longer after a call that does not. -/
theorem ports_unique_iff_fresh (udp : Tracked Udp) (tcp : Tracked Tcp) :
    (udpRuns.ReachableUnder (Fresh Udp.port udpPorts) udp →
      Unique udpPorts udp ∧ ∀ a udp', udpRuns.next udp a = some udp' →
        (Unique udpPorts udp' ↔ Fresh Udp.port udpPorts udp a)) ∧
    (tcpRuns.ReachableUnder (Fresh Tcp.port tcpPorts) tcp →
      Unique tcpPorts tcp ∧ ∀ a tcp', tcpRuns.next tcp a = some tcp' →
        (Unique tcpPorts tcp' ↔ Fresh Tcp.port tcpPorts tcp a)) := by
  constructor
  · apply unique_iff_fresh
    · intro udp hinitial
      rw [udpPorts, show udp.pcbs = [] from hinitial]
      rfl
    · exact fun _ _ _ hnext => udp_effect hnext
  · apply unique_iff_fresh
    · intro tcp hinitial
      rw [tcpPorts, show tcp.pcbs = [] from hinitial]
      rfl
    · exact fun _ _ _ hnext => tcp_effect hnext

def sampleSocket : Socket :=
  { type := .UDP, nonblocking := false }

theorem ports_unique_sample :
    ∃ udp : Tracked Udp, udp.bound = [0] ∧ Unique udpPorts udp := by
  have hinitial : udpRuns.ReachableUnder (Fresh Udp.port udpPorts)
      { protocol := { pcbs := [], port := 1024 }, bound := [] } := .initial ⟨rfl, rfl, rfl⟩
  have hcreated := hinitial.step (a := Step.newPcb 1 sampleSocket) trivial rfl
  have hconnected := hcreated.step (a := Step.call 0 (.connect 1 1)) (by
    intro _ _
    refine ⟨by decide, by decide, ?_⟩
    intro lport hmem
    obtain rfl : lport = 0 := by simpa [udpPorts, lports, Udp.newPcb, Pcb.new] using hmem
    decide) rfl
  exact ⟨_, rfl, ((ports_unique_iff_fresh _
    { protocol := { pcbs := [], port := 1024 }, bound := [] }).1 hconnected).1⟩

/-- Fewer PCBs are live than there are ports above 1024. -/
def FewLive (s : Tracked Udp) : Prop :=
  (udpPorts s.protocol).countP Option.isSome < 65535 - 1024

def NoneLive (udp : Udp) : Prop :=
  ∀ slot ∈ udp.pcbs, slot.pcb = none

theorem few_of_noneLive {s : Tracked Udp} (h : NoneLive s.protocol) (slots : List (Slot Pcb))
    (hslots : slots.length ≤ 1) (port : UInt16) (bound : List Nat) :
    FewLive { protocol := { pcbs := s.protocol.pcbs ++ slots, port := port }, bound := bound } := by
  have hnone : (lports id s.protocol.pcbs).countP Option.isSome = 0 := by
    rw [List.countP_eq_zero]
    intro p hp
    obtain ⟨slot, hslot, rfl⟩ := List.mem_map.mp hp
    rw [h slot hslot]
    decide
  have hone : (lports id slots).countP Option.isSome ≤ (lports id slots).length :=
    List.countP_le_length
  have hlength : (lports id slots).length = slots.length := List.length_map _
  rw [FewLive, udpPorts, lports, List.map_append, List.countP_append]
  change (lports id s.protocol.pcbs).countP _ + (lports id slots).countP _ < _
  omega

/-- A PCB is created and connected: it gets whatever port is next. -/
theorem connect_next {s : Tracked Udp} (hnone : NoneLive s.protocol)
    (h : udpRuns.ReachableUnder (fun s _ => FewLive s) s) :
    ∃ pcb : Pcb, pcb.lport = cpuToBe16 (s.protocol.port + 1) ∧
      udpRuns.ReachableUnder (fun s _ => FewLive s)
        { protocol :=
            { pcbs := s.protocol.pcbs ++ [{ pcb := some pcb, socket := some sampleSocket }]
              port := s.protocol.port + 1 }
          bound := s.protocol.pcbs.length :: s.bound } := by
  have hidle : FewLive s := by
    have hsame := few_of_noneLive hnone [] (Nat.zero_le _) s.protocol.port s.bound
    rw [List.append_nil] at hsame
    exact hsame
  have hcreated := h.step (a := Step.newPcb 1 sampleSocket) hidle rfl
  have hcall : callAt udpCall (s.protocol.newPcb 1 sampleSocket).pcbs s.protocol.port
      s.protocol.pcbs.length (.connect 1 1) =
      some (s.protocol.pcbs ++
        [{ pcb :=
             some { faddr := 1, fport := 1, laddr := 1, lport := cpuToBe16 (s.protocol.port + 1) }
           socket := some sampleSocket }], s.protocol.port + 1) := by
    simp [callAt, udpCall, Pcb.connect, Pcb.new, Pcb.bind, Pcb.nextAvailPort, Udp.newPcb]
  refine ⟨{ faddr := 1, fport := 1, laddr := 1, lport := cpuToBe16 (s.protocol.port + 1) }, rfl, ?_⟩
  apply hcreated.step (a := Step.call s.protocol.pcbs.length (.connect 1 1))
  · exact few_of_noneLive hnone _ (Nat.le_of_eq List.length_singleton) _ _
  · simp only [udpRuns, tracked, udpMachine, Udp.newPcb] at hcall ⊢
    rw [hcall]
    rfl

/-- One short connection after the other: the counter goes on, and no PCB stays. -/
theorem rounds (n : Nat) :
    ∃ s, udpRuns.ReachableUnder (fun s _ => FewLive s) s ∧
      s.protocol.port = 1024 + .ofNat n ∧ NoneLive s.protocol := by
  induction n with
  | zero =>
      refine ⟨{ protocol := { pcbs := [], port := 1024 }, bound := [] }, .initial ⟨rfl, rfl, rfl⟩,
        rfl, ?_⟩
      intro slot hslot
      cases hslot
  | succ n ih =>
      obtain ⟨s, hreached, hport, hnone⟩ := ih
      obtain ⟨pcb, -, hconnected⟩ := connect_next hnone hreached
      have hdestroy :
          destroyAt (s.protocol.pcbs ++ [{ pcb := some pcb, socket := some sampleSocket }])
            s.protocol.pcbs.length = some (s.protocol.pcbs ++ [.expired]) := by
        simp [destroyAt]
      have hdestroyed := hconnected.step (a := Step.destroy s.protocol.pcbs.length)
        (t :=
          { protocol := { pcbs := s.protocol.pcbs ++ [.expired], port := s.protocol.port + 1 }
            bound := s.protocol.pcbs.length :: s.bound })
        (few_of_noneLive hnone _ (Nat.le_of_eq List.length_singleton) _ _) (by
          simp only [udpRuns, tracked, udpMachine]
          rw [hdestroy]
          rfl)
      refine ⟨_, hdestroyed, ?_, ?_⟩
      · show s.protocol.port + 1 = 1024 + .ofNat (n + 1)
        rw [hport, UInt16.ofNat_add, UInt16.add_assoc]
        rfl
      · intro slot hslot
        rcases List.mem_append.mp hslot with hold | hnew
        · exact hnone slot hold
        · obtain rfl := List.mem_singleton.mp hnew
          rfl

/-- After 64511 short connections the counter has reached 65535, and the next PCB is
given the port 0. -/
theorem wrapped_port :
    ¬ ∀ s, udpRuns.ReachableUnder (fun s _ => FewLive s) s → FewLive s → Unique udpPorts s := by
  intro hunique
  obtain ⟨s, hreached, hport, hnone⟩ := rounds 64511
  obtain ⟨pcb, hlport, hconnected⟩ := connect_next hnone hreached
  have hzero : pcb.lport = 0 := by
    rw [hlport, hport]
    decide
  have hfew := few_of_noneLive hnone [{ pcb := some pcb, socket := some sampleSocket }]
    (Nat.le_refl 1) (s.protocol.port + 1) (s.protocol.pcbs.length :: s.bound)
  have hlive : (lports id (s.protocol.pcbs ++ [{ pcb := some pcb, socket := some sampleSocket }]))[
      s.protocol.pcbs.length]? = some (some 0) := by
    simp [lports, hzero]
  have habove := (hunique _ hconnected hfew).above s.protocol.pcbs.length List.mem_cons_self 0 hlive
  exact absurd habove (by decide)

end MuQuinet.PortUniqueness
