import MuQuinet.TcpConnections

namespace MuQuinet.SendWindow

open MuQuinet.Lib.Machines
open MuQuinet.Buffers
open MuQuinet.Sockets
open MuQuinet.TcpConnections
open MuQuinet.TcpLayer
open MuQuinet.Wire

/-- A connection, with how far `send_unack` has moved and how many sequence
numbers have been used since `connect`: both are counted without wrapping. -/
structure State where
  conn : Connection
  acked : Nat
  sent : Nat
deriving DecidableEq, Repr

namespace State

def connState (s : State) : TcpState := s.conn.pcb.connState
def sendUnack (s : State) : UInt32 := s.conn.pcb.sendUnack
def sendNext (s : State) : UInt32 := s.conn.pcb.sendNext

def outstanding (s : State) : Nat := s.sent - s.acked

/-- How far ahead of `send_unack` a number lies, modulo 2^32. -/
def distance (s : State) (k : UInt32) : Nat := (k - s.sendUnack).toNat

def Connected (s : State) : Prop := s.connState ≠ .CLOSED

instance (s : State) : Decidable s.Connected :=
  inferInstanceAs (Decidable (_ ≠ _))

end State

def sentBy (s : State) : Label → Nat
  | .send _ buf => if s.connState = .ESTABLISHED then buf.length else 0
  | _ => 0

def next (s : State) (a : Label) : Option State := do
  let c ← s.conn.step a
  if s.connState = .CLOSED then
    some { conn := c, acked := 0, sent := if c.pcb.connState = .CLOSED then 0 else 1 }
  else
    some
      { conn := c
        acked := s.acked + s.distance c.pcb.sendUnack
        sent := s.sent + sentBy s a }

def machine : Machine State Label where
  initial s := TcpConnections.machine.initial s.conn ∧ s.acked = 0 ∧ s.sent = 0
  next := next

def ackOf : Label → Option UInt32
  | .recv _ skbuf _ => if (tcphdr skbuf).ack then some (ntohl (tcphdr skbuf).ackSeq) else none
  | _ => none

/-- `send_unack` lies between `iss` and `send_next`. -/
structure Between (s : State) : Prop where
  sendUnack_eq : s.sendUnack = iss + .ofNat s.acked
  sendNext_eq : s.sendNext = iss + .ofNat s.sent
  acked_le : s.acked ≤ s.sent

/-- A step never moves `send_unack` backwards, and an acknowledgment advances it
exactly when it is of data that has been sent. -/
structure StepKept (s : State) (a : Label) (t : State) : Prop where
  forward : s.distance t.sendUnack ≤ s.outstanding
  advanced : ∀ k ∈ ackOf a, 0 < s.distance k → s.distance k ≤ s.outstanding → t.sendUnack = k
  unsent : ∀ k ∈ ackOf a, s.outstanding < s.distance k → t.sendUnack = s.sendUnack

/-- The acknowledgment number compares with `send_unack` as 32-bit numbers do in
the same way as in the sequence space; while the SYN is out, it is of the SYN or
of nothing. -/
def AckOrdered (s : State) (a : Label) : Prop :=
  ∀ k ∈ ackOf a,
    (s.connState = .SYN_SENT → s.distance k ≤ s.outstanding) ∧
    (s.connState = .ESTABLISHED →
      (s.sendUnack < k ↔ 0 < s.distance k ∧ s.distance k ≤ s.outstanding))

instance (s : State) (a : Label) : Decidable (AckOrdered s a) :=
  (ackOf a).decidableForallMem

theorem distance_self (s : State) : s.distance s.sendUnack = 0 := by
  rw [State.distance, UInt32.sub_self]
  rfl

theorem distance_pos_iff (s : State) (k : UInt32) : 0 < s.distance k ↔ k ≠ s.sendUnack := by
  rw [State.distance, Nat.pos_iff_ne_zero, Ne, Ne, not_iff_not]
  constructor
  · intro hzero
    have hsub : k - s.sendUnack = 0 := UInt32.toNat_inj.mp hzero
    rw [← UInt32.sub_add_cancel k s.sendUnack, hsub, UInt32.zero_add]
  · rintro rfl
    exact distance_self s

theorem sendUnack_add_distance (s : State) (k : UInt32) :
    s.sendUnack + .ofNat (s.distance k) = k := by
  rw [State.distance, UInt32.ofNat_toNat, UInt32.add_comm, UInt32.sub_add_cancel]

/-- `send_unack` after a segment arrived at a connected PCB. -/
def unackAfter (s : State) (hdr : TcpHeader) : UInt32 :=
  if s.connState = .SYN_SENT then s.sendUnack + 1
  else if hdr.ack = true ∧ s.sendUnack < ntohl hdr.ackSeq then ntohl hdr.ackSeq
  else s.sendUnack

/-- What a call on a connected PCB does to its send sequence. -/
structure SendSequence (s : State) (a : Label) (c : Connection) : Prop where
  sendNext : c.pcb.sendNext = s.sendNext + .ofNat (sentBy s a)
  received : ∀ peerAddr skbuf next, a = .recv peerAddr skbuf next →
    c.pcb.sendUnack = unackAfter s (tcphdr skbuf)
  called : (∀ peerAddr skbuf next, a ≠ .recv peerAddr skbuf next) →
    c.pcb.sendUnack = s.sendUnack ∧ c.pcb.connState = s.connState

theorem pcbAfter_sendUnack {s : State} (hclient : ClientState s.conn.pcb) (hconnected : s.Connected)
    (skbuf : SocketBuffer) :
    (pcbAfter s.conn.pcb skbuf).sendUnack = unackAfter s (tcphdr skbuf) := by
  rcases hclient.connState with hclosed | hsynSent | hestab
  · exact absurd hclosed hconnected
  · rw [pcbAfter_synSent hsynSent, unackAfter, State.connState, if_pos hsynSent]
    rfl
  · have hnotSynSent : s.connState ≠ .SYN_SENT := by
      rw [State.connState, hestab]
      decide
    obtain ⟨recvNext, heq⟩ := pcbAfter_estab hestab skbuf
    rw [heq, unackAfter, if_neg hnotSynSent]
    exact recvAck_sendUnack s.conn.pcb (tcphdr skbuf)

theorem sendSequence {s : State} (hclient : ClientState s.conn.pcb) (hconnected : s.Connected)
    {a : Label} {c : Connection} (hstep : s.conn.step a = some c) : SendSequence s a c := by
  cases a with
  | connect port faddr fport =>
      cases hstep
      obtain ⟨port', base, heq⟩ := connect_eq_send port s.conn.pcb faddr fport
      have hclient' : ClientState { s.conn.pcb with toPcb := base } :=
        ⟨hclient.connState, hclient.synSent⟩
      obtain ⟨hnext, hunack, hstate⟩ := send_connected hclient' hconnected port' []
      rw [← heq] at hnext hunack hstate
      rw [List.length_nil, ite_self] at hnext
      exact ⟨hnext, nofun, fun _ => ⟨hunack, hstate⟩⟩
  | setOnConnEstabCB rrChannel =>
      cases hstep
      exact ⟨(UInt32.add_zero _).symm, nofun, fun _ => ⟨rfl, rfl⟩⟩
  | send port buf =>
      cases hstep
      obtain ⟨hnext, hunack, hstate⟩ := send_connected hclient hconnected port buf
      exact ⟨hnext, nofun, fun _ => ⟨hunack, hstate⟩⟩
  | recv peerAddr skbuf next =>
      have hpcb := step_recv_eq_some hstep
      refine ⟨?_, ?_, fun h => absurd rfl (h peerAddr skbuf next)⟩
      · rw [hpcb, pcbAfter_sendNext]
        exact (UInt32.add_zero _).symm
      · rintro peerAddr' skbuf' next' ⟨⟩
        rw [hpcb, pcbAfter_sendUnack hclient hconnected]
  | socket op =>
      have hpcb := (step_socket_eq_some hstep).1
      refine ⟨?_, nofun, fun _ => ⟨congrArg TcpPcb.sendUnack hpcb, congrArg TcpPcb.connState hpcb⟩⟩
      rw [hpcb]
      exact (UInt32.add_zero _).symm

/-- The counters follow the sequence variables, whatever segments arrive. -/
structure Counted (s : State) : Prop where
  client : ClientState s.conn.pcb
  sendUnack : s.Connected → s.sendUnack = iss + .ofNat s.acked
  sendNext : s.Connected → s.sendNext = iss + .ofNat s.sent
  synSent : s.connState = .SYN_SENT → s.acked = 0 ∧ s.sent = 1
  closed : ¬ s.Connected → s.acked = 0 ∧ s.sent = 0

theorem connState_step_of_closed {c c' : Connection} (hclosed : c.pcb.connState = .CLOSED)
    {a : Label} (hstep : c.step a = some c') :
    c'.pcb.connState = .CLOSED ∨ c'.pcb.connState = .SYN_SENT := by
  cases a with
  | connect port faddr fport =>
      cases hstep
      obtain ⟨port', base, heq⟩ := connect_eq_send port c.pcb faddr fport
      have hbase : ({ c.pcb with toPcb := base } : TcpPcb).connState = .CLOSED := hclosed
      obtain ⟨base', heq'⟩ := send_closed hbase port' []
      right
      change (TcpPcb.connect port c.pcb faddr fport).2.1.connState = _
      rw [heq, heq']
  | setOnConnEstabCB rrChannel =>
      cases hstep
      exact .inl hclosed
  | send port buf =>
      cases hstep
      obtain ⟨base, heq⟩ := send_closed hclosed port buf
      right
      change (TcpPcb.send port c.pcb buf).2.1.connState = _
      rw [heq]
  | recv peerAddr skbuf next =>
      left
      rw [step_recv_eq_some hstep]
      simp only [pcbAfter, hclosed]
  | socket op =>
      left
      rw [(step_socket_eq_some hstep).1]
      exact hclosed

theorem next_eq_some {s t : State} {a : Label} (h : next s a = some t) :
    s.conn.step a = some t.conn ∧
      (¬ s.Connected → t.acked = 0 ∧ t.sent = if t.connState = .CLOSED then 0 else 1) ∧
      (s.Connected → t.acked = s.acked + s.distance t.sendUnack ∧
        t.sent = s.sent + sentBy s a) := by
  simp only [next, Option.bind_eq_bind, Option.bind_eq_some_iff] at h
  obtain ⟨c, hstep, h⟩ := h
  split at h
  · rename_i hclosed
    obtain rfl := Option.some.inj h
    exact ⟨hstep, fun _ => ⟨rfl, rfl⟩, fun hconnected => absurd hclosed hconnected⟩
  · rename_i hconnected
    obtain rfl := Option.some.inj h
    exact ⟨hstep, fun hclosed => absurd hconnected hclosed, fun _ => ⟨rfl, rfl⟩⟩

theorem counted_of_closed {s t : State} {a : Label} (h : Counted s) (hclosed : ¬ s.Connected)
    (hnext : next s a = some t) : Counted t := by
  obtain ⟨hstep, hcounts, -⟩ := next_eq_some hnext
  obtain ⟨hacked, hsent⟩ := hcounts hclosed
  have hclient := h.client.step hstep
  rcases connState_step_of_closed (not_not.mp hclosed) hstep with hclosed' | hsynSent
  · rw [State.connState, if_pos hclosed'] at hsent
    have hnotConnected : ¬ t.Connected := not_not.mpr hclosed'
    refine ⟨hclient, ?_, ?_, ?_, fun _ => ⟨hacked, hsent⟩⟩
    · intro hconnected
      exact absurd hconnected hnotConnected
    · intro hconnected
      exact absurd hconnected hnotConnected
    · intro hsynSent
      rw [State.connState, hclosed'] at hsynSent
      cases hsynSent
  · have hconnected : t.Connected := by
      rw [State.Connected, State.connState, hsynSent]
      decide
    rw [if_neg hconnected] at hsent
    obtain ⟨hunack, hnextSeq⟩ := hclient.synSent hsynSent
    refine ⟨hclient, ?_, ?_, fun _ => ⟨hacked, hsent⟩, fun hclosed' => absurd hconnected hclosed'⟩
    · intro _
      rw [hacked]
      exact hunack
    · intro _
      rw [hsent]
      exact hnextSeq

theorem connState_of_recv {s t : State} (hclient : ClientState s.conn.pcb)
    (hconnected : s.Connected)
    {peerAddr : SockaddrIn} {skbuf : SocketBuffer} {rest : List SocketBuffer}
    (hnext : next s (.recv peerAddr skbuf rest) = some t) : t.connState = .ESTABLISHED := by
  rw [State.connState, step_recv_eq_some (next_eq_some hnext).1]
  rcases connState_pcbAfter hclient skbuf with ⟨hclosed, -⟩ | hestab
  · exact absurd hclosed hconnected
  · exact hestab

theorem counted_of_connected {s t : State} {a : Label} (h : Counted s) (hconnected : s.Connected)
    (hnext : next s a = some t) : Counted t := by
  obtain ⟨hstep, -, hcounts⟩ := next_eq_some hnext
  obtain ⟨hacked, hsent⟩ := hcounts hconnected
  have hsequence := sendSequence h.client hconnected hstep
  have hunack : t.sendUnack = iss + .ofNat t.acked := by
    rw [hacked, UInt32.ofNat_add, ← UInt32.add_assoc, ← h.sendUnack hconnected,
      sendUnack_add_distance]
  have hnextSeq : t.sendNext = iss + .ofNat t.sent := by
    rw [hsent, UInt32.ofNat_add, ← UInt32.add_assoc, ← h.sendNext hconnected]
    exact hsequence.sendNext
  refine ⟨h.client.step hstep, fun _ => hunack, fun _ => hnextSeq, ?_, ?_⟩
  · intro hsynSent
    have hcalled : ∀ peerAddr skbuf rest, a ≠ .recv peerAddr skbuf rest := by
      rintro peerAddr skbuf rest rfl
      rw [connState_of_recv h.client hconnected hnext] at hsynSent
      cases hsynSent
    obtain ⟨hsameUnack, hsameState⟩ := hsequence.called hcalled
    have hsynSent' : s.connState = .SYN_SENT := hsameState.symm.trans hsynSent
    obtain ⟨hacked', hsent'⟩ := h.synSent hsynSent'
    have hnone : sentBy s a = 0 := by
      cases a with
      | send port buf => simp [sentBy, hsynSent']
      | _ => rfl
    have hunmoved : s.distance t.sendUnack = 0 := by
      have hsame : t.sendUnack = s.sendUnack := hsameUnack
      rw [hsame, distance_self]
    rw [hacked, hsent, hacked', hsent', hnone, hunmoved]
    exact ⟨rfl, rfl⟩
  · intro hclosed
    exfalso
    apply hclosed
    cases a with
    | recv peerAddr skbuf rest =>
        rw [State.Connected, connState_of_recv h.client hconnected hnext]
        decide
    | _ =>
        have hsame : t.connState = s.connState := (hsequence.called nofun).2
        rw [State.Connected, hsame]
        exact hconnected

theorem counted {s : State} (h : machine.Reachable s) : Counted s := by
  refine h.invariant ?_ ?_
  · rintro s ⟨⟨stackAddr, sendUnack, sendNext, irs, recvNext, nonblocking, hconn⟩, hacked, hsent⟩
    have hclosed : s.connState = .CLOSED := by
      rw [State.connState, hconn]
      rfl
    refine ⟨⟨.inl hclosed, ?_⟩, ?_, ?_, ?_, fun _ => ⟨hacked, hsent⟩⟩
    · intro hsynSent
      exact absurd (hclosed.symm.trans hsynSent) (by decide)
    · intro hconnected
      exact absurd hclosed hconnected
    · intro hconnected
      exact absurd hclosed hconnected
    · intro hsynSent
      exact absurd (hclosed.symm.trans hsynSent) (by decide)
  · intro s a t hs _ hnext
    by_cases hconnected : s.Connected
    · exact counted_of_connected hs hconnected hnext
    · exact counted_of_closed hs hconnected hnext

theorem stepKept_of_unmoved {s t : State} {a : Label} (hnone : ackOf a = none)
    (hsame : t.sendUnack = s.sendUnack) : StepKept s a t := by
  constructor
  · rw [hsame, distance_self]
    exact Nat.zero_le _
  · simp [hnone]
  · simp [hnone]

theorem stepKept_synSent_iff {s t : State} (h : Counted s) (hsynSent : s.connState = .SYN_SENT)
    {a : Label} (hmoved : t.sendUnack = s.sendUnack + 1) :
    StepKept s a t ↔ AckOrdered s a := by
  obtain ⟨hacked, hsent⟩ := h.synSent hsynSent
  have houtstanding : s.outstanding = 1 := by
    rw [State.outstanding, hacked, hsent]
  have hone : s.distance t.sendUnack = 1 := by
    rw [State.distance, hmoved, UInt32.add_comm, UInt32.add_sub_cancel]
    rfl
  constructor
  · intro hkept k hk
    refine ⟨?_, fun hestab => absurd (hsynSent.symm.trans hestab) (by decide)⟩
    intro _
    by_contra hfar
    have hsame := hkept.unsent k hk (Nat.not_le.mp hfar)
    rw [hsame, distance_self] at hone
    exact absurd hone (by decide)
  · intro hordered
    constructor
    · rw [hone, houtstanding]
    · intro k hk hpos hle
      have hdistance : s.distance k = 1 := by
        rw [houtstanding] at hle
        exact Nat.le_antisymm hle hpos
      rw [← sendUnack_add_distance s k, ← sendUnack_add_distance s t.sendUnack, hone, hdistance]
    · intro k hk hfar
      exact absurd ((hordered k hk).1 hsynSent) (Nat.not_le.mpr hfar)

theorem stepKept_estab_iff {s t : State} (hestab : s.connState = .ESTABLISHED)
    {peerAddr : SockaddrIn} {skbuf : SocketBuffer} {rest : List SocketBuffer}
    (hmoved : t.sendUnack = unackAfter s (tcphdr skbuf)) :
    StepKept s (.recv peerAddr skbuf rest) t ↔ AckOrdered s (.recv peerAddr skbuf rest) := by
  have hnotSynSent : s.connState ≠ .SYN_SENT := by
    rw [hestab]
    decide
  rw [unackAfter, if_neg hnotSynSent] at hmoved
  rcases hack : (tcphdr skbuf).ack with _ | _
  · have hnone : ackOf (.recv peerAddr skbuf rest) = none := by simp [ackOf, hack]
    have hsame : t.sendUnack = s.sendUnack := by simpa [hack] using hmoved
    refine iff_of_true (stepKept_of_unmoved hnone hsame) ?_
    intro k hk
    rw [hnone] at hk
    cases hk
  · have hsome : ackOf (.recv peerAddr skbuf rest) = some (ntohl (tcphdr skbuf).ackSeq) := by
      simp [ackOf, hack]
    generalize ntohl (tcphdr skbuf).ackSeq = k at hmoved hsome
    simp only [hack, true_and] at hmoved
    have hordered : AckOrdered s (.recv peerAddr skbuf rest) ↔
        (s.sendUnack < k ↔ 0 < s.distance k ∧ s.distance k ≤ s.outstanding) := by
      simp [AckOrdered, hsome, hestab]
    rw [hordered]
    constructor
    · intro hkept
      constructor
      · intro hlt
        rw [if_pos hlt] at hmoved
        have hne : k ≠ s.sendUnack := (UInt32.ne_of_lt hlt).symm
        refine ⟨(distance_pos_iff s k).mpr hne, ?_⟩
        by_contra hfar
        exact hne (hmoved.symm.trans (hkept.unsent k hsome (Nat.not_le.mp hfar)))
      · rintro ⟨hpos, hle⟩
        by_contra hge
        rw [if_neg hge] at hmoved
        have hk := hkept.advanced k hsome hpos hle
        exact (distance_pos_iff s k).mp hpos (hk.symm.trans hmoved)
    · intro hiff
      by_cases hlt : s.sendUnack < k
      · rw [if_pos hlt] at hmoved
        obtain ⟨hpos, hle⟩ := hiff.mp hlt
        constructor
        · rw [hmoved]
          exact hle
        · intro k' hk' _ _
          rw [hsome, Option.mem_some] at hk'
          rw [hmoved, hk']
        · intro k' hk' hfar
          rw [hsome, Option.mem_some] at hk'
          subst hk'
          exact absurd hle (Nat.not_le.mpr hfar)
      · rw [if_neg hlt] at hmoved
        constructor
        · rw [hmoved, distance_self]
          exact Nat.zero_le _
        · intro k' hk' hpos hle
          rw [hsome, Option.mem_some] at hk'
          subst hk'
          exact absurd (hiff.mpr ⟨hpos, hle⟩) hlt
        · intro _ _ _
          exact hmoved

/-- The condition is exact for every single step. -/
theorem stepKept_iff_ackOrdered {s t : State} (h : Counted s) (hconnected : s.Connected) {a : Label}
    (hnext : next s a = some t) : StepKept s a t ↔ AckOrdered s a := by
  have hsequence := sendSequence h.client hconnected (next_eq_some hnext).1
  cases a with
  | recv peerAddr skbuf rest =>
      have hmoved : t.sendUnack = unackAfter s (tcphdr skbuf) :=
        hsequence.received peerAddr skbuf rest rfl
      rcases h.client.connState with hclosed | hsynSent | hestab
      · exact absurd hclosed hconnected
      · have hsynSent' : s.connState = .SYN_SENT := hsynSent
        rw [unackAfter, if_pos hsynSent'] at hmoved
        exact stepKept_synSent_iff h hsynSent' hmoved
      · exact stepKept_estab_iff hestab hmoved
  | _ =>
      refine iff_of_true (stepKept_of_unmoved rfl (hsequence.called nofun).1) ?_
      intro k hk
      cases hk

theorem acked_le_of_ackOrdered {s : State} (h : machine.ReachableUnder AckOrdered s) :
    s.acked ≤ s.sent := by
  induction h with
  | initial hinitial =>
      obtain ⟨-, hacked, hsent⟩ := hinitial
      rw [hacked, hsent]
  | @step s t a hreached hordered hnext ih =>
      obtain ⟨-, hopened, hcounts⟩ := next_eq_some hnext
      by_cases hconnected : s.Connected
      · obtain ⟨hacked, hsent⟩ := hcounts hconnected
        have hkept :=
          (stepKept_iff_ackOrdered (counted hreached.reachable) hconnected hnext).mpr hordered
        have hforward := hkept.forward
        rw [State.outstanding] at hforward
        rw [hacked, hsent]
        omega
      · obtain ⟨hacked, -⟩ := hopened hconnected
        rw [hacked]
        exact Nat.zero_le _

/-- The send window is kept in the runs whose acknowledgments compare as numbers
the way they do in the sequence space, and any other acknowledgment breaks it. -/
theorem window_kept_iff_ackOrdered (s : State) :
    (machine.ReachableUnder AckOrdered s → s.Connected →
      Between s ∧ ∀ a t, AckOrdered s a → machine.next s a = some t → StepKept s a t) ∧
    (∀ a t, machine.ReachableUnder AckOrdered s → s.Connected → machine.next s a = some t →
      StepKept s a t → AckOrdered s a) := by
  constructor
  · intro hreached hconnected
    have hcounted := counted hreached.reachable
    refine ⟨⟨hcounted.sendUnack hconnected, hcounted.sendNext hconnected,
      acked_le_of_ackOrdered hreached⟩, ?_⟩
    intro a t hordered hnext
    exact (stepKept_iff_ackOrdered hcounted hconnected hnext).mpr hordered
  · intro a t hreached hconnected hnext hkept
    exact (stepKept_iff_ackOrdered (counted hreached.reachable) hconnected hnext).mp hkept

def sampleInitial : State :=
  { conn :=
      { pcb := .new 0x0200000a 0 0 0 0
        so := { type := .TCP, nonblocking := false } }
    acked := 0
    sent := 0 }

/-- A segment without data with the given flags and acknowledgment number. -/
def sampleSegment (flags : UInt8) (ack : UInt8) : SocketBuffer :=
  { tunDeviceRx ([0x45, 0, 0, 40, 0, 7, 0, 0, 64, 6, 0, 0, 10, 0, 0, 1, 10, 0, 0, 2] ++
      [0, 80, 4, 1, 0, 0, 0, 8, 0, 0, 0, ack, 0x50, flags, 0, 0, 0, 0, 0, 0]) with
    transportHdr := some 20 }

theorem sampleInitial_initial : machine.initial sampleInitial :=
  ⟨⟨_, _, _, _, _, _, rfl⟩, rfl, rfl⟩

/-- The handshake, two buffers, and the acknowledgment of the first one. -/
def sampleCalls : List Label :=
  [.connect 1024 0x0100000a 0x5000, .recv .zero (sampleSegment 0x12 2) [],
    .send 1024 [1, 2, 3], .send 1024 [4, 5], .recv .zero (sampleSegment 0x10 5) []]

theorem window_kept_sample :
    ∃ s t, machine.ReachableUnder AckOrdered s ∧ s.Connected ∧ s.acked = 4 ∧ s.sent = 6 ∧
      machine.next s (.recv .zero (sampleSegment 0x10 7) []) = some t ∧ Between s ∧
      StepKept s (.recv .zero (sampleSegment 0x10 7) []) t ∧
      AckOrdered s (.recv .zero (sampleSegment 0x10 7) []) := by
  obtain ⟨s, t, hexec, hconnected, hacked, hsent, hnext, hordered⟩ : ∃ s t,
      machine.execUnder AckOrdered sampleInitial sampleCalls = some s ∧ s.Connected ∧
        s.acked = 4 ∧ s.sent = 6 ∧
        machine.next s (.recv .zero (sampleSegment 0x10 7) []) = some t ∧
        AckOrdered s (.recv .zero (sampleSegment 0x10 7) []) :=
    ⟨_, _, rfl, by decide, by decide, by decide, rfl, by decide⟩
  have hreached : machine.ReachableUnder AckOrdered s :=
    Machine.reachableUnder_of_execUnder (.initial sampleInitial_initial) hexec
  obtain ⟨hkept, hexact⟩ := window_kept_iff_ackOrdered s
  obtain ⟨hbetween, hsteps⟩ := hkept hreached hconnected
  have hstep := hsteps _ t hordered hnext
  exact ⟨s, t, hreached, hconnected, hacked, hsent, hnext, hbetween, hstep,
    hexact _ t hreached hconnected hnext hstep⟩

/-- An acknowledgment of bytes that were never sent is believed. -/
theorem unsent_acknowledged :
    ¬ ∀ s, machine.Reachable s → s.Connected → Between s := by
  intro hbetween
  obtain ⟨s, hexec, hconnected, hacked, hsent⟩ : ∃ s, machine.exec sampleInitial
      [.connect 1024 0x0100000a 0x5000, .recv .zero (sampleSegment 0x12 2) [],
        .recv .zero (sampleSegment 0x10 200) []] = some s ∧
      s.Connected ∧ s.acked = 199 ∧ s.sent = 1 := ⟨_, rfl, by decide, by decide, by decide⟩
  have hreached : machine.Reachable s :=
    Machine.reachable_of_exec (.initial sampleInitial_initial) hexec
  have hle := (hbetween s hreached hconnected).acked_le
  rw [hacked, hsent] at hle
  exact absurd hle (by decide)

end MuQuinet.SendWindow
