import MuQuinet.TcpIntegrity

namespace MuQuinet.AcknowledgedKept

open MuQuinet.Lib.Machines
open MuQuinet.Buffers
open MuQuinet.Sockets
open MuQuinet.Pcbs
open MuQuinet.TcpIntegrity
open MuQuinet.TcpLayer
open MuQuinet.Wire

/-- A receiver, and for each byte of the stream that has arrived whether it was
enqueued. -/
structure State where
  receiver : Receiver
  kept : List Bool

def recvQ (slot : Slot TcpPcb) : List (SockaddrIn × List SocketBuffer) :=
  (slot.socket.map Socket.recvQ).getD []

/-- The bytes that a packet carries. -/
def carried (skbuf : SocketBuffer) (rest : List SocketBuffer) : List UInt8 :=
  (collect (TcpPcb.locatePayload skbuf :: rest)).getD []

/-- Whether a packet was put at the end of the queue. -/
def enqueued (before after : Slot TcpPcb) (peerAddr : SockaddrIn) (skbuf : SocketBuffer)
    (rest : List SocketBuffer) : Bool :=
  decide (recvQ after = recvQ before ++ [(peerAddr, TcpPcb.locatePayload skbuf :: rest)])

def keptOf (before after : Receiver) : Label → List Bool
  | .segment _ peerAddr skbuf rest =>
      List.replicate (carried skbuf rest).length
        (enqueued before.slot after.slot peerAddr skbuf rest)
  | _ => []

def next (s : State) (a : Label) : Option State := do
  let receiver ← step s.receiver a
  some { receiver := receiver, kept := s.kept ++ keptOf s.receiver receiver a }

/-- The runs of an established connection from its first byte of data on. -/
def machine (irs : UInt32) : Machine State Label where
  initial s := (TcpIntegrity.machine irs).initial s.receiver ∧ s.kept = []
  next := next

/-- The data segments arrive in order, without gaps or duplicates. -/
def Arrival (stream : List UInt8) (irs : UInt32) (s : State) : Label → Prop
  | .segment off _ skbuf rest =>
      IsSegment stream irs off skbuf rest ∧ (carried skbuf rest ≠ [] → off = s.kept.length)
  | _ => True

/-- A segment with data has data in its first buffer, and finds room in the
queue. -/
def Room (s : State) : Label → Prop
  | .segment _ _ skbuf rest =>
      carried skbuf rest ≠ [] →
        (TcpPcb.locatePayload skbuf).payloadLen ≠ 0 ∧
          (recvQ s.receiver.slot).length ≤ recvQlimit
  | _ => True

/-- Each acknowledgment number that was sent is that of an offset up to which the stream has
arrived, and every byte below it has been enqueued. -/
structure Kept (irs : UInt32) (s : State) : Prop where
  arrived : ∀ ack ∈ s.receiver.acks, ∃ k ≤ s.kept.length, ack = irs + 1 + .ofNat k
  enqueued : ∀ k ≤ s.kept.length, irs + 1 + .ofNat k ∈ s.receiver.acks →
    ∀ i < k, s.kept[i]? = some true

/-- The arrival that the queue has no room for. -/
def Overflow (s : State) : Label → Prop
  | .segment _ _ skbuf _ =>
      (TcpPcb.locatePayload skbuf).payloadLen ≠ 0 ∧ recvQlimit < (recvQ s.receiver.slot).length
  | _ => False

/-- An established connection that has kept all the data that arrived, and acknowledged no
more. -/
structure Invariant (irs : UInt32) (s : State) : Prop where
  connected : ∃ pcb so, s.receiver.slot = { pcb := some pcb, socket := some so } ∧
    pcb.connState = .ESTABLISHED
  kept : ∀ b ∈ s.kept, b = true
  arrived : ∀ ack ∈ s.receiver.acks, ∃ k ≤ s.kept.length, ack = irs + 1 + .ofNat k

theorem carried_eq {stream : List UInt8} {irs : UInt32} {off : Nat} {skbuf : SocketBuffer}
    {rest : List SocketBuffer} (h : IsSegment stream irs off skbuf rest) :
    ∃ n ≤ (carried skbuf rest).length, (TcpPcb.locatePayload skbuf).payloadLen = n ∧
      TcpPcb.nextAfter (TcpPcb.locatePayload skbuf) = irs + 1 + .ofNat (off + n) := by
  obtain ⟨payload, hpayload, -, -⟩ := h.payload_eq
  rw [carried, hpayload, Option.getD_some]
  exact nextAfter_eq h hpayload

theorem next_eq_some {s t : State} {a : Label} (h : next s a = some t) :
    step s.receiver a = some t.receiver ∧ t.kept = s.kept ++ keptOf s.receiver t.receiver a := by
  simp only [next, Option.bind_eq_bind, Option.bind_eq_some_iff, Option.some.injEq] at h
  obtain ⟨receiver, hstep, rfl⟩ := h
  exact ⟨hstep, rfl⟩

theorem step_segment {s t : Receiver} {pcb : TcpPcb} {so : Socket} {off : Nat}
    {peerAddr : SockaddrIn} {skbuf : SocketBuffer} {rest : List SocketBuffer}
    (hslot : s.slot = { pcb := some pcb, socket := some so })
    (h : step s (.segment off peerAddr skbuf rest) = some t) :
    t.slot = (TcpPcb.recv s.slot pcb peerAddr skbuf rest).1 ∧
      t.acks = s.acks ++ ackNumbers (TcpPcb.recv s.slot pcb peerAddr skbuf rest).2 := by
  simp only [step, hslot, Option.bind_eq_bind, Option.bind_some, Option.some.injEq] at h
  rw [← h, hslot]
  exact ⟨rfl, rfl⟩

/-- What was acknowledged before had arrived before. -/
theorem Invariant.arrived_before {irs : UInt32} {s : State} (h : Invariant irs s)
    {kept : List Bool} (hle : s.kept.length ≤ kept.length) :
    ∀ ack ∈ s.receiver.acks, ∃ k ≤ kept.length, ack = irs + 1 + .ofNat k := by
  intro ack hack
  obtain ⟨k, hk, hack'⟩ := h.arrived ack hack
  exact ⟨k, hk.trans hle, hack'⟩

theorem invariant_segment {stream : List UInt8} {irs : UInt32} {s t : State} {off : Nat}
    {peerAddr : SockaddrIn} {skbuf : SocketBuffer} {rest : List SocketBuffer}
    (h : Invariant irs s) (harrival : Arrival stream irs s (.segment off peerAddr skbuf rest))
    (hroom : Room s (.segment off peerAddr skbuf rest))
    (hnext : next s (.segment off peerAddr skbuf rest) = some t) : Invariant irs t := by
  obtain ⟨pcb, so, hslot, hestab⟩ := h.connected
  obtain ⟨hstep, hkept⟩ := next_eq_some hnext
  obtain ⟨hslot', hacks⟩ := step_segment hslot hstep
  obtain ⟨n, hn, hpayloadLen, hnextAfter⟩ := carried_eq harrival.1
  have hlonger : s.kept.length ≤ t.kept.length := by
    rw [hkept, List.length_append]
    exact Nat.le_add_right _ _
  rw [hslot] at hslot' hacks
  rcases List.eq_nil_or_concat (carried skbuf rest) with hnone | ⟨_, _, hsome⟩
  · have hempty : (TcpPcb.locatePayload skbuf).payloadLen = 0 := by
      rw [hnone, List.length_nil] at hn
      rw [hpayloadLen, Nat.le_zero.mp hn]
      rfl
    rw [recv_empty hestab hempty] at hslot' hacks
    refine ⟨⟨_, so, hslot', (recvAck_connState _ _).trans hestab⟩, ?_, ?_⟩
    · rw [hkept, keptOf, hnone, List.length_nil, List.replicate_zero, List.append_nil]
      exact h.kept
    · rw [hacks]
      simpa [ackNumbers] using h.arrived_before hlonger
  · have hcarried : carried skbuf rest ≠ [] := by
      rw [hsome]
      simp
    obtain ⟨hdata, hfits⟩ := hroom hcarried
    have hfits' : so.recvQ.length ≤ recvQlimit := by
      rw [hslot] at hfits
      exact hfits
    rw [recv_data hestab hdata hfits'] at hslot' hacks
    refine ⟨⟨_, _, hslot', (recvAck_connState _ _).trans hestab⟩, ?_, ?_⟩
    · have henqueued : enqueued s.receiver.slot t.receiver.slot peerAddr skbuf rest = true := by
        rw [hslot, hslot']
        exact decide_eq_true (Socket.recvQ_putToRecvQ_of_room hfits' peerAddr _)
      intro b hb
      rw [hkept, keptOf, henqueued] at hb
      rcases List.mem_append.mp hb with hearlier | hnow
      · exact h.kept b hearlier
      · exact List.eq_of_mem_replicate hnow
    · intro ack hack
      rw [hacks] at hack
      rcases List.mem_append.mp hack with hearlier | hnow
      · exact h.arrived_before hlonger ack hearlier
      · obtain rfl : ack = TcpPcb.nextAfter (TcpPcb.locatePayload skbuf) := by
          simpa [ackNumbers, ack2peer_ackSeq] using hnow
        refine ⟨s.kept.length + n, ?_, ?_⟩
        · rw [hkept, keptOf, List.length_append, List.length_replicate]
          exact Nat.add_le_add_left hn _
        · rw [hnextAfter, harrival.2 hcarried]

theorem invariant_step {stream : List UInt8} {irs : UInt32} {s t : State} {a : Label}
    (h : Invariant irs s) (harrival : Arrival stream irs s a) (hroom : Room s a)
    (hnext : next s a = some t) : Invariant irs t := by
  cases a with
  | segment off peerAddr skbuf rest => exact invariant_segment h harrival hroom hnext
  | takeFromRecvQ =>
      obtain ⟨pcb, so, hslot, hestab⟩ := h.connected
      obtain ⟨hstep, hkept⟩ := next_eq_some hnext
      simp only [step, hslot, Option.bind_eq_bind, Option.bind_some, Option.bind_eq_some_iff,
        Option.some.injEq] at hstep
      obtain ⟨⟨entry, so'⟩, -, hreceiver⟩ := hstep
      simp only [keptOf, List.append_nil] at hkept
      refine ⟨⟨pcb, so', ?_, hestab⟩, ?_, ?_⟩
      · rw [← hreceiver]
      · rw [hkept]
        exact h.kept
      · rw [hkept, ← hreceiver]
        exact h.arrived
  | send port buf =>
      obtain ⟨pcb, so, hslot, hestab⟩ := h.connected
      obtain ⟨hstep, hkept⟩ := next_eq_some hnext
      simp only [step, hslot, Option.bind_eq_bind, Option.bind_some, Option.some.injEq] at hstep
      simp only [keptOf, List.append_nil] at hkept
      refine ⟨⟨(TcpPcb.send port pcb buf).2.1, so, ?_, (send_established hestab port buf).1⟩,
        ?_, ?_⟩
      · rw [← hstep]
      · rw [hkept]
        exact h.kept
      · rw [hkept, ← hstep]
        exact h.arrived

theorem invariant_of_room {stream : List UInt8} {irs : UInt32} {s : State}
    (h : (machine irs).ReachableUnder (fun s a => Arrival stream irs s a ∧ Room s a) s) :
    Invariant irs s := by
  refine h.invariant ?_ ?_
  · rintro s ⟨⟨pcb, so, hslot, hestab, -, -, -, hacks⟩, hkept⟩
    refine ⟨⟨pcb, so, hslot, hestab⟩, ?_, ?_⟩
    · simp [hkept]
    · simp [hacks]
  · intro s a t hs hguard hnext
    exact invariant_step hs hguard.1 hguard.2 hnext

theorem Invariant.allKept {irs : UInt32} {s : State} (h : Invariant irs s) : Kept irs s := by
  refine ⟨h.arrived, ?_⟩
  intro k hk _ i hi
  have hlt : i < s.kept.length := Nat.lt_of_lt_of_le hi hk
  rw [List.getElem?_eq_getElem hlt, Option.some.injEq]
  exact h.kept _ (List.getElem_mem hlt)

/-- On a full queue the data is dropped, and acknowledged all the same. -/
theorem recv_full {pcb : TcpPcb} {so : Socket} {peerAddr : SockaddrIn} {skbuf : SocketBuffer}
    {rest : List SocketBuffer} (hestab : pcb.connState = .ESTABLISHED)
    (hdata : (TcpPcb.locatePayload skbuf).payloadLen ≠ 0) (hfull : recvQlimit < so.recvQ.length) :
    let pcb' := { pcb.recvAck (tcphdr skbuf) with
      recvNext := TcpPcb.nextAfter (TcpPcb.locatePayload skbuf) }
    TcpPcb.recv { pcb := some pcb, socket := some so } pcb peerAddr skbuf rest =
      ({ pcb := some pcb', socket := some so }, [.acked (pcb'.ack2peer pcb'.recvNext)]) := by
  simp only [TcpPcb.recv, hestab]
  rw [if_pos hdata]
  simp [Slot.deliver, Socket.putToRecvQ, hfull]

theorem not_kept_of_overflow {stream : List UInt8} {irs : UInt32} {s t : State} {a : Label}
    (h : Invariant irs s) (harrival : Arrival stream irs s a) (hoverflow : Overflow s a)
    (hnext : next s a = some t) : ¬ Kept irs t := by
  cases a with
  | segment off peerAddr skbuf rest =>
      obtain ⟨pcb, so, hslot, hestab⟩ := h.connected
      obtain ⟨hstep, hkept⟩ := next_eq_some hnext
      obtain ⟨hslot', hacks⟩ := step_segment hslot hstep
      obtain ⟨n, hn, hpayloadLen, hnextAfter⟩ := carried_eq harrival.1
      obtain ⟨hdata, hfull⟩ := hoverflow
      have hpos : 0 < n := by
        rcases Nat.eq_zero_or_pos n with rfl | hpos
        · exact absurd hpayloadLen hdata
        · exact hpos
      have hfull' : recvQlimit < so.recvQ.length := by
        rw [hslot] at hfull
        exact hfull
      rw [hslot, recv_full hestab hdata hfull'] at hslot' hacks
      have hoff : off = s.kept.length := by
        apply harrival.2
        intro hnil
        rw [hnil, List.length_nil] at hn
        omega
      have hdropped : enqueued s.receiver.slot t.receiver.slot peerAddr skbuf rest = false := by
        rw [hslot, hslot']
        simp [enqueued, recvQ]
      rw [keptOf, hdropped] at hkept
      intro hall
      have hacked : irs + 1 + .ofNat (s.kept.length + n) ∈ t.receiver.acks := by
        rw [hacks, ← hoff, ← hnextAfter]
        simp [ackNumbers, ack2peer_ackSeq]
      have hbyte := hall.enqueued (s.kept.length + n) (by simp [hkept, hn]) hacked s.kept.length
        (by omega)
      rw [hkept, List.getElem?_append_right (Nat.le_refl _), Nat.sub_self,
        List.getElem?_replicate_of_lt (by omega)] at hbyte
      cases hbyte
  | takeFromRecvQ => cases hoverflow
  | send port buf => cases hoverflow

/-- What is acknowledged is kept in the runs whose data finds room in the queue,
and the first data that does not is acknowledged and lost. -/
theorem acknowledged_kept_of_room (stream : List UInt8) (irs : UInt32) (s : State) :
    ((machine irs).ReachableUnder (fun s a => Arrival stream irs s a ∧ Room s a) s →
      Kept irs s) ∧
    (∀ a t, (machine irs).ReachableUnder (fun s a => Arrival stream irs s a ∧ Room s a) s →
      Arrival stream irs s a → Overflow s a → (machine irs).next s a = some t → ¬ Kept irs t) := by
  constructor
  · intro h
    exact (invariant_of_room h).allKept
  · intro a t h harrival hoverflow hnext
    exact not_kept_of_overflow (invariant_of_room h) harrival hoverflow hnext

/-- A connection that waits for stream byte 9, with a number of packets in its
queue. -/
def sampleState (queued : Nat) : State :=
  { receiver :=
      { slot :=
          { pcb := some
              { faddr := 0x0100000a, fport := 0x5000, laddr := 0x0200000a, lport := 0x0104
                connState := .ESTABLISHED, onConnEstabCB := none
                sendUnack := 2, sendNext := 2, irs := 8, recvNext := 9 }
            socket := some
              { type := .TCP, nonblocking := false
                recvQ := List.replicate queued (.zero, []) } }
        put := []
        acks := [] }
    kept := [] }

/-- A segment of the stream `[1, 2]`, which acknowledges the byte of number 2. -/
def sampleSegment (seq data : UInt8) : SocketBuffer :=
  { tunDeviceRx ([0x45, 0, 0, 41, 0, 7, 0, 0, 64, 6, 0, 0, 10, 0, 0, 1, 10, 0, 0, 2] ++
      [0, 80, 4, 1, 0, 0, 0, seq, 0, 0, 0, 3, 0x50, 0x10, 0, 0, 0, 0, 0, 0] ++ [data]) with
    transportHdr := some 20 }

theorem sampleState_initial (queued : Nat) : (machine 8).initial (sampleState queued) :=
  ⟨⟨_, _, rfl, rfl, rfl, rfl, rfl, rfl⟩, rfl⟩

theorem sampleSegment_arrival (queued : Nat) :
    Arrival [1, 2] 8 (sampleState queued) (.segment 0 .zero (sampleSegment 9 1) []) := by
  constructor
  · exact ⟨by decide, by decide, [1], by decide, by decide, by decide⟩
  · intro _
    rfl

/-- Two segments, and between them the client takes the first and answers. -/
theorem acknowledged_kept_sample :
    ∃ s, (machine 8).ReachableUnder (fun s a => Arrival [1, 2] 8 s a ∧ Room s a) s ∧
      s.receiver.acks = [10, 11] ∧ Kept 8 s := by
  obtain ⟨s₁, s₂, s₃, s₄, hfirst, htake, hsend, hsecond, hqueue, hkept, hacks⟩ :
      ∃ s₁ s₂ s₃ s₄,
        (machine 8).next (sampleState 0) (.segment 0 .zero (sampleSegment 9 1) []) = some s₁ ∧
        (machine 8).next s₁ .takeFromRecvQ = some s₂ ∧
        (machine 8).next s₂ (.send 1024 [7]) = some s₃ ∧
        (machine 8).next s₃ (.segment 1 .zero (sampleSegment 10 2) []) = some s₄ ∧
        recvQ s₃.receiver.slot = [] ∧ s₃.kept = [true] ∧ s₄.receiver.acks = [10, 11] :=
    ⟨_, _, _, _, rfl, rfl, rfl, rfl, rfl, by decide, by decide⟩
  have hinitial : (machine 8).ReachableUnder (fun s a => Arrival [1, 2] 8 s a ∧ Room s a)
      (sampleState 0) := .initial (sampleState_initial 0)
  have hroom : Room (sampleState 0) (.segment 0 .zero (sampleSegment 9 1) []) :=
    fun _ => ⟨by decide, by decide⟩
  have hreached₁ := hinitial.step ⟨sampleSegment_arrival 0, hroom⟩ hfirst
  have hreached₂ := hreached₁.step (a := Label.takeFromRecvQ) ⟨trivial, trivial⟩ htake
  have hreached₃ := hreached₂.step (a := Label.send 1024 [7]) ⟨trivial, trivial⟩ hsend
  have harrival : Arrival [1, 2] 8 s₃ (.segment 1 .zero (sampleSegment 10 2) []) := by
    refine ⟨⟨by decide, by decide, [2], by decide, by decide, by decide⟩, ?_⟩
    intro _
    rw [hkept]
    rfl
  have hroom' : Room s₃ (.segment 1 .zero (sampleSegment 10 2) []) := by
    intro _
    rw [hqueue]
    exact ⟨by decide, by decide⟩
  have hreached := hreached₃.step ⟨harrival, hroom'⟩ hsecond
  exact ⟨s₄, hreached, hacks, (acknowledged_kept_of_room [1, 2] 8 s₄).1 hreached⟩

/-- The application has not read 129 packets when the next one comes. -/
theorem unread_packets_lose_data :
    ¬ ∀ s, (machine 8).ReachableUnder (Arrival [1, 2] 8) s → Kept 8 s := by
  intro hkept
  obtain ⟨s, hnext⟩ : ∃ s, (machine 8).next (sampleState 129)
      (.segment 0 .zero (sampleSegment 9 1) []) = some s := ⟨_, rfl⟩
  have hreached : (machine 8).ReachableUnder (Arrival [1, 2] 8) s :=
    .step (.initial (sampleState_initial 129)) (sampleSegment_arrival 129) hnext
  have hinvariant : Invariant 8 (sampleState 129) := by
    refine ⟨⟨_, _, rfl, rfl⟩, ?_, ?_⟩
    · intro b hb
      cases hb
    · intro ack hack
      cases hack
  have hoverflow : Overflow (sampleState 129) (.segment 0 .zero (sampleSegment 9 1) []) := by
    refine ⟨by decide, ?_⟩
    change recvQlimit < (List.replicate 129 _).length
    rw [List.length_replicate]
    decide
  exact not_kept_of_overflow hinvariant (sampleSegment_arrival 129) hoverflow hnext
    (hkept s hreached)

end MuQuinet.AcknowledgedKept
