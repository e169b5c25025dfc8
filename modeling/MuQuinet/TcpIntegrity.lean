import Mathlib.Data.List.Chain
import MuQuinet.Lib.Machines
import MuQuinet.TcpLayer

namespace MuQuinet.TcpIntegrity

open MuQuinet.Lib.Machines
open MuQuinet.Buffers
open MuQuinet.Sockets
open MuQuinet.Pcbs
open MuQuinet.TcpLayer
open MuQuinet.Wire

/-- A connection, with the bytes put into its `recvQ` and the acknowledgment
numbers sent by `ack2peer` so far. -/
structure Receiver where
  slot : Slot TcpPcb
  put : List UInt8
  acks : List UInt32

def putBytes (next : List SocketBuffer) (events : List Event) : List UInt8 :=
  events.flatMap fun
    | .queued skbuf => (collect (skbuf :: next)).getD []
    | _ => []

def ackNumbers (events : List Event) : List UInt32 :=
  events.filterMap fun
    | .acked segment => some (ntohl segment.hdr.ackSeq)
    | _ => none

/-- A segment arrives whose data lies at an offset of the stream, the
application takes a packet, or the application sends data. -/
inductive Label
  | segment (off : Nat) (peerAddr : SockaddrIn) (skbuf : SocketBuffer)
      (next : List SocketBuffer)
  | takeFromRecvQ
  | send (port : UInt16) (buf : List UInt8)

def step (s : Receiver) : Label → Option Receiver
  | .segment _ peerAddr skbuf next => do
      let pcb ← s.slot.pcb
      let (slot, events) := TcpPcb.recv s.slot pcb peerAddr skbuf next
      some
        { slot := slot
          put := s.put ++ putBytes next events
          acks := s.acks ++ ackNumbers events }
  | .takeFromRecvQ => do
      let so ← s.slot.socket
      let (_, so) ← so.tryTakeFromRecvQ
      some { s with slot := { s.slot with socket := some so } }
  | .send port buf => do
      let pcb ← s.slot.pcb
      let (_, pcb, _) := TcpPcb.send port pcb buf
      some { s with slot := { s.slot with pcb := some pcb } }

/-- The runs of a connection that is established with `recv_next = irs + 1`. -/
def machine (irs : UInt32) : Machine Receiver Label where
  initial s := ∃ pcb so, s.slot = { pcb := some pcb, socket := some so } ∧
    pcb.connState = .ESTABLISHED ∧ pcb.irs = irs ∧ pcb.recvNext = irs + 1 ∧
    s.put = [] ∧ s.acks = []
  next := step

/-- A packet is a data segment of the stream: its sequence number is that of an
offset, and its payload what the stream holds there. -/
structure IsSegment (stream : List UInt8) (irs : UInt32) (off : Nat)
    (skbuf : SocketBuffer) (next : List SocketBuffer) : Prop where
  seq_eq : ntohl (tcphdr skbuf).seq = irs + 1 + .ofNat off
  end_le : skbuf.payloadEnd ≤ skbuf.rawBytes.length
  payload_eq : ∃ payload, collect (TcpPcb.locatePayload skbuf :: next) = some payload ∧
    payload.length ≤ 65535 ∧ payload <+: stream.drop off

/-- The network delivers segments of the stream in any order, as long as the
queue is not full. -/
def Network (stream : List UInt8) (irs : UInt32) (s : Receiver) : Label → Prop
  | .segment off _ skbuf next =>
      IsSegment stream irs off skbuf next ∧
        ∀ so, s.slot.socket = some so → so.recvQ.length ≤ recvQlimit
  | _ => True

def InOrder (s : Receiver) : Label → Prop
  | .segment off _ skbuf _ =>
      (TcpPcb.locatePayload skbuf).payloadLen ≠ 0 → off = s.put.length
  | _ => True

structure Integrity (stream : List UInt8) (irs : UInt32) (s : Receiver) : Prop where
  put_prefix : s.put <+: stream
  acks_put : ∀ ack ∈ s.acks, ∃ k ≤ s.put.length, ack = irs + 1 + .ofNat k
  acks_forward : s.acks.IsChain fun ack ack' => (ack' - ack).toNat < 2 ^ 31

theorem ack2peer_ackSeq (pcb : TcpPcb) (value : UInt32) :
    ntohl (pcb.ack2peer value).hdr.ackSeq = value :=
  ntohl_htonl value

theorem recv_empty {pcb : TcpPcb} {socket : Option Socket} {peerAddr : SockaddrIn}
    {skbuf : SocketBuffer} {next : List SocketBuffer} (hestab : pcb.connState = .ESTABLISHED)
    (hempty : (TcpPcb.locatePayload skbuf).payloadLen = 0) :
    TcpPcb.recv { pcb := some pcb, socket := socket } pcb peerAddr skbuf next =
      ({ pcb := some (pcb.recvAck (tcphdr skbuf)), socket := socket }, []) := by
  simp only [TcpPcb.recv, hestab]
  rw [if_neg (not_not.mpr hempty)]

/-- `TcpPcb::recv` on an established connection whose queue has room, on a
segment with data: the data is put and acknowledged, wherever it belongs. -/
theorem recv_data {pcb : TcpPcb} {so : Socket} {peerAddr : SockaddrIn}
    {skbuf : SocketBuffer} {next : List SocketBuffer} (hestab : pcb.connState = .ESTABLISHED)
    (hdata : (TcpPcb.locatePayload skbuf).payloadLen ≠ 0)
    (hroom : so.recvQ.length ≤ recvQlimit) :
    let pcb' := { pcb.recvAck (tcphdr skbuf) with
      recvNext := TcpPcb.nextAfter (TcpPcb.locatePayload skbuf) }
    TcpPcb.recv { pcb := some pcb, socket := some so } pcb peerAddr skbuf next =
      ({ pcb := some pcb'
         socket := some (so.putToRecvQ peerAddr (TcpPcb.locatePayload skbuf :: next)) },
        [.queued (TcpPcb.locatePayload skbuf), .acked (pcb'.ack2peer pcb'.recvNext)]) := by
  simp only [TcpPcb.recv, hestab]
  rw [if_pos hdata]
  simp [Slot.deliver, Nat.not_lt.mpr hroom]

/-- The acknowledgment counts the first buffer of a packet only. -/
theorem nextAfter_eq {stream : List UInt8} {irs : UInt32} {off : Nat}
    {skbuf : SocketBuffer} {next : List SocketBuffer} {payload : List UInt8}
    (h : IsSegment stream irs off skbuf next)
    (hpayload : collect (TcpPcb.locatePayload skbuf :: next) = some payload) :
    ∃ n ≤ payload.length, (TcpPcb.locatePayload skbuf).payloadLen = n ∧
      TcpPcb.nextAfter (TcpPcb.locatePayload skbuf) = irs + 1 + .ofNat (off + n) := by
  obtain ⟨hle, rest, -, rfl⟩ := collect_cons_eq_some.mp hpayload
  have hlength := SocketBuffer.payload_length
    (show (TcpPcb.locatePayload skbuf).payloadEnd ≤ (TcpPcb.locatePayload skbuf).rawBytes.length
      from h.end_le)
  have hseq : ntohl (tcphdr (TcpPcb.locatePayload skbuf)).seq = irs + 1 + .ofNat off := h.seq_eq
  refine ⟨(TcpPcb.locatePayload skbuf).payload.length, by simp, ?_, ?_⟩
  · rw [hlength, SocketBuffer.payloadLen, Int.natCast_sub hle]
  · rw [TcpPcb.nextAfter, hseq, hlength, UInt32.ofNat_add, UInt32.ofNat_sub hle]
    simp only [UInt32.sub_eq_add_neg, UInt32.add_assoc]

@[simp] theorem recvAck_connState (pcb : TcpPcb) (hdr : TcpHeader) :
    (pcb.recvAck hdr).connState = pcb.connState := by
  unfold TcpPcb.recvAck
  split <;> rfl

@[simp] theorem recvAck_recvNext (pcb : TcpPcb) (hdr : TcpHeader) :
    (pcb.recvAck hdr).recvNext = pcb.recvNext := by
  unfold TcpPcb.recvAck
  split <;> rfl

/-- The base class binds the port, and `send` keeps what it made of the PCB. -/
theorem send_toPcb (port : UInt16) (pcb : TcpPcb) (buf : List UInt8) :
    (TcpPcb.send port pcb buf).1 = (pcb.toPcb.send port).1 ∧
      (TcpPcb.send port pcb buf).2.1.toPcb = (pcb.toPcb.send port).2.1 := by
  unfold TcpPcb.send
  dsimp only
  split <;> exact ⟨rfl, rfl⟩

theorem send_established {pcb : TcpPcb} (hestab : pcb.connState = .ESTABLISHED)
    (port : UInt16) (buf : List UInt8) :
    (TcpPcb.send port pcb buf).2.1.connState = .ESTABLISHED ∧
      (TcpPcb.send port pcb buf).2.1.recvNext = pcb.recvNext := by
  simp [TcpPcb.send, hestab]

theorem sub_toNat_lt (base : UInt32) {k m : Nat} (hle : k ≤ m) (hclose : m ≤ k + 131070) :
    ((base + .ofNat m) - (base + .ofNat k)).toNat < 2 ^ 31 := by
  obtain ⟨d, rfl⟩ := Nat.exists_eq_add_of_le hle
  have hdiff : (base + .ofNat (k + d)) - (base + .ofNat k) = UInt32.ofNat d := by
    rw [UInt32.ofNat_add, ← UInt32.add_assoc, UInt32.add_comm _ (.ofNat d),
      UInt32.add_sub_cancel]
  rw [hdiff, UInt32.toNat_ofNat']
  omega

theorem append_prefix_of_drop {put payload stream : List UInt8} (hput : put <+: stream)
    (hpayload : payload <+: stream.drop put.length) : put ++ payload <+: stream := by
  obtain ⟨later, rfl⟩ := hput
  rw [List.drop_left] at hpayload
  exact (List.prefix_append_right_inj put).mpr hpayload

/-- `recv_next` lies at or a little behind the end of the bytes put: behind it
when a reassembled segment came, of which only the first buffer is counted. -/
structure Invariant (stream : List UInt8) (irs : UInt32) (s : Receiver) : Prop where
  connected : ∃ pcb so k, s.slot = { pcb := some pcb, socket := some so } ∧
    pcb.connState = .ESTABLISHED ∧ pcb.recvNext = irs + 1 + .ofNat k ∧
    k ≤ s.put.length ∧ s.put.length ≤ k + 65535 ∧ ∀ ack ∈ s.acks.getLast?, ack = pcb.recvNext
  integrity : Integrity stream irs s

theorem invariant_initial {stream : List UInt8} {irs : UInt32} {s : Receiver}
    (h : (machine irs).initial s) : Invariant stream irs s := by
  obtain ⟨pcb, so, hslot, hestab, -, hnext, hput, hacks⟩ := h
  refine ⟨⟨pcb, so, 0, hslot, hestab, ?_, ?_, ?_, ?_⟩, ?_, ?_, ?_⟩
  · rw [hnext]
    exact (UInt32.add_zero _).symm
  · simp
  · simp [hput]
  · simp [hacks]
  · simp [hput]
  · simp [hacks]
  · simp [hacks]

theorem invariant_segment {stream : List UInt8} {irs : UInt32} {s t : Receiver} {off : Nat}
    {peerAddr : SockaddrIn} {skbuf : SocketBuffer} {next : List SocketBuffer}
    (h : Invariant stream irs s)
    (hnetwork : Network stream irs s (.segment off peerAddr skbuf next))
    (horder : InOrder s (.segment off peerAddr skbuf next))
    (hstep : step s (.segment off peerAddr skbuf next) = some t) : Invariant stream irs t := by
  obtain ⟨⟨pcb, so, k, hslot, hestab, hrecvNext, hk, hk', hlast⟩, hput, hacks, hforward⟩ := h
  obtain ⟨hsegment, hroom⟩ := hnetwork
  obtain ⟨payload, hpayload, hsmall, hdata⟩ := hsegment.payload_eq
  by_cases hempty : (TcpPcb.locatePayload skbuf).payloadLen = 0
  · have hsame :
        t = { s with slot := { pcb := some (pcb.recvAck (tcphdr skbuf)), socket := some so } } := by
      simpa [step, hslot, recv_empty hestab hempty, putBytes, ackNumbers] using hstep.symm
    subst hsame
    exact ⟨⟨_, so, k, rfl, by simpa, by simpa, hk, hk', by simpa⟩, hput, hacks, hforward⟩
  · have hoff : off = s.put.length := horder hempty
    have hfits : so.recvQ.length ≤ recvQlimit := hroom so (by rw [hslot])
    obtain ⟨n, hn, -, hnextAfter⟩ := nextAfter_eq hsegment hpayload
    have hnew : t =
        { slot :=
            { pcb := some { pcb.recvAck (tcphdr skbuf) with
                recvNext := TcpPcb.nextAfter (TcpPcb.locatePayload skbuf) }
              socket := some (so.putToRecvQ peerAddr (TcpPcb.locatePayload skbuf :: next)) }
          put := s.put ++ payload
          acks := s.acks ++ [TcpPcb.nextAfter (TcpPcb.locatePayload skbuf)] } := by
      simpa [step, hslot, recv_data hestab hempty hfits, putBytes, ackNumbers, hpayload,
        ack2peer_ackSeq] using hstep.symm
    subst hnew
    rw [hnextAfter, hoff]
    rw [hoff] at hdata
    refine ⟨⟨_, _, s.put.length + n, rfl, by simpa, rfl, ?_, ?_, by simp⟩, ?_, ?_, ?_⟩
    · simp only [List.length_append]
      omega
    · simp only [List.length_append]
      omega
    · exact append_prefix_of_drop hput hdata
    · intro ack hack
      rcases List.mem_append.mp hack with hack | hack
      · obtain ⟨k', hle, rfl⟩ := hacks ack hack
        exact ⟨k', by simp only [List.length_append]; omega, rfl⟩
      · obtain rfl := List.mem_singleton.mp hack
        exact ⟨s.put.length + n, by simp only [List.length_append]; omega, rfl⟩
    · refine List.isChain_append.mpr ⟨hforward, .singleton _, ?_⟩
      intro ack hack ack' hack'
      obtain rfl : irs + 1 + .ofNat (s.put.length + n) = ack' := by simpa using hack'
      rw [hlast ack hack, hrecvNext]
      exact sub_toNat_lt _ (by omega) (by omega)

theorem invariant_step {stream : List UInt8} {irs : UInt32} {s t : Receiver} {label : Label}
    (h : Invariant stream irs s) (hguard : Network stream irs s label ∧ InOrder s label)
    (hstep : step s label = some t) : Invariant stream irs t := by
  cases label with
  | segment off peerAddr skbuf next =>
      exact invariant_segment h hguard.1 hguard.2 hstep
  | takeFromRecvQ =>
      obtain ⟨⟨pcb, so, k, hslot, hconnected⟩, hput, hacks, hforward⟩ := h
      simp only [step, hslot, Option.bind_eq_bind, Option.bind_some,
        Option.bind_eq_some_iff, Option.some.injEq] at hstep
      obtain ⟨⟨entry, so'⟩, -, rfl⟩ := hstep
      exact ⟨⟨pcb, so', k, rfl, hconnected⟩, hput, hacks, hforward⟩
  | send port buf =>
      obtain ⟨⟨pcb, so, k, hslot, hestab, hrecvNext, hk, hk', hlast⟩, hput, hacks, hforward⟩ := h
      simp only [step, hslot, Option.bind_eq_bind, Option.bind_some, Option.some.injEq] at hstep
      subst hstep
      obtain ⟨hestab', hrecvNext'⟩ := send_established hestab port buf
      refine ⟨⟨_, so, k, rfl, hestab', hrecvNext'.trans hrecvNext, hk, hk', ?_⟩, hput, hacks,
        hforward⟩
      intro ack hack
      rw [hrecvNext']
      exact hlast ack hack

/-- In every run in which the network happens to deliver new data in order, the
bytes put are a prefix of the stream, acknowledged without going back. -/
theorem integrity_of_inOrder {stream : List UInt8} {irs : UInt32} {s : Receiver}
    (h : (machine irs).ReachableUnder
      (fun s label => Network stream irs s label ∧ InOrder s label) s) :
    Integrity stream irs s := by
  have hinvariant : Invariant stream irs s :=
    h.invariant (fun _ hinitial => invariant_initial hinitial)
      fun _ _ _ hs hguard hnext => invariant_step hs hguard hnext
  exact hinvariant.integrity

def sampleReceiver : Receiver :=
  { slot :=
      { pcb := some
          { faddr := 0x0100000a, fport := 0x5000, laddr := 0x0200000a, lport := 0x0104
            connState := .ESTABLISHED, onConnEstabCB := none
            sendUnack := 2, sendNext := 2, irs := 8, recvNext := 9 }
        socket := some { type := .TCP, nonblocking := false } }
    put := []
    acks := [] }

def sampleSegment (seq data : UInt8) : SocketBuffer :=
  { tunDeviceRx ([0x45, 0, 0, 41, 0, 7, 0, 0, 64, 6, 0, 0, 10, 0, 0, 1, 10, 0, 0, 2] ++
      [0, 80, 4, 1, 0, 0, 0, seq, 0, 0, 0, 2, 0x50, 0x10, 0, 0, 0, 0, 0, 0] ++ [data]) with
    transportHdr := some 20 }

theorem sampleReceiver_initial : (machine 8).initial sampleReceiver :=
  ⟨_, _, rfl, rfl, rfl, rfl, rfl, rfl⟩

theorem sampleSegment_first : IsSegment [1, 2] 8 0 (sampleSegment 9 1) [] :=
  ⟨by decide, by decide, [1], by decide, by decide, by decide⟩

theorem sampleSegment_second : IsSegment [1, 2] 8 1 (sampleSegment 10 2) [] :=
  ⟨by decide, by decide, [2], by decide, by decide, by decide⟩

theorem room_of_length {s : Receiver} {n : Nat}
    (h : s.slot.socket.map (fun so => so.recvQ.length) = some n) (hn : n ≤ recvQlimit) :
    ∀ so, s.slot.socket = some so → so.recvQ.length ≤ recvQlimit := by
  intro so hso
  rw [hso, Option.map_some, Option.some.injEq] at h
  rw [h]
  exact hn

/-- Two segments of one byte each, and between them the client takes the first byte and
answers. -/
theorem integrity_of_segments :
    ∃ s, (machine 8).ReachableUnder
        (fun s label => Network [1, 2] 8 s label ∧ InOrder s label) s ∧
      s.put = [1, 2] ∧ s.acks = [10, 11] ∧ Integrity [1, 2] 8 s := by
  obtain ⟨s₁, s₂, s₃, s₄, hfirst, htake, hsend, hsecond, hroom, hput₃, hput, hacks⟩ :
      ∃ s₁ s₂ s₃ s₄,
        step sampleReceiver (.segment 0 .zero (sampleSegment 9 1) []) = some s₁ ∧
        step s₁ .takeFromRecvQ = some s₂ ∧ step s₂ (.send 1024 [7]) = some s₃ ∧
        step s₃ (.segment 1 .zero (sampleSegment 10 2) []) = some s₄ ∧
        s₃.slot.socket.map (fun so => so.recvQ.length) = some 0 ∧ s₃.put = [1] ∧
        s₄.put = [1, 2] ∧ s₄.acks = [10, 11] :=
    ⟨_, _, _, _, rfl, rfl, rfl, rfl, rfl, by decide, by decide, by decide⟩
  have hreached : (machine 8).ReachableUnder
      (fun s label => Network [1, 2] 8 s label ∧ InOrder s label) s₃ := by
    have hnetwork : Network [1, 2] 8 sampleReceiver (.segment 0 .zero (sampleSegment 9 1) []) :=
      ⟨sampleSegment_first, room_of_length rfl (Nat.zero_le _)⟩
    have horder : InOrder sampleReceiver (.segment 0 .zero (sampleSegment 9 1) []) := fun _ => rfl
    have hinitial : (machine 8).ReachableUnder
        (fun s label => Network [1, 2] 8 s label ∧ InOrder s label) sampleReceiver :=
      .initial sampleReceiver_initial
    have hreached₁ := hinitial.step ⟨hnetwork, horder⟩ hfirst
    have hreached₂ := hreached₁.step (a := Label.takeFromRecvQ) ⟨trivial, trivial⟩ htake
    exact hreached₂.step (a := .send 1024 [7]) ⟨trivial, trivial⟩ hsend
  have hnetwork : Network [1, 2] 8 s₃ (.segment 1 .zero (sampleSegment 10 2) []) :=
    ⟨sampleSegment_second, room_of_length hroom (Nat.zero_le _)⟩
  have horder : InOrder s₃ (.segment 1 .zero (sampleSegment 10 2) []) := by
    intro _
    rw [hput₃]
    rfl
  have hreached' := hreached.step ⟨hnetwork, horder⟩ hsecond
  exact ⟨s₄, hreached', hput, hacks, integrity_of_inOrder hreached'⟩

/-- The second byte arrives before the first, and is put at once. -/
theorem second_segment_put_first :
    ∃ s, (machine 8).ReachableUnder (Network [1, 2] 8) s ∧ s.put = [2] ∧
      ¬ Integrity [1, 2] 8 s := by
  obtain ⟨s, hstep, hput⟩ : ∃ s, step sampleReceiver (.segment 1 .zero (sampleSegment 10 2) []) =
      some s ∧ s.put = [2] := ⟨_, rfl, by decide⟩
  have hnetwork : Network [1, 2] 8 sampleReceiver (.segment 1 .zero (sampleSegment 10 2) []) :=
    ⟨sampleSegment_second, room_of_length rfl (Nat.zero_le _)⟩
  refine ⟨s, .step (.initial sampleReceiver_initial) hnetwork hstep, hput, ?_⟩
  intro h
  have hprefix := h.put_prefix
  rw [hput] at hprefix
  exact absurd hprefix (by decide)

end MuQuinet.TcpIntegrity
