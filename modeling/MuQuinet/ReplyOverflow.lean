import MuQuinet.InsertionOrder
import MuQuinet.ReassemblyRoundTrip
import MuQuinet.ReplyShape

namespace MuQuinet.ReplyOverflow

open MuQuinet.Lib.Outcomes
open MuQuinet.Lib.OrderedLists
open MuQuinet.Lib.Populations.Population (getD_set_cases)
open MuQuinet.Lib.Words
open MuQuinet.Buffers
open MuQuinet.ChannelSockets
open MuQuinet.DaemonSurvival
open MuQuinet.DefragRuns
open MuQuinet.HandlerAnswers
open MuQuinet.HandlerEffects
open MuQuinet.InsertionOrder
open MuQuinet.IpHeaders
open MuQuinet.IpLayer
open MuQuinet.Pcbs
open MuQuinet.Reassembly
open MuQuinet.ReassemblyRoundTrip
open MuQuinet.ReplyShape
open MuQuinet.RequestHandler
open MuQuinet.Rpc
open MuQuinet.Sockets
open MuQuinet.UdpLayer

/-- A buffer read from the TUN device.  If it is a fragment, its total length is that
of the bytes read and covers its header. -/
structure Arrives (skbuf : SocketBuffer) : Prop where
  wasRead : ∃ bytes, skbuf = tunDeviceRx bytes ∧ bytes.length ≤ maxRawBytesSize
  totLen_eq : isFrag skbuf = true → hostTotLen skbuf = skbuf.rawBytes.length
  header_le : isFrag skbuf = true → (iphdr skbuf).ihl * 4 ≤ hostTotLen skbuf

/-- The chain that the IP layer and the PCB make of the last buffer of a packet to
arrive, whose header is `hdr`, and the buffers that the packet is made of. -/
inductive Queued : IpHeader → List SocketBuffer → List SocketBuffer → Prop
  | whole {skbuf : SocketBuffer} : Arrives skbuf →
      Queued (iphdr skbuf) [skbuf] (received (iphdr skbuf) [skbuf])
  | reassembled {skbuf : SocketBuffer} {chain : List SocketBuffer} :
      (∀ curr ∈ chain, Arrives curr ∧ isFrag curr = true) → skbuf ∈ chain →
      complete chain = true → Queued (iphdr skbuf) chain (received (iphdr skbuf) (finish chain))

/-- What a receiver gets of a packet: of the first buffer what follows the UDP header,
of every other one all but its first `ihl` bytes. -/
def carried (hdr : IpHeader) : List SocketBuffer → Nat
  | [] => 0
  | first :: rest =>
      (first.rawBytes.length - (hdr.ihl * 4 + 8)) +
        (rest.map fun curr => curr.rawBytes.length - (iphdr curr).ihl).sum

/-- The longest payload whose reply fits a message. -/
def longestPayload (requireAddr : Bool) : Nat :=
  if requireAddr then 81888 else 81906

/-- A packet whose first buffer ends before its UDP header does gets no reply. -/
def FitsMessage (requireAddr : Bool) (hdr : IpHeader) (chain : List SocketBuffer) : Prop :=
  (∀ first ∈ chain.head?, hdr.ihl * 4 + 8 ≤ first.rawBytes.length) →
    carried hdr chain ≤ longestPayload requireAddr

/-- The reply that is made of a packet, if one is, is no larger than a message and
written as it is. -/
def ReplyWithin (requireAddr : Bool) (entry : SockaddrIn × List SocketBuffer) : Prop :=
  ∀ resp, packetResponse requireAddr entry = .ok resp →
    resp.byteSize ≤ rpcMessageMaxSize ∧ write resp = .ok resp

theorem varintSize_eq_three {n : Nat} (hlower : 2 ^ 14 ≤ n) (hupper : n < 2 ^ 21) :
    varintSize n = 3 := by
  have hpos : n ≠ 0 := by
    rintro rfl
    exact absurd hlower (by decide)
  have hle : 14 ≤ Nat.log2 n := (Nat.le_log2 hpos).mpr hlower
  have hlt : Nat.log2 n < 21 := (Nat.log2_lt hpos).mpr hupper
  rw [varintSize]
  omega

theorem varintSize_le_three {n : Nat} (h : n < 2 ^ 21) : varintSize n ≤ 3 := by
  rcases Nat.eq_zero_or_pos n with rfl | hpos
  · decide
  · have hlt : Nat.log2 n < 21 := (Nat.log2_lt (Nat.ne_of_gt hpos)).mpr h
    rw [varintSize]
    omega

theorem int32FieldSize_le {n : Nat} (h : n ≤ rpcMessageMaxSize) :
    int32FieldSize (.ofInt n) = 1 + varintSize n := by
  rw [int32FieldSize, int32Size, toInt_ofInt_of_le h, if_neg (by omega), Int.toNat_natCast]

theorem recvfromReplySize_le_iff (n : Nat) (requireAddr : Bool) :
    recvfromReplySize n requireAddr ≤ rpcMessageMaxSize ↔ n ≤ longestPayload requireAddr := by
  have haddr : (if requireAddr then 2 + sizeofSockaddrIn else 0) =
      81906 - longestPayload requireAddr := by
    cases requireAddr <;> rfl
  have hlongest : 81888 ≤ longestPayload requireAddr ∧ longestPayload requireAddr ≤ 81906 := by
    cases requireAddr <;> decide
  rw [recvfromReplySize, haddr]
  rcases Nat.lt_or_ge rpcMessageMaxSize n with hlarge | hsmall
  · unfold rpcMessageMaxSize at hlarge ⊢
    omega
  · rw [int32FieldSize_le hsmall]
    unfold rpcMessageMaxSize at hsmall ⊢
    rcases Nat.lt_or_ge n (2 ^ 14) with hshort | hlong
    · have hsize : varintSize n ≤ 3 := varintSize_le_three (by omega)
      have hfields : varintSize (1 + varintSize n + (1 + varintSize n + n) +
          (81906 - longestPayload requireAddr)) ≤ 3 := varintSize_le_three (by omega)
      omega
    · have hsize : varintSize n = 3 := varintSize_eq_three hlong (by omega)
      have hfields : varintSize (1 + varintSize n + (1 + varintSize n + n) +
          (81906 - longestPayload requireAddr)) = 3 := varintSize_eq_three (by omega) (by omega)
      omega

theorem replyWithin_iff (requireAddr : Bool) (entry : SockaddrIn × List SocketBuffer) :
    ReplyWithin requireAddr entry ↔
      ∀ buf, collect entry.2 = some buf → buf.length ≤ longestPayload requireAddr := by
  unfold ReplyWithin packetResponse
  rcases collect entry.2 with _ | buf
  · simp
  · simp only [Except.ok.injEq, forall_eq', Option.some.injEq, write_eq_ok_iff, and_true]
    rw [Sendable, byteSize_recvfromReply, recvfromReplySize_le_iff]
    exact and_iff_left_of_imp fun hle => ⟨rfl, hle⟩

theorem Arrives.length_pos {skbuf : SocketBuffer} (h : Arrives skbuf)
    (hfrag : isFrag skbuf = true) :
    (iphdr skbuf).ihl ≤ skbuf.rawBytes.length := by
  have htotLen := h.totLen_eq hfrag
  have hheader := h.header_le hfrag
  omega

theorem collect_stripped {rest : List SocketBuffer}
    (h : ∀ curr ∈ rest, Arrives curr ∧ isFrag curr = true) :
    ∃ bytes, collect (rest.map stripHeader) = some bytes ∧
      bytes.length = (rest.map fun curr => curr.rawBytes.length - (iphdr curr).ihl).sum := by
  induction rest with
  | nil => exact ⟨[], rfl, rfl⟩
  | cons curr rest ih =>
      obtain ⟨bytes, hbytes, hlength⟩ := ih fun other hother => h other (by simp [hother])
      obtain ⟨hcurr, hfrag⟩ := h curr (by simp)
      obtain ⟨raw, hraw, -⟩ := hcurr.wasRead
      have hend : (stripHeader curr).payloadEnd = (stripHeader curr).rawBytes.length := by
        subst hraw
        rfl
      have hpayload := SocketBuffer.payload_length (Nat.le_of_eq hend)
      refine ⟨(stripHeader curr).payload ++ bytes,
        collect_cons_eq_some.mpr ⟨?_, bytes, hbytes, rfl⟩,
        ?_⟩
      · rw [hend]
        exact hcurr.length_pos hfrag
      · rw [List.length_append, hpayload, hend, hlength, List.map_cons, List.sum_cons]
        rfl

theorem collect_received {hdr : IpHeader} {packet : SocketBuffer} {next : List SocketBuffer}
    {bytes : List UInt8} (hnetwork : packet.network = 0)
    (hend : packet.payloadEnd = packet.rawBytes.length) (hnext : collect next = some bytes)
    (n : Nat) :
    (∃ buf, collect (received hdr (packet :: next)) = some buf ∧ buf.length = n) ↔
      hdr.ihl * 4 + 8 ≤ packet.rawBytes.length ∧
        n = (packet.rawBytes.length - (hdr.ihl * 4 + 8)) + bytes.length := by
  have hlocated : (UdpPcb.locatePayload (locateTransport hdr.ihl packet)).payloadEnd =
      (UdpPcb.locatePayload (locateTransport hdr.ihl packet)).rawBytes.length := hend
  have hbegin : (UdpPcb.locatePayload (locateTransport hdr.ihl packet)).payloadBegin =
      hdr.ihl * 4 + 8 := by
    change packet.network + hdr.ihl * 4 + 8 = _
    omega
  have hpayload := SocketBuffer.payload_length (Nat.le_of_eq hlocated)
  rw [hbegin, hlocated] at hpayload
  simp only [received, collect_cons_eq_some, hnext, hlocated, hbegin, Option.some.injEq]
  constructor
  · rintro ⟨buf, ⟨hle, rest, rfl, rfl⟩, rfl⟩
    refine ⟨hle, ?_⟩
    rw [List.length_append, hpayload]
    rfl
  · rintro ⟨hle, rfl⟩
    refine ⟨_, ⟨hle, bytes, rfl, rfl⟩, ?_⟩
    rw [List.length_append, hpayload]
    rfl

/-- The bytes that are collected of a packet, which are collected unless the payload of
its first buffer has a negative length. -/
theorem collect_queued {hdr : IpHeader} {chain queued : List SocketBuffer}
    (h : Queued hdr chain queued) (n : Nat) :
    (∃ buf, collect queued = some buf ∧ buf.length = n) ↔
      (∀ first ∈ chain.head?, hdr.ihl * 4 + 8 ≤ first.rawBytes.length) ∧ n = carried hdr chain := by
  cases h with
  | @whole skbuf harrives =>
      obtain ⟨raw, rfl, -⟩ := harrives.wasRead
      rw [collect_received rfl rfl collect_nil]
      simp [carried]
  | @reassembled skbuf chain hchain hmem hcomplete =>
      rcases chain with _ | ⟨first, rest⟩
      · cases hmem
      · obtain ⟨bytes, hbytes, hlength⟩ := collect_stripped fun curr hcurr =>
          hchain curr (List.mem_cons_of_mem _ hcurr)
        obtain ⟨raw, hraw, -⟩ := (hchain first List.mem_cons_self).1.wasRead
        have hfirst : first.network = 0 ∧ first.payloadEnd = first.rawBytes.length := by
          subst hraw
          exact ⟨rfl, rfl⟩
        have hrewritten : (rewriteTotLen (payloadlen (rest.getLastD first)) first).rawBytes.length =
            first.rawBytes.length := length_store16 _ _ _
        have hend : (rewriteTotLen (payloadlen (rest.getLastD first)) first).payloadEnd =
            (rewriteTotLen (payloadlen (rest.getLastD first)) first).rawBytes.length :=
          hfirst.2.trans hrewritten.symm
        rw [finish, collect_received (by exact hfirst.1) hend hbytes, hrewritten, hlength]
        simp [carried]

theorem replyWithin_queued_iff {entry : SockaddrIn × List SocketBuffer} {hdr : IpHeader}
    {chain : List SocketBuffer} (h : Queued hdr chain entry.2) (requireAddr : Bool) :
    ReplyWithin requireAddr entry ↔ FitsMessage requireAddr hdr chain := by
  rw [replyWithin_iff]
  constructor
  · intro hwithin hfirst
    obtain ⟨buf, hbuf, hlength⟩ := (collect_queued h _).mpr ⟨hfirst, rfl⟩
    rw [← hlength]
    exact hwithin buf hbuf
  · intro hfits buf hbuf
    obtain ⟨hfirst, hlength⟩ := (collect_queued h _).mp ⟨buf, hbuf, rfl⟩
    rw [hlength]
    exact hfits hfirst

/-- The reply to a packet that arrived whole always fits. -/
theorem fitsMessage_whole {skbuf : SocketBuffer} (h : Arrives skbuf) (requireAddr : Bool)
    (hdr : IpHeader) : FitsMessage requireAddr hdr [skbuf] := by
  obtain ⟨raw, rfl, hlength⟩ := h.wasRead
  have hlongest : maxRawBytesSize ≤ longestPayload requireAddr := by
    cases requireAddr <;> decide
  intro _
  calc carried hdr [tunDeviceRx raw]
      ≤ raw.length := Nat.sub_le _ _
    _ ≤ maxRawBytesSize := hlength
    _ ≤ longestPayload requireAddr := hlongest

theorem mem_recvQ_putToRecvQ {so : Socket} {peeraddr : SockaddrIn} {skbuf : List SocketBuffer}
    {entry : SockaddrIn × List SocketBuffer}
    (h : entry ∈ (so.putToRecvQ peeraddr skbuf).recvQ) :
    entry ∈ so.recvQ ∨ entry = (peeraddr, skbuf) := by
  unfold Socket.putToRecvQ at h
  split at h
  · exact .inl h
  · rw [Socket.recvQ_markSChannelAsReadable] at h
    rcases List.mem_append.mp h with hold | hnew
    · exact .inl hold
    · exact .inr (List.mem_singleton.mp hnew)

theorem mem_recvQ_deliver {P : Type} {slot : Slot P} {peeraddr : SockaddrIn} {skbuf : SocketBuffer}
    {next : List SocketBuffer} {so : Socket} {entry : SockaddrIn × List SocketBuffer}
    (hso : (slot.deliver peeraddr skbuf next).1.socket = some so) (h : entry ∈ so.recvQ) :
    (∃ old, slot.socket = some old ∧ entry ∈ old.recvQ) ∨ entry = (peeraddr, skbuf :: next) := by
  unfold Slot.deliver at hso
  split at hso
  · exact .inl ⟨so, hso, h⟩
  · rename_i old hold
    obtain rfl := Option.some.inj hso
    exact (mem_recvQ_putToRecvQ h).imp_left fun hmem => ⟨old, hold, hmem⟩

theorem recvfrom_recvQ_subset {so so' : Socket} {ch : Nat} {requireAddr : Bool} {resp : Response}
    (h : recvfrom so ch requireAddr = .ok (so', resp)) : so'.recvQ ⊆ so.recvQ := by
  cases recvfrom_exit h with
  | packet hqueue =>
      rw [hqueue]
      exact List.subset_cons_self _ _
  | again => exact List.Subset.refl _
  | waitNext => exact List.Subset.refl _

theorem sChannelReadCb_recvQ_subset {so so' : Socket} {resp : Option Response}
    (h : sChannelReadCb so = .ok (so', resp)) : so'.recvQ ⊆ so.recvQ := by
  cases HandlerAnswers.sChannelReadCb_effect h with
  | idle => exact List.Subset.refl _
  | unset => exact List.Subset.refl _
  | replied _ _ hqueue =>
      rw [hqueue]
      exact List.subset_cons_self _ _

/-- Every packet in the queue of the socket is in `Q`. -/
def SlotQueue {P : Type} (Q : List SocketBuffer → Prop) (slot : Slot P) : Prop :=
  ∀ so, slot.socket = some so → ∀ entry ∈ so.recvQ, Q entry.2

section Slots

variable {P : Type} {Q : List SocketBuffer → Prop}

/-- No call puts a packet into a queue. -/
theorem SlotQueue.effect {d : Daemon} {ch : Nat}
    {ref : SocketRef} {calling : Calling} {resp : Response} {fresh : P → Prop}
    {called : P → P → Prop} {slot slot' : Slot P} (h : SlotQueue Q slot)
    (heffect : SlotEffect d ch ref calling resp fresh called slot slot') : SlotQueue Q slot' := by
  intro so hso entry hentry
  cases heffect with
  | unchanged => exact h so hso entry hentry
  | released => cases hso
  | created type nonblocking =>
      cases hso
      cases hentry
  | called socket => exact h so hso entry hentry
  | received pcb _ _ hrecvfrom =>
      cases hso
      exact h _ rfl entry (recvfrom_recvQ_subset hrecvfrom hentry)

theorem SlotQueue.set {pcbs : List (Slot P)}
    (h : ∀ i, SlotQueue Q (pcbs.getD i .expired)) (i : Nat) {slot : Slot P}
    (hslot : SlotQueue Q slot) (j : Nat) : SlotQueue Q ((pcbs.set i slot).getD j .expired) := by
  rcases getD_set_cases pcbs i j slot .expired with heq | ⟨-, heq⟩
  · rw [heq]
    exact h j
  · rw [heq]
    exact hslot

theorem SlotQueue.deliver {slot : Slot P} (h : SlotQueue Q slot)
    (peeraddr : SockaddrIn) {skbuf : SocketBuffer} {next : List SocketBuffer}
    (hQ : Q (skbuf :: next)) : SlotQueue Q (slot.deliver peeraddr skbuf next).1 := by
  intro so hso entry hentry
  rcases mem_recvQ_deliver hso hentry with ⟨old, hold, hmem⟩ | rfl
  · exact h old hold entry hmem
  · exact hQ

end Slots

/-- Every packet in the queue of a UDP socket is in `Q`. -/
def UdpQueues (Q : List SocketBuffer → Prop) (d : Daemon) : Prop :=
  ∀ i so, (d.udpSlot i).socket = some so → ∀ entry ∈ so.recvQ, Q entry.2

section Queues

variable {Q : List SocketBuffer → Prop} {d d' : Daemon}

theorem UdpQueues.effects {ch : Nat} {calling : Calling} {resp : Response} (h : UdpQueues Q d)
    (heffects : Effects d d' ch calling resp) : UdpQueues Q d' := by
  intro i
  have hslot : SlotQueue Q (d.udpSlot i) := h i
  exact hslot.effect (heffects.udp i)

theorem UdpQueues.notified {ref : SocketRef} {so so' : Socket} {resp : Option Response}
    (h : UdpQueues Q d) (hso : d.socketAt ref = some so)
    (hrun : sChannelReadCb so = .ok (so', resp)) : UdpQueues Q (d.setSocketAt ref so') := by
  intro i other hother entry hentry
  rcases socketAt_setSocketAt_cases d ref { type := .UDP, index := i } so' with heq | ⟨rfl, heq⟩
  · exact h i other (heq.symm.trans hother) entry hentry
  · obtain rfl : so' = other := Option.some.inj (heq.symm.trans hother)
    exact h i so hso entry (sChannelReadCb_recvQ_subset hrun hentry)

theorem UdpQueues.demultiplex {st : Stack} {uninit : SockaddrIn} {hdr : IpHeader}
    {packet : SocketBuffer} {next : List SocketBuffer} (h : UdpQueues Q d)
    (hst : st.udp = d.stack.udp)
    (hQ : Q (received hdr (packet :: next))) :
    UdpQueues Q { d with stack := (IpLayer.demultiplex st uninit hdr packet next).1 } := by
  have hkept : ∀ tcp, UdpQueues Q { d with stack := { st with tcp := tcp } } := by
    intro tcp i so hso
    rw [Daemon.udpSlot, hst] at hso
    exact h i so hso
  unfold IpLayer.demultiplex
  dsimp only
  split
  · unfold Udp.rx
    dsimp only
    split
    · exact hkept st.tcp
    · rename_i i hfind
      intro j so hso entry hentry
      generalize hpeer : ({ uninit with
        sinFamily := UdpLayer.AF_INET
        sinPort := (Udp.fourTuple (locateTransport hdr.ihl packet)).fport
        sinAddr := (Udp.fourTuple (locateTransport hdr.ihl packet)).faddr } : SockaddrIn) =
          peeraddr at hso
      rw [hst] at hso
      rcases getD_set_cases d.stack.udp.pcbs i j
        (UdpPcb.recv (d.stack.udp.pcbs.getD i .expired) peeraddr
          (locateTransport hdr.ihl packet) next).1 .expired with heq | ⟨rfl, heq⟩
      · exact h j so ((congrArg Slot.socket heq).symm.trans hso) entry hentry
      · rcases mem_recvQ_deliver ((congrArg Slot.socket heq).symm.trans hso) hentry with
          ⟨old, hold, hmem⟩ | rfl
        · exact h i old hold entry hmem
        · exact hQ
  · exact hkept _
  · exact hkept st.tcp

end Queues

section Defragers

variable {d d' : Daemon}

@[simp] theorem defrager_release (d : Daemon) (old : Option SocketRef) :
    (d.release old).stack.defrager = d.stack.defrager := by
  rcases old with _ | ⟨_ | _, index⟩ <;> rfl

@[simp] theorem defrager_setSocketAt (d : Daemon) (ref : SocketRef) (so : Socket) :
    (d.setSocketAt ref so).stack.defrager = d.stack.defrager := by
  rcases ref with ⟨_ | _, index⟩ <;> rfl

theorem defrager_demultiplex (st : Stack) (uninit : SockaddrIn) (hdr : IpHeader)
    (packet : SocketBuffer) (next : List SocketBuffer) :
    (demultiplex st uninit hdr packet next).1.defrager = st.defrager := by
  unfold demultiplex
  dsimp only
  split <;> rfl

theorem defrager_socketCall {mem : Uninit} {ch : Nat} {domain type : Int32} {resp : Response}
    (h : socketCall d mem ch domain type = .ok (d', resp)) :
    d'.stack.defrager = d.stack.defrager := by
  unfold socketCall at h
  split at h
  · cases h
  · split at h
    · cases h
    · dsimp only at h
      split at h
      · cases h
        exact defrager_release _ _
      · cases h
        exact defrager_release _ _

theorem defrager_handleRequest {mem : Uninit} {ch : Nat} {req : Request} {resp : Response}
    (h : handleRequest d mem ch req = .ok (d', resp)) : d'.stack.defrager = d.stack.defrager := by
  unfold handleRequest at h
  generalize req.calling = calling at h
  cases calling with
  | socketCall domain type protocol => exact defrager_socketCall h
  | connectCall addr =>
      obtain ⟨ref, so, -, hexit⟩ := connectCall_exit h
      cases hexit <;> rfl
  | recvfromCall len flags requireAddr =>
      simp only [recvfromCall, bind_eq_ok_iff] at h
      obtain ⟨⟨ref, so⟩, -, ⟨so', _⟩, -, ⟨⟩⟩ := h
      exact defrager_setSocketAt d ref so'
  | sendtoCall buf flags addr =>
      obtain ⟨ref, so, -, hexit⟩ := sendtoCall_exit h
      cases hexit <;> rfl
  | getpeernameCall =>
      obtain ⟨_, -, ⟨⟩⟩ := bind_eq_ok_iff.mp h
      rfl
  | getsocknameCall =>
      obtain ⟨_, -, ⟨⟩⟩ := bind_eq_ok_iff.mp h
      rfl
  | _ =>
      cases h
      rfl

/-- Only packets reach the defrager. -/
theorem defrager_next {a : Label} (h : DaemonSurvival.next (.running d) a = some (.running d')) :
    d'.stack.defrager = d.stack.defrager ∨ ∃ uninit skbuf, a = .rx uninit skbuf := by
  cases next_exit h with
  | rx uninit skbuf => exact .inr ⟨uninit, skbuf, rfl⟩
  | accept => exact .inl rfl
  | read _ hread =>
      left
      cases onReadReady_exit hread with
      | again => rfl
      | eof => exact defrager_release d _
      | written hcall => exact defrager_handleRequest hcall
      | unwritten hcall =>
          have hkept := defrager_handleRequest hcall
          exact hkept
  | hangUp => exact .inl (defrager_release d _)
  | notified => exact .inl (defrager_setSocketAt _ _ _)

end Defragers

def IsArrivedFragment (skbuf : SocketBuffer) : Prop :=
  Arrives skbuf ∧ isFrag skbuf = true

def IsQueued (queued : List SocketBuffer) : Prop :=
  ∃ hdr chain, Queued hdr chain queued

/-- The defrager holds fragments that arrived, and the queues what the IP layer made
of arrivals. -/
structure Invariant (d : Daemon) : Prop where
  fragments : Chains (fun chain => ∀ curr ∈ chain, IsArrivedFragment curr) d.stack.defrager
  queues : UdpQueues IsQueued d

theorem Invariant.rx {d : Daemon} {skbuf : SocketBuffer} (h : Invariant d)
    (harrives : Arrives skbuf)
    (uninit : SockaddrIn) : Invariant { d with stack := (IpLayer.rx d.stack uninit skbuf).1 } := by
  unfold IpLayer.rx
  dsimp only
  split
  · exact h
  · split
    · exact h
    · split
      · rename_i hfrag
        have hinserted : ∀ chain, insert (chainOf (contextKey skbuf) d.stack.defrager) skbuf =
            some chain → ∀ curr ∈ chain, IsArrivedFragment curr := by
          intro chain hinsert curr hcurr
          have hearlier := h.fragments.chainOf (by simp) (contextKey skbuf)
          rcases List.mem_cons.mp ((insert_perm hinsert).mem_iff.mp hcurr) with rfl | hmem
          · exact ⟨harrives, hfrag⟩
          · exact hearlier curr hmem
        split
        · exact h
        · rename_i defrager hdefrag
          exact ⟨h.fragments.defrag hdefrag hinserted, h.queues⟩
        · rename_i defrager packet next hdefrag
          obtain ⟨chain, hinsert, hcase⟩ := defrag_spec hdefrag
          rcases hcase with ⟨hcomplete, hfinish⟩ | ⟨-, hnil, -⟩
          · have hmem : skbuf ∈ chain := (insert_perm hinsert).mem_iff.mpr List.mem_cons_self
            have hqueued : IsQueued (received (iphdr skbuf) (packet :: next)) := by
              rw [hfinish]
              exact ⟨_, chain, .reassembled (hinserted chain hinsert) hmem hcomplete⟩
            refine ⟨?_, h.queues.demultiplex rfl hqueued⟩
            rw [defrager_demultiplex]
            exact h.fragments.defrag hdefrag hinserted
          · cases hnil
      · refine ⟨?_, h.queues.demultiplex rfl ⟨_, _, .whole harrives⟩⟩
        rw [defrager_demultiplex]
        exact h.fragments

theorem Invariant.next {d d' : Daemon} {a : Label} (h : Invariant d) (hconn : Connected d)
    (harrives : ∀ uninit skbuf, a = .rx uninit skbuf → Arrives skbuf)
    (hnext : DaemonSurvival.next (.running d) a = some (.running d')) : Invariant d' := by
  rcases defrager_next hnext with hdefrager | ⟨uninit, skbuf, rfl⟩
  · refine ⟨hdefrager ▸ h.fragments, ?_⟩
    cases next_effect hconn hnext with
    | request heffects => exact h.queues.effects heffects
    | release ch heffects => exact h.queues.effects (heffects (retOk (.closeCall 0 none)))
    | rx =>
        cases hnext
        exact (h.rx (harrives _ _ rfl) _).queues
    | notified hso hrun hd' =>
        rw [hd']
        exact h.queues.notified hso hrun
  · cases hnext
    exact h.rx (harrives uninit skbuf rfl) uninit

/-- Only buffers that were read from the device reach the IP layer. -/
def RxArrives (_ : DaemonSurvival.State) : Label → Prop
  | .rx _ skbuf => Arrives skbuf
  | _ => True

theorem invariant_of_reachable {s : DaemonSurvival.State}
    (h : started.ReachableUnder RxArrives s) : ∀ d, s = .running d → Invariant d := by
  induction h with
  | initial hinitial =>
      obtain ⟨d, hd, -, hudp, -, hdefrager⟩ := hinitial
      rintro d' rfl
      obtain rfl := DaemonSurvival.State.running.inj hd
      constructor
      · intro c hc
        rw [hdefrager] at hc
        cases hc
      · intro i so hso
        rw [Daemon.udpSlot, hudp] at hso
        cases hso
  | @step s t a hreached hguard hnext ih =>
      rintro d' rfl
      rcases s with d | fault
      · refine (ih d rfl).next (connected (reachable_of_started hreached) d rfl) ?_ hnext
        rintro uninit skbuf rfl
        exact hguard
      · cases hnext

/-- Every packet in the queue of a UDP socket is made of buffers that arrived, and its
reply fits a message exactly if what it carries is not too long. -/
theorem reply_within_iff {d : Daemon} (h : started.ReachableUnder RxArrives (.running d)) {i : Nat}
    {so : Socket} (hso : (d.udpSlot i).socket = some so) {entry : SockaddrIn × List SocketBuffer}
    (hentry : entry ∈ so.recvQ) :
    (∃ hdr chain, Queued hdr chain entry.2) ∧
      ∀ hdr chain, Queued hdr chain entry.2 → ∀ requireAddr,
        (ReplyWithin requireAddr entry ↔ FitsMessage requireAddr hdr chain) :=
  ⟨(invariant_of_reachable h d rfl).queues i so hso entry hentry,
    fun _ _ hqueued requireAddr => replyWithin_queued_iff hqueued requireAddr⟩

/-- The UDP header of a datagram to port 1025, in a first fragment with the longest
IP header. -/
def sampleHead : SocketBuffer :=
  sampleFragment 15 0 true [0, 53, 4, 1, 0, 8, 0, 0]

/-- A fragment without data, of which the receiver gets 45 bytes. -/
def sampleFiller : SocketBuffer :=
  sampleFragment 15 1 true []

def sampleTail : SocketBuffer :=
  sampleFragment 15 1 false []

def sampleKey : ContextKey :=
  { ipId := 0x0700, ipProtocol := 17, ipSaddr := 0x0100000a, ipDaddr := 0x0200000a }

def sampleSocket : Socket :=
  { type := .UDP, nonblocking := false }

/-- The daemon when its only client has bound a UDP socket to port 1025. -/
def sampleBound (defragCtxList : List DefragContext) : Daemon :=
  { rrChannels := [some { socket := some { type := .UDP, index := 0 } }]
    stack :=
      { defrager := { defragCtxList := defragCtxList }
        udp :=
          { pcbs :=
              [{ pcb := some { faddr := 0, fport := 0, laddr := 0x0200000a, lport := 0x0104 }
                 socket := some sampleSocket }]
            port := 1025 }
        tcp := { pcbs := [], port := 1024 } }
    stackAddr := 0x0200000a }

def sampleWaiting (chain : List SocketBuffer) : Daemon :=
  sampleBound [{ toContextKey := sampleKey, first := chain }]

theorem sampleBound_reachable : started.ReachableUnder RxArrives (.running (sampleBound [])) := by
  have hinitial : started.ReachableUnder RxArrives
      (.running { sampleDaemon with stackAddr := 0x0200000a }) :=
        .initial ⟨_, rfl, rfl, rfl, rfl, rfl⟩
  have haccepted := hinitial.step (a := Label.accept) trivial rfl
  have hsocket := haccepted.step (a := sampleRead (.socketCall 2 2 0)) trivial rfl
  exact hsocket.step (a := sampleRead (.sendtoCall [] 0 (some sampleAddr))) trivial rfl

theorem arrives_sample (units : Nat) (more : Bool) {data : List UInt8} (h : data.length ≤ 1458) :
    Arrives (sampleFragment 15 units more data) := by
  have hihl : (iphdr (sampleFragment 15 units more data)).ihl = 15 :=
    ihl_sampleFragment (by decide) units more data
  have htotLen : hostTotLen (sampleFragment 15 units more data) = 15 * 4 + data.length :=
    hostTotLen_sampleFragment units more (by omega)
  have hlength : (sampleFragment 15 units more data).rawBytes.length = 60 + data.length := by
    simp [sampleFragment, tunDeviceRx, bytesBE16]
    omega
  refine ⟨⟨_, rfl, ?_⟩, ?_, ?_⟩
  · change (sampleFragment 15 units more data).rawBytes.length ≤ _
    rw [hlength, maxRawBytesSize]
    omega
  · intro _
    rw [htotLen, hlength]
  · intro _
    omega

theorem rx_waits {st : Stack} {defrager : Defrager} {skbuf : SocketBuffer} (uninit : SockaddrIn)
    (hversion : (iphdr skbuf).version = 4)
    (hlength : 20 ≤ skbuf.payloadEnd - skbuf.hdrsBegin.getD 0) (hfrag : isFrag skbuf = true)
    (hdefrag : defrag st.defrager skbuf = some (defrager, [])) :
    (rx st uninit skbuf).1 = { st with defrager := defrager } := by
  simp only [rx, hversion, hfrag, hdefrag, ne_eq, not_true_eq_false, if_false, if_true,
    if_neg (Nat.not_lt.mpr hlength)]

/-- A fragment of the sample datagram that does not complete it. -/
theorem waits_reachable {chain chain' : List SocketBuffer} {skbuf : SocketBuffer}
    (h : started.ReachableUnder RxArrives (.running (sampleWaiting chain)))
    (harrives : Arrives skbuf)
    (hskbuf : contextKey skbuf = sampleKey ∧ (iphdr skbuf).version = 4 ∧
      20 ≤ skbuf.payloadEnd - skbuf.hdrsBegin.getD 0 ∧ isFrag skbuf = true)
    (hinsert : insert chain skbuf = some chain') (hwaits : complete chain' = false) :
    started.ReachableUnder RxArrives (.running (sampleWaiting chain')) := by
  obtain ⟨hkey, hversion, hlength, hfrag⟩ := hskbuf
  have hdefrag : defrag (sampleWaiting chain).stack.defrager skbuf =
      some ((sampleWaiting chain').stack.defrager, []) := by
    simp [defrag, sampleWaiting, sampleBound, locate, hkey, hinsert, hwaits]
  refine h.step (a := .rx .zero skbuf) harrives ?_
  simp only [started, DaemonSurvival.next, rx_waits .zero hversion hlength hfrag hdefrag]
  rfl

theorem insert_at_end {first : SocketBuffer} {rest : List SocketBuffer} {skbuf : SocketBuffer}
    (hfirst : hostOff first ≤ hostOff skbuf)
    (h : ∀ curr ∈ first :: rest, hostOff curr < rawOff skbuf) :
    insert (first :: rest) skbuf = some (first :: rest ++ [skbuf]) := by
  rw [insert_eq hfirst, if_pos (h first List.mem_cons_self), placeAt_of_lt h]

/-- Fragments without data do not move the offset that the scan expects. -/
theorem contiguousFrom_fillers (n : Nat) (next : List SocketBuffer) :
    contiguousFrom 8 (List.replicate n sampleFiller ++ next) = contiguousFrom 8 next := by
  induction n with
  | zero => rfl
  | succ n ih =>
      have hoff : hostOff sampleFiller = 1 := by decide
      have htotLen : hostTotLen sampleFiller = 60 := by decide
      have hihl : (iphdr sampleFiller).ihl = 15 := by decide
      rw [List.replicate_succ, List.cons_append, contiguousFrom, hoff, htotLen, hihl]
      exact ih

theorem contiguousFrom_head (next : List SocketBuffer) :
    contiguousFrom 0 (sampleHead :: next) = contiguousFrom 8 next := by
  have hoff : hostOff sampleHead = 0 := by decide
  have htotLen : hostTotLen sampleHead = 68 := by decide
  have hihl : (iphdr sampleHead).ihl = 15 := by decide
  rw [contiguousFrom, hoff, htotLen, hihl]
  rfl

theorem fillers_reachable (n : Nat) :
    started.ReachableUnder RxArrives
      (.running (sampleWaiting (List.replicate (n + 1) sampleFiller))) := by
  have hfiller : Arrives sampleFiller := arrives_sample 1 true (by decide)
  have hwaits : ∀ n, complete (List.replicate (n + 1) sampleFiller) = false := by
    intro n
    have hoff : hostOff sampleFiller = 1 := by decide
    simp [complete, List.replicate_succ, contiguousFrom, hoff]
  induction n with
  | zero =>
      refine sampleBound_reachable.step (a := .rx .zero sampleFiller) hfiller ?_
      rfl
  | succ n ih =>
      refine waits_reachable ih hfiller (by decide) ?_ (hwaits (n + 1))
      rw [List.replicate_succ, insert_at_end (Nat.le_refl _), ← List.replicate_succ,
        ← List.replicate_succ']
      intro curr hcurr
      rw [← List.replicate_succ] at hcurr
      obtain rfl := List.eq_of_mem_replicate hcurr
      decide

def sampleChain (n : Nat) : List SocketBuffer :=
  sampleHead :: List.replicate (n + 1) sampleFiller

theorem chain_reachable (n : Nat) :
    started.ReachableUnder RxArrives (.running (sampleWaiting (sampleChain n))) := by
  have hhead : Arrives sampleHead := arrives_sample 0 true (by decide)
  refine waits_reachable (fillers_reachable n) hhead (by decide) ?_ ?_
  · rfl
  · have hmore : moreFrag sampleFiller = true := by decide
    have hlast : (sampleChain n).getLast? = some sampleFiller := by
      rw [sampleChain, List.replicate_succ', ← List.cons_append, List.getLast?_concat]
    simp [complete, hlast, hmore]

theorem insert_tail (n : Nat) :
    insert (sampleChain n) sampleTail = some (sampleChain n ++ [sampleTail]) := by
  have htail : rawOff sampleTail = 256 := by decide
  refine insert_at_end (by decide) ?_
  intro curr hcurr
  rw [htail]
  rcases List.mem_cons.mp hcurr with rfl | hmem
  · decide
  · obtain rfl := List.eq_of_mem_replicate hmem
    decide

theorem complete_tail (n : Nat) : complete (sampleChain n ++ [sampleTail]) = true := by
  have hoff : hostOff sampleTail = 1 := by decide
  have hmore : moreFrag sampleTail = false := by decide
  have hlast : (sampleChain n ++ [sampleTail]).getLast? = some sampleTail :=
    List.getLast?_concat
  rw [complete, hlast, sampleChain, List.cons_append, contiguousFrom_head, contiguousFrom_fillers]
  simp [contiguousFrom, hoff, hmore]

theorem arrivals_of_chain (n : Nat) :
    ∀ curr ∈ sampleChain n ++ [sampleTail], Arrives curr ∧ isFrag curr = true := by
  intro curr hcurr
  rcases List.mem_append.mp hcurr with hcurr | hcurr
  · rcases List.mem_cons.mp hcurr with rfl | hmem
    · exact ⟨arrives_sample 0 true (by decide), by decide⟩
    · obtain rfl := List.eq_of_mem_replicate hmem
      exact ⟨arrives_sample 1 true (by decide), by decide⟩
  · obtain rfl := List.mem_singleton.mp hcurr
    exact ⟨arrives_sample 1 false (by decide), by decide⟩

theorem demultiplex_delivers {st : Stack} {hdr : IpHeader} {packet : SocketBuffer} {i : Nat}
    {so : Socket} (uninit : SockaddrIn) (next : List SocketBuffer)
    (hprotocol : protoxmap hdr.protocol = some .UDP)
    (hfind : st.udp.find (Udp.fourTuple (locateTransport hdr.ihl packet)) = some i)
    (hlt : i < st.udp.pcbs.length) (hso : (st.udp.pcbs.getD i .expired).socket = some so) :
    ∃ peeraddr, ((demultiplex st uninit hdr packet next).1.udp.pcbs.getD i .expired).socket =
      some (so.putToRecvQ peeraddr (received hdr (packet :: next))) := by
  have hself : ∀ slot, (st.udp.pcbs.set i slot).getD i .expired = slot := by
    intro slot
    simp [hlt]
  simp only [demultiplex, hprotocol, Udp.rx, hfind, UdpPcb.recv, Slot.deliver, hso, hself]
  exact ⟨_, rfl⟩

/-- The last fragment puts the whole chain into the queue of the socket. -/
theorem tail_queued (n : Nat) :
    ∃ d so entry, started.ReachableUnder RxArrives (.running d) ∧
      (d.udpSlot 0).socket = some so ∧ entry ∈ so.recvQ ∧
      Queued (iphdr sampleTail) (sampleChain n ++ [sampleTail]) entry.2 := by
  have htail : Arrives sampleTail := arrives_sample 1 false (by decide)
  have hkey : contextKey sampleTail = sampleKey := by decide
  have hdefrag : defrag (sampleWaiting (sampleChain n)).stack.defrager sampleTail =
      some ({ defragCtxList := [] }, finish (sampleChain n ++ [sampleTail])) := by
    simp [defrag, sampleWaiting, sampleBound, locate, hkey, insert_tail, complete_tail]
  have hlast : (List.replicate (n + 1) sampleFiller ++ [sampleTail]).getLastD sampleHead =
      sampleTail := List.getLastD_concat
  have hfinish : finish (sampleChain n ++ [sampleTail]) =
      rewriteTotLen (payloadlen sampleTail) sampleHead ::
        (List.replicate (n + 1) sampleFiller ++ [sampleTail]).map stripHeader := by
    rw [sampleChain, List.cons_append, finish, hlast]
  generalize (List.replicate (n + 1) sampleFiller ++ [sampleTail]).map stripHeader = next at hfinish
  rw [hfinish] at hdefrag
  have hrx : (rx (sampleWaiting (sampleChain n)).stack .zero sampleTail).1 =
      (demultiplex (sampleBound []).stack .zero (iphdr sampleTail)
        (rewriteTotLen (payloadlen sampleTail) sampleHead) next).1 := by
    have hversion : (iphdr sampleTail).version = 4 := by decide
    have hlength : ¬ sampleTail.payloadEnd - sampleTail.hdrsBegin.getD 0 < 20 := by decide
    have hfrag : isFrag sampleTail = true := by decide
    simp only [rx, hversion, hlength, hfrag, hdefrag, ne_eq, not_true_eq_false, if_false, if_true]
    rfl
  have hfind :
      (sampleBound []).stack.udp.find (Udp.fourTuple (locateTransport (iphdr sampleTail).ihl
      (rewriteTotLen (payloadlen sampleTail) sampleHead))) = some 0 := by
    decide
  have hbound : ((sampleBound []).stack.udp.pcbs.getD 0 .expired).socket = some sampleSocket := rfl
  obtain ⟨peeraddr, hsocket⟩ := demultiplex_delivers .zero next (by decide) hfind (by decide) hbound
  rw [← hrx] at hsocket
  refine ⟨_, _, (peeraddr, received (iphdr sampleTail)
      (rewriteTotLen (payloadlen sampleTail) sampleHead :: next)),
    (chain_reachable n).step (a := .rx .zero sampleTail) htail rfl, hsocket, ?_, ?_⟩
  · rw [Socket.recvQ_putToRecvQ_of_room (by decide)]
    exact List.mem_append_right _ List.mem_cons_self
  · rw [← hfinish]
    exact .reassembled (arrivals_of_chain n) (by simp) (complete_tail n)

theorem carried_sample (n : Nat) :
    carried (iphdr sampleTail) (sampleChain n ++ [sampleTail]) = 45 * (n + 2) := by
  have hihl : (iphdr sampleTail).ihl = 15 := by decide
  have hhead : sampleHead.rawBytes.length = 68 := by decide
  have hfiller : sampleFiller.rawBytes.length - (iphdr sampleFiller).ihl = 45 := by decide
  have htail : sampleTail.rawBytes.length - (iphdr sampleTail).ihl = 45 := by decide
  simp only [sampleChain, List.cons_append, carried, hihl, hhead, List.map_append,
    List.map_replicate, hfiller, List.map_cons, List.map_nil, List.sum_append,
    List.sum_replicate_nat, List.sum_cons, List.sum_nil]
  omega

theorem reply_within_sample :
    ∃ (d : Daemon) (so : Socket) (entry : SockaddrIn × List SocketBuffer),
      (d.udpSlot 0).socket = some so ∧ entry ∈ so.recvQ ∧
      (∃ hdr chain, Queued hdr chain entry.2) ∧
        ∀ hdr chain, Queued hdr chain entry.2 → ∀ requireAddr,
          (ReplyWithin requireAddr entry ↔ FitsMessage requireAddr hdr chain) := by
  obtain ⟨d, so, entry, hreached, hso, hentry, -⟩ := tail_queued 0
  exact ⟨d, so, entry, hso, hentry, reply_within_iff hreached hso hentry⟩

/-- 1822 fragments of at most 68 bytes make a reply larger than a message. -/
theorem fillers_overflow :
    ∃ d so entry, started.ReachableUnder RxArrives (.running d) ∧
      (d.udpSlot 0).socket = some so ∧ entry ∈ so.recvQ ∧ ¬ ReplyWithin false entry := by
  obtain ⟨d, so, entry, hreached, hso, hentry, hqueued⟩ := tail_queued 1819
  refine ⟨d, so, entry, hreached, hso, hentry, ?_⟩
  rw [replyWithin_queued_iff hqueued, FitsMessage, carried_sample]
  intro hfits
  refine absurd (hfits ?_) (by decide)
  rintro first ⟨⟩
  decide

end MuQuinet.ReplyOverflow
