import MuQuinet.BufferAccounts
import MuQuinet.DevicePackets
import MuQuinet.ReceiveQueue

namespace MuQuinet.Network

open MuQuinet.Lib.Machines
open MuQuinet.Lib.Populations.Population (getD_set_cases)
open MuQuinet.Lib.Words
open MuQuinet.BufferAccounts
open MuQuinet.Buffers
open MuQuinet.ChannelSockets
open MuQuinet.AddressLeak (sampleStart)
open MuQuinet.DaemonSurvival (connected reachable_of_started sampleRead started)
open MuQuinet.DevicePackets
open MuQuinet.IpHeaders
open MuQuinet.IpLayer
open MuQuinet.OutgoingPackets
open MuQuinet.PacketBounds
open MuQuinet.Pcbs
open MuQuinet.ReceiveQueue (isRx)
open MuQuinet.ReplyOverflow
open MuQuinet.ReplyShape (next_effect)
open MuQuinet.RequestHandler
open MuQuinet.Rpc
open MuQuinet.Sockets
open MuQuinet.TcpLayer
open MuQuinet.UdpLayer
open MuQuinet.Wire

/-- What one `read` returns of a packet that arrives. -/
def arrived (bytes : List UInt8) : SocketBuffer :=
  tunDeviceRx (bytes.take maxRawBytesSize)

/-- On a host the event loop does something, or a packet arrives that some host has written.
The network may lose, repeat and reorder packets, and take them anywhere. -/
inductive Label (ι : Type)
  | eventLoop (host : ι) (a : DaemonSurvival.Label)
  | deliver (source host : ι) (k : Nat) (uninit : SockaddrIn)

/-- The packets in the queues of the UDP sockets are in `Q`, those in the queues of the TCP
sockets in `Q'`. -/
structure SocketQueues (Q Q' : List SocketBuffer → Prop) (d : Daemon) : Prop where
  udp : ∀ i, SlotQueue Q (d.udpSlot i)
  tcp : ∀ i, SlotQueue Q' (d.tcpSlot i)

section Arrivals

variable {addr : UInt32} {requests : List Calling} {k : Nat} {bytes : List UInt8}

theorem byteAt_take {n i : Nat} (h : i < n) (bytes : List UInt8) :
    byteAt (bytes.take n) i = byteAt bytes i := by
  simp only [byteAt, List.getD_eq_getElem?_getD, List.getElem?_take_of_lt h]

theorem load16_take {n i : Nat} (h : i + 1 < n) (bytes : List UInt8) :
    load16 (bytes.take n) i = load16 bytes i := by
  simp (disch := omega) only [load16, byteAt_take]

/-- The IP header is read whole. -/
theorem iphdr_arrived (bytes : List UInt8) : iphdr (arrived bytes) = IpHeader.at bytes 0 := by
  have hbyte : ∀ i, i < 1518 → byteAt (bytes.take maxRawBytesSize) i = byteAt bytes i :=
    fun i hi => byteAt_take hi bytes
  have hprotocol : (bytes.take maxRawBytesSize).getD 9 0 = bytes.getD 9 0 := by
    simp only [List.getD_eq_getElem?_getD, maxRawBytesSize]
    rw [List.getElem?_take_of_lt (by decide)]
  change IpHeader.at (bytes.take maxRawBytesSize) 0 = _
  simp (disch := decide) only [IpHeader.at, load16, load32, hbyte, hprotocol, Nat.zero_add]

theorem passedOn_arrived (h : OnDevice addr requests k bytes) :
    PassedOn (bytes.take maxRawBytesSize) := by
  have hlength : 28 ≤ bytes.length := by
    rcases h.carries with ⟨-, hlength, -⟩ | ⟨-, hlength, -⟩
    · exact hlength
    · exact Nat.le_trans (by decide) hlength
  have hiphdr := iphdr_arrived bytes
  rw [arrived] at hiphdr
  constructor
  · rw [hiphdr]
    exact h.header.version_eq
  · rw [List.length_take, maxRawBytesSize]
    omega
  · rw [List.length_take]
    exact Nat.min_le_left _ _
  · have hzero : (be16ToCpu 0).toNat = 0 := by
      decide
    simp [isFrag, hostOff, moreFrag, hiphdr, h.header.fragOff_eq, hzero]

theorem rx_arrived (h : OnDevice addr requests k bytes) (st : Stack) (uninit : SockaddrIn) :
    rx st uninit (arrived bytes) =
      demultiplex st uninit (IpHeader.at bytes 0) (arrived bytes) [] := by
  rw [arrived, rx_eq_demultiplex (passedOn_arrived h), ← iphdr_arrived]
  rfl

/-- What is read of a packet whose payload starts at some place is that payload, cut off at
the size of a buffer. -/
theorem collect_arrived {skbuf : SocketBuffer} {n : Nat}
    (hraw : skbuf.rawBytes = bytes.take maxRawBytesSize)
    (hend : skbuf.payloadEnd = (bytes.take maxRawBytesSize).length)
    (hbegin : skbuf.payloadBegin = n) (hlength : n ≤ bytes.length) (hn : n ≤ maxRawBytesSize) :
    collect [skbuf] = some ((bytes.drop n).take (maxRawBytesSize - n)) := by
  rw [collect_cons_eq_some]
  refine ⟨?_, [], rfl, ?_⟩
  · rw [hbegin, hend, List.length_take]
    omega
  · rw [SocketBuffer.payload, hraw, hbegin, hend, List.append_nil, slice, ← List.length_drop,
      List.take_length, List.drop_take]

theorem collect_udp (h : 28 ≤ bytes.length) :
    collect [UdpPcb.locatePayload (locateTransport 5 (arrived bytes))] =
      some ((bytes.drop 28).take 1490) :=
  collect_arrived (n := 28) rfl rfl rfl h (by decide)

theorem collect_tcp (h : 40 ≤ bytes.length) (hdoff : (TcpHeader.at bytes 20).doff = 5) :
    collect [TcpPcb.locatePayload (locateTransport 5 (arrived bytes))] =
      some ((bytes.drop 40).take 1478) := by
  refine collect_arrived rfl rfl ?_ h (by decide)
  have hbyte : byteAt (bytes.take maxRawBytesSize) 32 = byteAt bytes 32 :=
    byteAt_take (by decide) bytes
  change 20 + byteAt (bytes.take maxRawBytesSize) 32 / 16 * 4 = 40
  replace hdoff : byteAt bytes 32 / 16 = 5 := hdoff
  rw [hbyte, hdoff]

theorem udphdr_arrived (bytes : List UInt8) :
    (udphdr (UdpPcb.locatePayload (locateTransport 5 (arrived bytes)))).dest = load16 bytes 22 :=
  load16_take (i := 22) (by decide) bytes

end Arrivals

section Queues

variable {Q Q' : List SocketBuffer → Prop} {d d' : Daemon}

theorem SocketQueues.mono {R R' : List SocketBuffer → Prop} (h : SocketQueues Q Q' d)
    (hQ : ∀ chain, Q chain → R chain) (hQ' : ∀ chain, Q' chain → R' chain) :
    SocketQueues R R' d :=
  ⟨fun i so hso entry hentry => hQ _ (h.udp i so hso entry hentry),
    fun i so hso entry hentry => hQ' _ (h.tcp i so hso entry hentry)⟩

theorem SocketQueues.effects {ch : Nat} {calling : Calling} {resp : Response}
    (h : SocketQueues Q Q' d) (heffects : HandlerEffects.Effects d d' ch calling resp) :
    SocketQueues Q Q' d' :=
  ⟨fun i => (h.udp i).effect (heffects.udp i), fun i => (h.tcp i).effect (heffects.tcp i)⟩

theorem slotQueue_tcp_recv {slot : Slot TcpPcb} (h : SlotQueue Q slot) (pcb : TcpPcb)
    (peerAddr : SockaddrIn) {skbuf : SocketBuffer} {next : List SocketBuffer}
    (hQ : Q (TcpPcb.locatePayload skbuf :: next)) :
    SlotQueue Q (TcpPcb.recv slot pcb peerAddr skbuf next).1 := by
  have hdelivered := h.deliver peerAddr hQ
  unfold TcpPcb.recv
  split
  · exact h
  · dsimp only
    split
    · split
      · exact hdelivered
      · exact hdelivered
    · exact h
  · exact h

theorem SocketQueues.setSocketAt (h : SocketQueues Q Q' d) {ref : SocketRef} {so so' : Socket}
    (hso : d.socketAt ref = some so) (hsubset : so'.recvQ ⊆ so.recvQ) :
    SocketQueues Q Q' (d.setSocketAt ref so') := by
  rcases ref with ⟨_ | _, index⟩
  · refine ⟨SlotQueue.set h.udp index ?_, h.tcp⟩
    rintro _ ⟨⟩ entry hentry
    exact h.udp index so hso entry (hsubset hentry)
  · refine ⟨h.udp, SlotQueue.set h.tcp index ?_⟩
    rintro _ ⟨⟩ entry hentry
    exact h.tcp index so hso entry (hsubset hentry)

theorem SocketQueues.eventLoop {a : DaemonSurvival.Label} (h : SocketQueues Q Q' d)
    (hconn : Connected d) (hrx : isRx a = false)
    (hnext : DaemonSurvival.next (.running d) a = some (.running d')) :
    SocketQueues Q Q' d' := by
  cases next_effect hconn hnext with
  | request heffects => exact h.effects heffects
  | release ch heffects => exact h.effects (heffects (retOk (.closeCall 0 none)))
  | rx => cases hrx
  | notified hso hrun hd' =>
      rw [hd']
      exact h.setSocketAt hso (sChannelReadCb_recvQ_subset hrun)

/-- A packet is put into the queue of a socket of its protocol, if into any. -/
theorem SocketQueues.demultiplex {uninit : SockaddrIn} {hdr : IpHeader} {skbuf : SocketBuffer}
    {next : List SocketBuffer} (h : SocketQueues Q Q' d)
    (hudp : hdr.protocol = 17 → Q (UdpPcb.locatePayload (locateTransport hdr.ihl skbuf) :: next))
    (htcp : hdr.protocol = 6 → Q' (TcpPcb.locatePayload (locateTransport hdr.ihl skbuf) :: next)) :
    SocketQueues Q Q'
      { d with stack := (IpLayer.demultiplex d.stack uninit hdr skbuf next).1 } := by
  unfold IpLayer.demultiplex
  dsimp only
  split
  · rename_i hprotocol
    refine ⟨?_, h.tcp⟩
    unfold Daemon.udpSlot Udp.rx
    dsimp only
    split
    · exact h.udp
    · rename_i i _
      exact SlotQueue.set h.udp i ((h.udp i).deliver _ (hudp (protoxmap_eq_udp_iff.mp hprotocol)))
  · rename_i hprotocol
    refine ⟨h.udp, ?_⟩
    unfold Daemon.tcpSlot Tcp.rx
    dsimp only
    split
    · exact h.tcp
    · rename_i i _
      split
      · exact h.tcp
      · exact SlotQueue.set h.tcp i
          (slotQueue_tcp_recv (h.tcp i) _ _ (htcp (protoxmap_eq_tcp_iff.mp hprotocol)))
  · exact ⟨h.udp, h.tcp⟩

theorem SocketQueues.arrived {hostAddr : UInt32} {requests : List Calling} {k : Nat}
    {bytes : List UInt8} (h : SocketQueues Q Q' d) (hdevice : OnDevice hostAddr requests k bytes)
    (uninit : SockaddrIn)
    (hudp : (IpHeader.at bytes 0).protocol = 17 →
      Q [UdpPcb.locatePayload (locateTransport 5 (Network.arrived bytes))])
    (htcp : (IpHeader.at bytes 0).protocol = 6 →
      Q' [TcpPcb.locatePayload (locateTransport 5 (Network.arrived bytes))]) :
    SocketQueues Q Q' { d with stack := (rx d.stack uninit (Network.arrived bytes)).1 } := by
  rw [rx_arrived hdevice]
  apply h.demultiplex
  · rw [hdevice.header.ihl_eq]
    exact hudp
  · rw [hdevice.header.ihl_eq]
    exact htcp

end Queues

variable {ι : Type}

/-- A packet that some host has written waits on a socket of its protocol. -/
def FromNetwork (s : ι → State) (number : UInt8) (locatePayload : SocketBuffer → SocketBuffer)
    (chain : List SocketBuffer) : Prop :=
  ∃ source, ∃ bytes ∈ (s source).written, (IpHeader.at bytes 0).protocol = number ∧
    chain = [locatePayload (locateTransport 5 (arrived bytes))]

structure HostInvariant (addr : ι → UInt32) (s : ι → State) (host : ι) : Prop where
  device : DevicePackets.Invariant (addr host) (s host)
  queues : ∀ d, (s host).daemon = .running d →
    SocketQueues (FromNetwork s 17 UdpPcb.locatePayload) (FromNetwork s 6 TcpPcb.locatePayload) d

theorem FromNetwork.mono {s t : ι → State} (h : ∀ host, (s host).written ⊆ (t host).written)
    {number : UInt8} {locatePayload : SocketBuffer → SocketBuffer} {chain : List SocketBuffer}
    (hchain : FromNetwork s number locatePayload chain) :
    FromNetwork t number locatePayload chain := by
  obtain ⟨source, bytes, hmem, hrest⟩ := hchain
  exact ⟨source, bytes, h source hmem, hrest⟩

section Sources

variable {addr : ι → UInt32} {s : ι → State}

theorem HostInvariant.onDevice {host : ι} (h : HostInvariant addr s host) {bytes : List UInt8}
    (hmem : bytes ∈ (s host).written) :
    ∃ k, OnDevice (addr host) (s host).requests k bytes := by
  obtain ⟨k, hget⟩ := List.getElem?_of_mem hmem
  exact ⟨k, h.device.written k bytes hget⟩

/-- What is collected of a datagram that waits on a socket. -/
theorem collect_fromUdp (h : ∀ host, HostInvariant addr s host) {source : ι} {bytes : List UInt8}
    (hmem : bytes ∈ (s source).written) (hprotocol : (IpHeader.at bytes 0).protocol = 17) :
    ∃ offered, IsOffered (s source).requests offered ∧
      collect [UdpPcb.locatePayload (locateTransport 5 (arrived bytes))] =
        some (offered.take 1490) := by
  obtain ⟨k, hdevice⟩ := (h source).onDevice hmem
  rcases hdevice.carries with ⟨-, hlength, hoffered⟩ | ⟨htcp, -⟩
  · exact ⟨bytes.drop 28, hoffered, collect_udp hlength⟩
  · rw [hprotocol] at htcp
    exact absurd htcp (by decide)

/-- What is collected of a segment that waits on a socket; it may be empty. -/
theorem collect_fromTcp (h : ∀ host, HostInvariant addr s host) {source : ι} {bytes : List UInt8}
    (hmem : bytes ∈ (s source).written) (hprotocol : (IpHeader.at bytes 0).protocol = 6) :
    ∃ offered, (offered = [] ∨ IsOffered (s source).requests offered) ∧
      collect [TcpPcb.locatePayload (locateTransport 5 (arrived bytes))] =
        some (offered.take 1478) := by
  obtain ⟨k, hdevice⟩ := (h source).onDevice hmem
  rcases hdevice.carries with ⟨hudp, -⟩ | ⟨-, hlength, hdoff, hoffered⟩
  · rw [hprotocol] at hudp
    exact absurd hudp (by decide)
  · exact ⟨bytes.drop 40, hoffered, collect_tcp hlength hdoff⟩

end Sources

section Runs

variable [DecidableEq ι] {addr : ι → UInt32} {s t : ι → State}

def next (s : ι → State) : Label ι → Option (ι → State)
  | .eventLoop host a =>
      if isRx a then none else (DevicePackets.next (s host) a).map (Function.update s host)
  | .deliver source host k uninit => do
      let bytes ← (s source).written[k]?
      (DevicePackets.next (s host) (.rx uninit (arrived bytes))).map (Function.update s host)

/-- Hosts with their addresses, each with a daemon that starts. -/
def machine (addr : ι → UInt32) : Machine (ι → State) (Label ι) where
  initial s := ∀ host, (DevicePackets.machine (addr host)).initial (s host)
  next := next

theorem hostInvariant_initial (h : (machine addr).initial s) (host : ι) :
    HostInvariant addr s host := by
  refine ⟨DevicePackets.invariant_initial (h host), ?_⟩
  intro d hd
  obtain ⟨⟨d', hd', -, hinitial⟩, -⟩ := h host
  rw [hd] at hinitial
  obtain ⟨_, ⟨⟩, -, hudp, htcp, -⟩ := hinitial
  constructor
  · intro i so hso
    rw [Daemon.udpSlot, hudp] at hso
    cases hso
  · intro i so hso
    rw [Daemon.tcpSlot, htcp] at hso
    cases hso

theorem written_next {host host' : State} {a : DaemonSurvival.Label}
    (h : DevicePackets.next host a = some host') : host.written ⊆ host'.written := by
  obtain ⟨daemon, -, rfl⟩ := Option.map_eq_some_iff.mp h
  exact List.subset_append_left _ _

/-- A step of one host leaves the others alone, and the packets that were written. -/
theorem hostInvariant_update {host : ι} {host' : State} {a : DaemonSurvival.Label}
    (h : ∀ host, HostInvariant addr s host) (hnext : DevicePackets.next (s host) a = some host')
    (hqueues : ∀ d', host'.daemon = .running d' →
      SocketQueues (FromNetwork s 17 UdpPcb.locatePayload)
        (FromNetwork s 6 TcpPcb.locatePayload) d') (other : ι) :
    HostInvariant addr (Function.update s host host') other := by
  have hwritten : ∀ other, (s other).written ⊆ (Function.update s host host' other).written := by
    intro other
    rcases eq_or_ne other host with rfl | hne
    · rw [Function.update_self]
      exact written_next hnext
    · rw [Function.update_of_ne hne]
      exact List.Subset.refl _
  rcases eq_or_ne other host with rfl | hne
  · refine ⟨?_, ?_⟩
    · rw [Function.update_self]
      exact DevicePackets.invariant_step (h other).device hnext
    · intro d' hd'
      rw [Function.update_self] at hd'
      exact (hqueues d' hd').mono (fun _ => .mono hwritten) fun _ => .mono hwritten
  · refine ⟨?_, ?_⟩
    · rw [Function.update_of_ne hne]
      exact (h other).device
    · intro d hd
      rw [Function.update_of_ne hne] at hd
      exact ((h other).queues d hd).mono (fun _ => .mono hwritten) fun _ => .mono hwritten

theorem hostInvariant_next {a : Label ι} (h : ∀ host, HostInvariant addr s host)
    (hnext : next s a = some t) (other : ι) : HostInvariant addr t other := by
  cases a with
  | eventLoop host a =>
      simp only [next] at hnext
      split at hnext
      · cases hnext
      · rename_i hrx
        obtain ⟨host', hhost, rfl⟩ := Option.map_eq_some_iff.mp hnext
        refine hostInvariant_update h hhost ?_ other
        intro d' hd'
        obtain ⟨daemon, hdaemon, rfl⟩ := Option.map_eq_some_iff.mp hhost
        obtain rfl : daemon = .running d' := hd'
        rcases hd : (s host).daemon with d | fault
        · have hreached := (h host).device.reachable
          rw [hd] at hdaemon hreached
          have hconn := connected (reachable_of_started hreached) d rfl
          exact ((h host).queues d hd).eventLoop hconn (Bool.eq_false_iff.mpr hrx) hdaemon
        · rw [hd] at hdaemon
          cases hdaemon
  | deliver source host k uninit =>
      simp only [next, Option.bind_eq_bind, Option.bind_eq_some_iff] at hnext
      obtain ⟨bytes, hbytes, hnext⟩ := hnext
      obtain ⟨host', hhost, rfl⟩ := Option.map_eq_some_iff.mp hnext
      refine hostInvariant_update h hhost ?_ other
      intro d' hd'
      obtain ⟨daemon, hdaemon, rfl⟩ := Option.map_eq_some_iff.mp hhost
      obtain rfl : daemon = .running d' := hd'
      have hmem := List.mem_of_getElem? hbytes
      rcases hd : (s host).daemon with d | fault
      · rw [hd] at hdaemon
        cases hdaemon
        exact ((h host).queues d hd).arrived ((h source).device.written k bytes hbytes) uninit
          (fun hudp => ⟨source, bytes, hmem, hudp, rfl⟩)
          fun htcp => ⟨source, bytes, hmem, htcp, rfl⟩
      · rw [hd] at hdaemon
        cases hdaemon

theorem hostInvariant (h : (machine addr).Reachable s) : ∀ host, HostInvariant addr s host := by
  refine h.invariant (I := fun s => ∀ host, HostInvariant addr s host) ?_ ?_
  · intro s hs
    exact hostInvariant_initial hs
  · intro s a t hs _ hnext
    exact hostInvariant_next hs hnext

def sampleLocal (host : Bool) : UInt32 :=
  if host then 0x0300000a else 0x0200000a

def sampleHosts (host : Bool) : State :=
  { daemon := .running { sampleStart with stackAddr := sampleLocal host }
    idgenerator := { last := 0 }
    written := []
    requests := [] }

/-- A socket on one host gets its port, and a client on the other host sends to it. -/
def sampleTalk : List (Label Bool) :=
  [.eventLoop true .accept, .eventLoop true (sampleRead (.socketCall 2 2 0)),
    .eventLoop true (sampleRead (.sendtoCall [1] 0 (some ReplyShape.sampleAddr))),
    .eventLoop false .accept, .eventLoop false (sampleRead (.socketCall 2 2 0)),
    .eventLoop false (sampleRead
      (.sendtoCall [5, 6] 0 (some [2, 0, 4, 1, 10, 0, 0, 3, 0, 0, 0, 0, 0, 0, 0, 0]))),
    .deliver false true 0 .zero]

theorem sampleHosts_reachable : (machine sampleLocal).Reachable sampleHosts :=
  .initial fun _ => ⟨⟨_, rfl, rfl, _, rfl, rfl, rfl, rfl, rfl⟩, rfl, rfl, rfl⟩

/-- What a client receives on any host is the beginning of what a client of some host has given
to be sent, whatever the network does with the packets: it is made up nowhere and joined from
no two. -/
theorem received_was_sent (h : (machine addr).Reachable s) {host : ι} {a : DaemonSurvival.Label}
    {resp : Response} {ret : Int32} {errno : Option Int32} {buf : List UInt8}
    {peer : Option (List UInt8)} (hanswer : answer (s host).daemon a = some resp)
    (hresp : resp.returning = some (.recvfromCall ret errno (some buf) peer)) (hbuf : buf ≠ []) :
    ∃ source offered, IsOffered (s source).requests offered ∧ buf <+: offered := by
  have hinvariant := hostInvariant h
  rcases hd : (s host).daemon with d | fault
  · rw [hd] at hanswer
    have hanswered := answer_answered hanswer hresp
    have hcollect := hanswered.collects hresp
    obtain ⟨⟨type, i⟩, so, entry, rest, -, hso, hqueue, hchain, -⟩ := hanswered
    have hentry : entry ∈ so.recvQ := by
      rw [hqueue]
      exact List.mem_cons_self
    rw [hchain] at hcollect
    cases type with
    | UDP =>
        obtain ⟨source, bytes, hmem, hprotocol, hbytes⟩ :=
          ((hinvariant host).queues d hd).udp i so hso entry hentry
        obtain ⟨offered, hoffered, heq⟩ := collect_fromUdp hinvariant hmem hprotocol
        rw [hbytes, heq] at hcollect
        obtain rfl := Option.some.inj hcollect
        exact ⟨source, offered, hoffered, List.take_prefix _ _⟩
    | TCP =>
        obtain ⟨source, bytes, hmem, hprotocol, hbytes⟩ :=
          ((hinvariant host).queues d hd).tcp i so hso entry hentry
        obtain ⟨offered, hempty | hoffered, heq⟩ := collect_fromTcp hinvariant hmem hprotocol
        · rw [hbytes, heq, hempty] at hcollect
          exact absurd (Option.some.inj hcollect).symm hbuf
        · rw [hbytes, heq] at hcollect
          obtain rfl := Option.some.inj hcollect
          exact ⟨source, offered, hoffered, List.take_prefix _ _⟩
  · rw [hd] at hanswer
    cases a <;> cases hanswer

theorem received_was_sent_sample :
    ∃ s resp, (machine sampleLocal).exec sampleHosts sampleTalk = some s ∧
      answer (s true).daemon (sampleRead (.recvfromCall 16 0 false)) = some resp ∧
      resp.returning = some (.recvfromCall 2 none (some [5, 6]) none) ∧
      ∃ source offered, IsOffered (s source).requests offered ∧ [5, 6] <+: offered := by
  obtain ⟨s, resp, hexec, hanswer, hresp⟩ : ∃ s resp,
      (machine sampleLocal).exec sampleHosts sampleTalk = some s ∧
        answer (s true).daemon (sampleRead (.recvfromCall 16 0 false)) = some resp ∧
          resp.returning = some (.recvfromCall 2 none (some [5, 6]) none) :=
    ⟨_, _, rfl, rfl, rfl⟩
  have hsent := received_was_sent (Machine.reachable_of_exec sampleHosts_reachable hexec) hanswer
    hresp (List.cons_ne_nil 5 [6])
  exact ⟨s, resp, hexec, hanswer, hresp, hsent⟩

/-- A datagram was offered by a client of the host that has the address it comes from, and
there some client has named the host and the port it has come to, which is the socket's own
or port 0. -/
structure Attributed (addr : ι → UInt32) (s : ι → State) (host : ι) (pcb : Pcb)
    (entry : SockaddrIn × List SocketBuffer) (source : ι) (offered : List UInt8) : Prop where
  isOffered : IsOffered (s source).requests offered
  payload : collect entry.2 = some (offered.take 1490)
  sinAddr_eq : entry.1.sinAddr = addr source
  named : ∃ dest ∈ namedBy (s source).requests, dest.sinAddr = addr host ∧
    (dest.sinPort = pcb.lport ∨ dest.sinPort = 0)

/-- Whatever the network does, what waits on a UDP socket is known to come from the host where
it was offered, and has come to where a client there has named. -/
theorem datagrams_attributed (h : (machine addr).Reachable s) {host : ι}
    (haddr : addr host ≠ 0) {d : Daemon} (hd : (s host).daemon = .running d) {i : Nat}
    {so : Socket} (hso : (d.udpSlot i).socket = some so) :
    ∃ pcb, (d.udpSlot i).pcb = some pcb ∧ ∀ entry ∈ so.recvQ,
      ∃ source offered, Attributed addr s host pcb entry source offered := by
  have hinvariant := hostInvariant h
  have hreached := (hinvariant host).device.reachable
  rw [hd] at hreached
  obtain ⟨e, hslot, rfl, hendpoint⟩ := SocketLives.endpoint_of_socket hreached hso
  rw [hslot]
  refine ⟨e.pcb, rfl, ?_⟩
  intro entry hentry
  obtain ⟨source, bytes, hmem, hprotocol, hchain⟩ :=
    ((hinvariant host).queues d hd).udp i e.so hso entry hentry
  obtain ⟨offered, hoffered, hcollect⟩ := collect_fromUdp hinvariant hmem hprotocol
  obtain ⟨k, hdevice⟩ := (hinvariant source).onDevice hmem
  obtain ⟨skbuf, next, hqueue, haddressed⟩ := hendpoint.queue entry hentry
  rw [hchain] at hqueue
  obtain ⟨hlocated, -⟩ := List.cons.inj hqueue
  have hiphdr : IpHeader.at bytes 0 = iphdr skbuf := by
    have hlocatedHdr := congrArg iphdr hlocated
    rw [← iphdr_arrived]
    exact hlocatedHdr
  have hdest : load16 bytes 22 = (udphdr skbuf).dest := by
    rw [← udphdr_arrived, hlocated]
    rfl
  refine ⟨source, offered, hoffered, ?_, ?_, ?_⟩
  · rw [hchain]
    exact hcollect
  · rw [haddressed.addr_eq, ← hiphdr]
    exact hdevice.header.saddr_eq
  · have hlocal := (hinvariant host).device.located d hd
    have hladdr : e.pcb.laddr = addr host := hendpoint.laddr_eq.trans hlocal.1
    have hnonzero : e.pcb.laddr ≠ 0 := fun hzero => haddr (hladdr.symm.trans hzero)
    have hdaddr : (iphdr skbuf).daddr = addr host := (haddressed.daddr_eq hnonzero).trans hladdr
    have hnamed := hdevice.dest
    rw [GoesToNamed, hiphdr, hdaddr, hdest] at hnamed
    rcases hnamed with ⟨hzero, -⟩ | ⟨dest, hdestMem, haddrEq, hportEq⟩
    · exact absurd hzero haddr
    · refine ⟨dest, hdestMem, haddrEq.symm, ?_⟩
      rw [← hportEq]
      exact haddressed.dest_eq

theorem datagrams_attributed_sample :
    ∃ s d so, (machine sampleLocal).exec sampleHosts sampleTalk = some s ∧
      (s true).daemon = .running d ∧ (d.udpSlot 0).socket = some so ∧ so.recvQ.length = 1 ∧
      ∃ pcb, (d.udpSlot 0).pcb = some pcb ∧ ∀ entry ∈ so.recvQ,
        ∃ source offered, Attributed sampleLocal s true pcb entry source offered := by
  obtain ⟨s, d, so, hexec, hd, hso, hlength⟩ : ∃ s d so,
      (machine sampleLocal).exec sampleHosts sampleTalk = some s ∧
        (s true).daemon = .running d ∧ (d.udpSlot 0).socket = some so ∧ so.recvQ.length = 1 :=
    ⟨_, _, _, rfl, rfl, rfl, rfl⟩
  have hattributed := datagrams_attributed
    (Machine.reachable_of_exec sampleHosts_reachable hexec) (by decide) hd hso
  exact ⟨s, d, so, hexec, hd, hso, hlength, hattributed⟩

end Runs

end MuQuinet.Network
