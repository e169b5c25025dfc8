import MuQuinet.OutgoingPackets

namespace MuQuinet.DevicePackets

open MuQuinet.Lib.Machines
open MuQuinet.Lib.Words
open MuQuinet.DaemonSurvival
open MuQuinet.EmittedHeaders
open MuQuinet.IpHeaders
open MuQuinet.OutgoingPackets
open MuQuinet.PeerlessSends
open MuQuinet.Rpc
open MuQuinet.Sockets
open MuQuinet.Transmit
open MuQuinet.Wire
open MuQuinet.WireRoundTrip (tcpHeader_at)

/-- `Ip::tx` of a packet of either protocol, with the bytes that reach the device. -/
def txPacket (gen : IpIdGenerator) : Packet → IpIdGenerator × List UInt8
  | .udp datagram => txUdp gen datagram
  | .tcp segment => txTcp gen segment

def txAll : IpIdGenerator → List Packet → IpIdGenerator × List (List UInt8)
  | gen, [] => (gen, [])
  | gen, packet :: rest =>
      let (gen, written) := txPacket gen packet
      let (gen, others) := txAll gen rest
      (gen, written :: others)

/-- The daemon with what it has written to the device, and what its clients have requested. -/
structure State where
  daemon : DaemonSurvival.State
  idgenerator : IpIdGenerator
  written : List (List UInt8)
  requests : List Calling

def next (s : State) (a : Label) : Option State :=
  (DaemonSurvival.next s.daemon a).map fun daemon =>
    let (idgenerator, written) := txAll s.idgenerator (sentBy s.daemon a)
    { daemon := daemon
      idgenerator := idgenerator
      written := s.written ++ written
      requests := s.requests ++ requestedBy a }

def machine (stackAddr : UInt32) : Machine State Label where
  initial s := (∃ d, s.daemon = .running d ∧ d.stackAddr = stackAddr ∧
    started.initial s.daemon) ∧ s.idgenerator = { last := 0 } ∧ s.written = [] ∧ s.requests = []
  next := next

/-- A packet on the device has a header of its own stack that verifies. -/
structure HeaderVerifies (stackAddr : UInt32) (bytes : List UInt8) : Prop where
  version_eq : (IpHeader.at bytes 0).version = 4
  ihl_eq : (IpHeader.at bytes 0).ihl = 5
  fragOff_eq : (IpHeader.at bytes 0).fragOff = 0
  saddr_eq : (IpHeader.at bytes 0).saddr = stackAddr
  sum_eq : networkSum (bytes.take 20) = 0xffff

/-- The identification of a packet, in host byte order. -/
def identification (bytes : List UInt8) : Nat :=
  (be16ToCpu (IpHeader.at bytes 0).id).toNat

/-- The destination address and port of a packet are ones that a client has named. -/
def GoesToNamed (named : List SockaddrIn) (bytes : List UInt8) : Prop :=
  IsNamed named (IpHeader.at bytes 0).daddr (load16 bytes 22)

/-- What a packet carries behind its headers, a client has given to a `sendto`; a segment
may carry nothing. -/
def CarriesOffered (requests : List Calling) (bytes : List UInt8) : Prop :=
  (IpHeader.at bytes 0).protocol = 17 ∧ 28 ≤ bytes.length ∧
      IsOffered requests (bytes.drop 28) ∨
    (IpHeader.at bytes 0).protocol = 6 ∧ 40 ≤ bytes.length ∧ (TcpHeader.at bytes 20).doff = 5 ∧
      (bytes.drop 40 = [] ∨ IsOffered requests (bytes.drop 40))

structure OnDevice (stackAddr : UInt32) (requests : List Calling) (k : Nat)
    (bytes : List UInt8) : Prop where
  header : HeaderVerifies stackAddr bytes
  id_eq : identification bytes = k % 65535 + 1
  dest : GoesToNamed (namedBy requests) bytes
  carries : CarriesOffered requests bytes

section Device

variable {stackAddr : UInt32} {requests : List Calling}

/-- What a packet carries behind the IP header. -/
def transportBytes : Packet → List UInt8
  | .udp datagram => datagram.hdr.bytes ++ datagram.buf
  | .tcp segment => segment.hdr.bytes ++ segment.buf

def headerCheck (id : UInt16) (ipovly : IpHeaderOverlay) : UInt16 :=
  (checksum (ipHeader id ipovly.protocolLen ipovly) 0).toUInt16

theorem txPacket_eq (gen : IpIdGenerator) (packet : Packet) :
    txPacket gen packet =
      (gen.next.1, ipHeader gen.next.2 (headerCheck gen.next.2 (ipovly packet)) (ipovly packet) ++
        transportBytes packet) := by
  cases packet with
  | udp datagram => exact Prod.ext rfl (tx_eq gen datagram.ipovly datagram.hdr.bytes datagram.buf)
  | tcp segment => exact Prod.ext rfl (tx_eq gen segment.ipovly segment.hdr.bytes segment.buf)

theorem load16_transportBytes (packet : Packet) :
    load16 (transportBytes packet) 2 = dest packet := by
  cases packet with
  | udp datagram =>
      simp only [transportBytes, UdpHeader.bytes, List.append_assoc]
      exact load16_bytesLE (bytesLE 2 datagram.hdr.source.toNat) datagram.hdr.dest _
  | tcp segment =>
      simp only [transportBytes, TcpHeader.bytes, List.append_assoc]
      exact load16_bytesLE (bytesLE 2 segment.hdr.source.toNat) segment.hdr.dest _

theorem carries_transportBytes {header : List UInt8} (hlength : header.length = 20)
    {packet : Packet} {number : UInt8} (hprotocol : number = protocol packet)
    (hdoff : ∀ segment, packet = .tcp segment → segment.hdr.doff = 5)
    (hoffered : Offered requests packet) :
    number = 17 ∧ 28 ≤ (header ++ transportBytes packet).length ∧
        IsOffered requests ((header ++ transportBytes packet).drop 28) ∨
      number = 6 ∧ 40 ≤ (header ++ transportBytes packet).length ∧
        (TcpHeader.at (header ++ transportBytes packet) 20).doff = 5 ∧
        ((header ++ transportBytes packet).drop 40 = [] ∨
          IsOffered requests ((header ++ transportBytes packet).drop 40)) := by
  cases packet with
  | udp datagram =>
      left
      have hheaders : (header ++ datagram.hdr.bytes).length = 28 := by
        rw [List.length_append, hlength, UdpHeader.length_bytes]
      rw [transportBytes, ← List.append_assoc, List.drop_left' hheaders, List.length_append,
        hheaders]
      exact ⟨hprotocol, Nat.le_add_right _ _, hoffered⟩
  | tcp segment =>
      right
      have hheaders : (header ++ segment.hdr.bytes).length = 40 := by
        rw [List.length_append, hlength, TcpHeader.length_bytes]
      have hfive : segment.hdr.doff = 5 := hdoff segment rfl
      have hat := tcpHeader_at header (hfive.trans_lt (by decide)) segment.buf
      rw [hlength] at hat
      rw [transportBytes, hat, ← List.append_assoc, List.drop_left' hheaders, List.length_append,
        hheaders]
      exact ⟨hprotocol, Nat.le_add_right _ _, hfive, hoffered⟩

/-- What the generator was left with after `n` calls. -/
def lastAfter : Nat → Nat
  | 0 => 0
  | n + 1 => n % 65535 + 1

theorem toNat_last_next {gen : IpIdGenerator} {n : Nat} (h : gen.last.toNat = lastAfter n) :
    gen.next.1.last.toNat = lastAfter (n + 1) := by
  have hlast : gen.last = 65535 ↔ gen.last.toNat = 65535 := by
    rw [← UInt16.toNat_inj]
    rfl
  simp only [IpIdGenerator.next, UInt16.toNat_add]
  split
  · rename_i hwrap
    rw [hlast, h] at hwrap
    cases n with
    | zero => cases hwrap
    | succ n =>
        simp only [lastAfter] at hwrap ⊢
        simp only [UInt16.toNat_zero, UInt16.toNat_one]
        omega
  · rename_i hwrap
    rw [hlast, h] at hwrap
    rw [h]
    cases n with
    | zero => rfl
    | succ n =>
        simp only [lastAfter] at hwrap ⊢
        simp only [UInt16.toNat_one]
        omega

theorem onDevice_txPacket {gen : IpIdGenerator} {k : Nat} (hlast : gen.last.toNat = lastAfter k)
    {packet : Packet} (hrouted : Routed stackAddr (namedBy requests) packet)
    (hoffered : Offered requests packet) :
    OnDevice stackAddr requests k (txPacket gen packet).2 := by
  obtain ⟨hsaddr, hdest, hcleared, hprotocol, hdoff⟩ := hrouted
  rw [txPacket_eq]
  dsimp only
  have hsum := networkSum_ipHeader gen.next.2 hcleared
  have hat := at_ipHeader gen.next.2 (headerCheck gen.next.2 (ipovly packet)) (ipovly packet)
    (transportBytes packet)
  refine ⟨⟨?_, ?_, ?_, ?_, ?_⟩, ?_, ?_, ?_⟩
  · rw [hat]
  · rw [hat]
  · rw [hat]
  · rw [hat]
    exact hsaddr
  · rw [List.take_left' (length_ipHeader _ _ _)]
    exact hsum
  · have hid : (be16ToCpu gen.next.2).toNat = gen.next.1.last.toNat := by
      rw [be16ToCpu, IpIdGenerator.next, cpuToBe16, swap16_swap16]
    rw [identification, hat]
    exact hid.trans (toNat_last_next hlast)
  · have hport : load16 (ipHeader gen.next.2 (headerCheck gen.next.2 (ipovly packet))
        (ipovly packet) ++ transportBytes packet) 22 = dest packet := by
      rw [load16_append_of_le (by rw [length_ipHeader]; omega), length_ipHeader]
      exact load16_transportBytes packet
    rw [GoesToNamed, hat, hport]
    exact hdest
  · have hlength := length_ipHeader gen.next.2 (headerCheck gen.next.2 (ipovly packet))
      (ipovly packet)
    rw [CarriesOffered, hat]
    exact carries_transportBytes hlength hprotocol hdoff hoffered

theorem txAll_spec {gen : IpIdGenerator} {n : Nat} (hlast : gen.last.toNat = lastAfter n)
    {packets : List Packet}
    (hrouted : ∀ packet ∈ packets, Routed stackAddr (namedBy requests) packet)
    (hoffered : ∀ packet ∈ packets, Offered requests packet) :
    (txAll gen packets).1.last.toNat = lastAfter (n + (txAll gen packets).2.length) ∧
      ∀ k bytes, (txAll gen packets).2[k]? = some bytes →
        OnDevice stackAddr requests (n + k) bytes := by
  induction packets generalizing gen n with
  | nil => exact ⟨hlast, fun _ _ hget => nomatch hget⟩
  | cons packet rest ih =>
      have hfirst := onDevice_txPacket hlast (hrouted packet List.mem_cons_self)
        (hoffered packet List.mem_cons_self)
      have hnext : (txPacket gen packet).1.last.toNat = lastAfter (n + 1) := by
        rw [txPacket_eq]
        exact toNat_last_next hlast
      obtain ⟨hafter, hothers⟩ := ih hnext
        (fun other hother => hrouted other (List.mem_cons_of_mem packet hother))
        (fun other hother => hoffered other (List.mem_cons_of_mem packet hother))
      simp only [txAll, List.length_cons]
      constructor
      · rw [hafter, Nat.add_assoc, Nat.add_comm 1]
      · intro k bytes hget
        cases k with
        | zero =>
            cases hget
            exact hfirst
        | succ k =>
            have hother := hothers k bytes hget
            rwa [Nat.add_assoc, Nat.add_comm 1] at hother

theorem namedBy_subset {requests' : List Calling} (h : requests ⊆ requests') :
    namedBy requests ⊆ namedBy requests' := by
  intro dest hdest
  obtain ⟨calling, hcalling, hmem⟩ := List.mem_flatMap.mp hdest
  exact List.mem_flatMap.mpr ⟨calling, h hcalling, hmem⟩

theorem OnDevice.mono {k : Nat} {bytes : List UInt8} (h : OnDevice stackAddr requests k bytes)
    {requests' : List Calling} (hsubset : requests ⊆ requests') :
    OnDevice stackAddr requests' k bytes := by
  refine ⟨h.header, h.id_eq, h.dest.mono (namedBy_subset hsubset), ?_⟩
  rcases h.carries with ⟨hprotocol, hlength, hoffered⟩ |
    ⟨hprotocol, hlength, hdoff, hempty | hoffered⟩
  · exact .inl ⟨hprotocol, hlength, hoffered.mono hsubset⟩
  · exact .inr ⟨hprotocol, hlength, hdoff, .inl hempty⟩
  · exact .inr ⟨hprotocol, hlength, hdoff, .inr (hoffered.mono hsubset)⟩

end Device

section Runs

variable {stackAddr : UInt32}

structure Invariant (stackAddr : UInt32) (s : State) : Prop where
  reachable : started.Reachable s.daemon
  located : ∀ d, s.daemon = .running d → d.stackAddr = stackAddr ∧ AllLocated (namedBy s.requests) d
  last_eq : s.idgenerator.last.toNat = lastAfter s.written.length
  written : ∀ k bytes, s.written[k]? = some bytes → OnDevice stackAddr s.requests k bytes

theorem invariant_initial {s : State} (h : (machine stackAddr).initial s) :
    Invariant stackAddr s := by
  obtain ⟨⟨d, hd, haddr, hinitial⟩, hgen, hwritten, -⟩ := h
  have hempty := hinitial
  rw [hd] at hempty
  obtain ⟨_, ⟨⟩, -, hudp, htcp, -⟩ := hempty
  refine ⟨.initial hinitial, ?_, ?_, ?_⟩
  · intro d' hd'
    obtain rfl : d = d' := State.running.inj (hd.symm.trans hd')
    refine ⟨haddr, ⟨?_, ?_⟩⟩
    · intro i pcb hpcb
      rw [hudp] at hpcb
      cases hpcb
    · intro i pcb hpcb
      rw [htcp] at hpcb
      cases hpcb
  · rw [hgen, hwritten]
    rfl
  · intro k bytes hget
    rw [hwritten] at hget
    cases hget

theorem invariant_step {s t : State} {a : Label} (h : Invariant stackAddr s)
    (hnext : next s a = some t) : Invariant stackAddr t := by
  obtain ⟨daemon, hdaemon, rfl⟩ := Option.map_eq_some_iff.mp hnext
  obtain ⟨d, hd⟩ : ∃ d, s.daemon = .running d := by
    rcases hs : s.daemon with d | fault
    · exact ⟨d, rfl⟩
    · rw [hs] at hdaemon
      cases hdaemon
  obtain ⟨haddr, hlocated⟩ := h.located d hd
  have hold : s.requests ⊆ s.requests ++ requestedBy a := List.subset_append_left _ _
  have hnew : requestedBy a ⊆ s.requests ++ requestedBy a := List.subset_append_right _ _
  have hlocated' := hlocated.mono (namedBy_subset hold)
  have hrouted := routed_sentBy hlocated' (namedBy_subset hnew)
  obtain ⟨hlast, hwritten⟩ := txAll_spec h.last_eq hrouted (offered_sentBy d hnew)
  rw [hd] at hdaemon
  rw [← hd] at hlast hwritten
  refine ⟨?_, ?_, ?_, ?_⟩
  · exact h.reachable.step trivial (hd ▸ hdaemon)
  · rintro d' rfl
    have hreached := h.reachable
    rw [hd] at hreached
    have hstep := SocketLives.next_step (connected (reachable_of_started hreached) d rfl)
      (SocketLives.pcbsLive hreached d rfl) (SocketLives.keyed hreached d rfl) hdaemon
    exact ⟨hstep.stackAddr_eq.trans haddr,
      next_located hlocated' (namedBy_subset hnew) hdaemon⟩
  · rw [List.length_append]
    exact hlast
  · intro k bytes hget
    rcases Nat.lt_or_ge k s.written.length with hlt | hge
    · rw [List.getElem?_append_left hlt] at hget
      exact (h.written k bytes hget).mono hold
    · rw [List.getElem?_append_right hge] at hget
      have hbytes := hwritten _ bytes hget
      rw [haddr, Nat.add_sub_cancel' hge] at hbytes
      exact hbytes

theorem invariant {s : State} (h : (machine stackAddr).Reachable s) : Invariant stackAddr s :=
  h.invariant (fun _ hinitial => invariant_initial hinitial)
    fun _ _ _ hs _ hnext => invariant_step hs hnext

/-- Whatever the clients do and whatever comes in, each packet that leaves the host has a
header of the stack that verifies, and of any 65535 packets in a row no two have the same
identification. -/
theorem packets_identified {s : State} (h : (machine stackAddr).Reachable s) :
    (∀ bytes ∈ s.written, HeaderVerifies stackAddr bytes) ∧
      ∀ i j packet packet', s.written[i]? = some packet → s.written[j]? = some packet' → i < j →
        j < i + 65535 → identification packet ≠ identification packet' := by
  have hwritten := (invariant h).written
  constructor
  · intro bytes hmem
    obtain ⟨k, hget⟩ := List.getElem?_of_mem hmem
    exact (hwritten k bytes hget).header
  · intro i j packet packet' hi hj hlt hclose
    rw [(hwritten i packet hi).id_eq, (hwritten j packet' hj).id_eq]
    omega

def sampleIdle : State :=
  { daemon := .running AddressLeak.sampleStart
    idgenerator := { last := 0 }
    written := []
    requests := [] }

/-- Two datagrams to a server. -/
def sampleSends : List Label :=
  [.accept, sampleRead (.socketCall 2 2 0),
    sampleRead (.sendtoCall [1] 0 (some ReplyShape.sampleAddr)),
    sampleRead (.sendtoCall [2] 0 (some ReplyShape.sampleAddr))]

theorem sampleIdle_reachable : (machine 0x0200000a).Reachable sampleIdle :=
  .initial ⟨⟨_, rfl, rfl, AddressLeak.sampleStart_initial⟩, rfl, rfl, rfl⟩

theorem packets_identified_sample :
    ∃ s packet packet', (machine 0x0200000a).exec sampleIdle sampleSends = some s ∧
      s.written[0]? = some packet ∧ s.written[1]? = some packet' ∧
        HeaderVerifies 0x0200000a packet ∧ identification packet ≠ identification packet' := by
  obtain ⟨s, packet, packet', hexec, hfirst, hsecond⟩ : ∃ s packet packet',
      (machine 0x0200000a).exec sampleIdle sampleSends = some s ∧
        s.written[0]? = some packet ∧ s.written[1]? = some packet' := ⟨_, _, _, rfl, rfl, rfl⟩
  obtain ⟨hverifies, hdistinct⟩ :=
    packets_identified (Machine.reachable_of_exec sampleIdle_reachable hexec)
  exact ⟨s, packet, packet', hexec, hfirst, hsecond, hverifies _ (List.mem_of_getElem? hfirst),
    hdistinct 0 1 packet packet' hfirst hsecond (by decide) (by decide)⟩

/-- No packet leaves the host for a destination that no client has named, but for those that
a PCB without a peer sends to nobody. -/
theorem packets_named {s : State} (h : (machine stackAddr).Reachable s) :
    ∀ bytes ∈ s.written, GoesToNamed (namedBy s.requests) bytes := by
  intro bytes hmem
  obtain ⟨k, hget⟩ := List.getElem?_of_mem hmem
  exact ((invariant h).written k bytes hget).dest

theorem packets_named_sample :
    ∃ s packet, (machine 0x0200000a).exec sampleIdle sampleSends = some s ∧
      s.written[0]? = some packet ∧ GoesToNamed (namedBy s.requests) packet := by
  obtain ⟨s, packet, hexec, hfirst⟩ : ∃ s packet,
      (machine 0x0200000a).exec sampleIdle sampleSends = some s ∧
        s.written[0]? = some packet := ⟨_, _, rfl, rfl⟩
  have hnamed := packets_named (Machine.reachable_of_exec sampleIdle_reachable hexec)
  exact ⟨s, packet, hexec, hfirst, hnamed packet (List.mem_of_getElem? hfirst)⟩

/-- Nothing leaves the host but what clients have given to be sent: no packet carries other
bytes of the daemon. -/
theorem packets_offered {s : State} (h : (machine stackAddr).Reachable s) :
    ∀ bytes ∈ s.written, CarriesOffered s.requests bytes := by
  intro bytes hmem
  obtain ⟨k, hget⟩ := List.getElem?_of_mem hmem
  exact ((invariant h).written k bytes hget).carries

theorem packets_offered_sample :
    ∃ s packet, (machine 0x0200000a).exec sampleIdle sampleSends = some s ∧
      s.written[0]? = some packet ∧ CarriesOffered s.requests packet := by
  obtain ⟨s, packet, hexec, hfirst⟩ : ∃ s packet,
      (machine 0x0200000a).exec sampleIdle sampleSends = some s ∧
        s.written[0]? = some packet := ⟨_, _, rfl, rfl⟩
  have hoffered := packets_offered (Machine.reachable_of_exec sampleIdle_reachable hexec)
  exact ⟨s, packet, hexec, hfirst, hoffered packet (List.mem_of_getElem? hfirst)⟩

end Runs

end MuQuinet.DevicePackets
