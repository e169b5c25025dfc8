import MuQuinet.IpLayer

namespace MuQuinet.ReassemblyRoundTrip

open MuQuinet.Lib.Words
open MuQuinet.Buffers
open MuQuinet.IpHeaders
open MuQuinet.IpLayer
open MuQuinet.Reassembly
open MuQuinet.UdpLayer
open MuQuinet.Wire

/-- The bytes `raw` are a fragment of the datagram `key` that carries `data` at
an offset of its IP payload, and exactly fill the buffer they are read into. -/
structure IsFragment (key : ContextKey) (ihl offset : Nat) (more : Bool)
    (data raw : List UInt8) : Prop where
  version_eq : (IpHeader.at raw 0).version = 4
  ihl_eq : (IpHeader.at raw 0).ihl = ihl
  key_eq : contextKey (tunDeviceRx raw) = key
  totLen_eq : hostTotLen (tunDeviceRx raw) = raw.length
  offset_eq : hostOff (tunDeviceRx raw) * 8 = offset
  more_eq : moreFrag (tunDeviceRx raw) = more
  header_le : ihl * 4 ≤ raw.length
  data_eq : raw.drop (ihl * 4) = data
  length_le : raw.length ≤ maxRawBytesSize

/-- `raws` cut the IP payload `payload` from an offset on: only the final
fragment has no MF bit, and the lengths before it are multiples of 8. -/
inductive IsCut (key : ContextKey) (ihl : Nat) :
    Nat → List UInt8 → List (List UInt8) → Prop
  | final {offset : Nat} {data raw : List UInt8} :
      IsFragment key ihl offset false data raw → IsCut key ihl offset data [raw]
  | more {offset units : Nat} {data rest raw : List UInt8} {raws : List (List UInt8)} :
      0 < units → data.length = 8 * units →
        IsFragment key ihl offset true data raw →
          IsCut key ihl (offset + 8 * units) rest raws →
            IsCut key ihl offset (data ++ rest) (raw :: raws)

/-- A UDP datagram in at least two fragments, in some order of arrival at a
defrager that holds no context for it. -/
structure ArrivesInFragments (d : Defrager) (key : ContextKey) (ihl : Nat)
    (udpHeader payload : List UInt8) (arrivals : List (List UInt8)) : Prop where
  protocol_eq : key.ipProtocol = 17
  ihl_ge : 5 ≤ ihl
  header_length : udpHeader.length = sizeofUdpHeader
  length_le : ihl * 4 + sizeofUdpHeader + payload.length ≤ 65535
  two_le : 2 ≤ arrivals.length
  cut : ∃ raws, IsCut key ihl 0 (udpHeader ++ payload) raws ∧ arrivals.Perm raws
  holdsNone : HoldsNone key d

/-- The chain in a socket's `recvQ` after the IP layer and `UdpPcb::recv` worked
on a packet, whose last arrival had the header `hdr`. -/
def received (hdr : IpHeader) : List SocketBuffer → List SocketBuffer
  | [] => []
  | packet :: next => UdpPcb.locatePayload (locateTransport hdr.ihl packet) :: next

/-- Null results but for the last one, which is a packet of the right length
whose receiver collects the payload. -/
def RoundTrips (d : Defrager) (ihl : Nat) (payload : List UInt8)
    (arrivals : List (List UInt8)) : Prop :=
  ∃ d' packet next last,
    defragAll d (arrivals.map tunDeviceRx) =
        some (d', List.replicate (arrivals.length - 1) [] ++ [packet :: next]) ∧
      hostTotLen packet = ihl * 4 + sizeofUdpHeader + payload.length ∧
      arrivals.getLast? = some last ∧
      collect (received (iphdr (tunDeviceRx last)) (packet :: next)) = some payload

theorem collect_length {chain : List SocketBuffer} {bytes : List UInt8}
    (hends : ∀ skbuf ∈ chain, skbuf.payloadEnd ≤ skbuf.rawBytes.length)
    (h : collect chain = some bytes) :
    bytes.length + (chain.map (·.payloadBegin)).sum = (chain.map (·.payloadEnd)).sum := by
  induction chain generalizing bytes with
  | nil =>
      obtain rfl : [] = bytes := by simpa using h
      rfl
  | cons curr next ih =>
      obtain ⟨hle, rest, hrest, rfl⟩ := collect_cons_eq_some.mp h
      have hnext := ih (fun s hs => hends s (by simp [hs])) hrest
      have hcurr := SocketBuffer.payload_length (hends curr (by simp))
      simp only [List.map_cons, List.sum_cons, List.length_append]
      omega

theorem IsCut.isFragment {key : ContextKey} {ihl offset : Nat} {payload : List UInt8}
    {raws : List (List UInt8)} (h : IsCut key ihl offset payload raws) :
    ∀ raw ∈ raws, ∃ off more data, IsFragment key ihl off more data raw := by
  induction h with
  | final hfrag =>
      intro raw hraw
      obtain rfl := List.mem_singleton.mp hraw
      exact ⟨_, _, _, hfrag⟩
  | more _ _ hfrag _ ih =>
      intro raw hraw
      rcases List.mem_cons.mp hraw with rfl | hraw
      · exact ⟨_, _, _, hfrag⟩
      · exact ih raw hraw

theorem IsFragment.length_eq {key : ContextKey} {ihl offset : Nat} {more : Bool}
    {data raw : List UInt8} (h : IsFragment key ihl offset more data raw) :
    raw.length = ihl * 4 + data.length := by
  have hle := h.header_le
  rw [← h.data_eq, List.length_drop]
  omega

theorem IsCut.sum_length {key : ContextKey} {ihl offset : Nat} {payload : List UInt8}
    {raws : List (List UInt8)} (h : IsCut key ihl offset payload raws) :
    (raws.map List.length).sum = raws.length * (ihl * 4) + payload.length := by
  induction h with
  | final hfrag => simp [hfrag.length_eq]
  | more _ _ hfrag _ ih =>
      simp only [List.map_cons, List.sum_cons, List.length_cons, List.length_append,
        hfrag.length_eq, ih]
      ring

/-- The pointers by which a reassembled chain is read: the payload of the first
buffer begins after the UDP header, that of every other `ihl` bytes, not words,
into its IP header. -/
theorem received_finish {hdr : IpHeader} {ihl : Nat} {first : SocketBuffer}
    {rest : List SocketBuffer} (hihl : hdr.ihl = ihl)
    (hihls : ∀ skbuf ∈ first :: rest, (iphdr skbuf).ihl = ihl)
    (hnetwork : first.network = 0)
    (hends : ∀ skbuf ∈ first :: rest, skbuf.payloadEnd ≤ skbuf.rawBytes.length) :
    let chain := received hdr (finish (first :: rest))
    (chain.map (·.payloadBegin)).sum = ihl * 4 + 8 + rest.length * ihl ∧
      chain.map (·.payloadEnd) = (first :: rest).map (·.payloadEnd) ∧
      ∀ skbuf ∈ chain, skbuf.payloadEnd ≤ skbuf.rawBytes.length := by
  have hrest : (rest.map stripHeader).map (·.payloadBegin) = List.replicate rest.length ihl := by
    rw [List.map_map, List.eq_replicate_iff]
    refine ⟨List.length_map _, ?_⟩
    intro offset hmem
    obtain ⟨curr, hcurr, rfl⟩ := List.mem_map.mp hmem
    exact hihls curr (by simp [hcurr])
  refine ⟨?_, ?_, ?_⟩
  · simp only [finish, received, List.map_cons, List.sum_cons, hrest, List.sum_replicate_nat]
    change first.network + hdr.ihl * 4 + 8 + rest.length * ihl = _
    rw [hnetwork, hihl, Nat.zero_add]
  · simp only [finish, received, List.map_cons, List.map_map]
    rfl
  · simp only [finish, received, List.forall_mem_cons]
    refine ⟨?_, ?_⟩
    · rw [UdpPcb.locatePayload, locateTransport, rewriteTotLen, length_store16]
      exact hends first (by simp)
    · intro skbuf hskbuf
      obtain ⟨curr, hcurr, rfl⟩ := List.mem_map.mp hskbuf
      exact hends curr (by simp [hcurr])

/-- How many bytes a receiver collects from the fragments `arrivals`: those of all
buffers, less what lies before the pointers of `received_finish`. -/
theorem collected_length {d d' : Defrager} {key : ContextKey} {ihl : Nat}
    {arrivals : List (List UInt8)} {packet : SocketBuffer} {next : List SocketBuffer}
    {last bytes : List UInt8}
    (hfragments : ∀ raw ∈ arrivals, ∃ off more data, IsFragment key ihl off more data raw)
    (hnone : HoldsNone key d)
    (hdefrag : defragAll d (arrivals.map tunDeviceRx) =
      some (d', List.replicate (arrivals.length - 1) [] ++ [packet :: next]))
    (hlast : arrivals.getLast? = some last)
    (hcollect : collect (received (iphdr (tunDeviceRx last)) (packet :: next)) = some bytes) :
    bytes.length + (ihl * 4 + 8 + (arrivals.length - 1) * ihl) =
      (arrivals.map List.length).sum := by
  have hkeys : ∀ skbuf ∈ arrivals.map tunDeviceRx, contextKey skbuf = key := by
    intro skbuf hskbuf
    obtain ⟨raw, hraw, rfl⟩ := List.mem_map.mp hskbuf
    obtain ⟨off, more, data, hfrag⟩ := hfragments raw hraw
    exact hfrag.key_eq
  have hne : arrivals.map tunDeviceRx ≠ [] := by
    intro hnil
    rw [List.map_eq_nil_iff.mp hnil] at hlast
    cases hlast
  have hlength : (arrivals.map tunDeviceRx).length = arrivals.length := List.length_map _
  rw [← hlength] at hdefrag
  obtain ⟨chain, hpacket, hchain⟩ :=
    defragAll_packet hkeys hnone hne (List.cons_ne_nil _ _) hdefrag
  obtain ⟨first, rest, rfl⟩ : ∃ first rest, chain = first :: rest := by
    cases chain with
    | nil => cases hpacket
    | cons first rest => exact ⟨first, rest, rfl⟩
  have hbuffers : ∀ skbuf ∈ first :: rest, ∃ raw ∈ arrivals, skbuf = tunDeviceRx raw := by
    intro skbuf hskbuf
    obtain ⟨raw, hraw, rfl⟩ := List.mem_map.mp (hchain.mem_iff.mp hskbuf)
    exact ⟨raw, hraw, rfl⟩
  have hihls : ∀ skbuf ∈ first :: rest, (iphdr skbuf).ihl = ihl := by
    intro skbuf hskbuf
    obtain ⟨raw, hraw, rfl⟩ := hbuffers skbuf hskbuf
    obtain ⟨off, more, data, hfrag⟩ := hfragments raw hraw
    exact hfrag.ihl_eq
  have hlastIhl : (iphdr (tunDeviceRx last)).ihl = ihl := by
    obtain ⟨off, more, data, hfrag⟩ := hfragments last (List.mem_of_getLast? hlast)
    exact hfrag.ihl_eq
  have hnetwork : first.network = 0 := by
    obtain ⟨raw, -, rfl⟩ := hbuffers first (by simp)
    rfl
  have hends : ∀ skbuf ∈ first :: rest, skbuf.payloadEnd ≤ skbuf.rawBytes.length := by
    intro skbuf hskbuf
    obtain ⟨raw, -, rfl⟩ := hbuffers skbuf hskbuf
    exact Nat.le_refl _
  obtain ⟨hbegins, hendsMap, hfit⟩ := received_finish hlastIhl hihls hnetwork hends
  rw [← hpacket] at hbegins hendsMap hfit
  have hcount := collect_length hfit hcollect
  have htotal : ((first :: rest).map (·.payloadEnd)).sum = (arrivals.map List.length).sum := by
    have hmap := (hchain.map (·.payloadEnd)).sum_nat
    rw [List.map_map] at hmap
    exact hmap
  have hrest : arrivals.length - 1 = rest.length := by
    rw [← hlength, ← hchain.length_eq, List.length_cons, Nat.add_sub_cancel]
  rw [hbegins, hendsMap, htotal] at hcount
  rw [hrest]
  exact hcount

/-- No datagram round-trips: each fragment after the first lends its last
`3 * ihl` header bytes to the payload. -/
theorem not_roundTrips_of_arrivesInFragments {d : Defrager} {key : ContextKey} {ihl : Nat}
    {udpHeader payload : List UInt8} {arrivals : List (List UInt8)}
    (h : ArrivesInFragments d key ihl udpHeader payload arrivals) :
    ¬ RoundTrips d ihl payload arrivals := by
  rintro ⟨d', packet, next, last, hdefrag, -, hlast, hcollect⟩
  obtain ⟨raws, hcut, hperm⟩ := h.cut
  have hfragments : ∀ raw ∈ arrivals, ∃ off more data, IsFragment key ihl off more data raw :=
    fun raw hraw => hcut.isFragment raw (hperm.mem_iff.mp hraw)
  have hcount := collected_length hfragments h.holdsNone hdefrag hlast hcollect
  have htotal : (arrivals.map List.length).sum = (raws.map List.length).sum :=
    (hperm.map List.length).sum_nat
  have htwo := h.two_le
  obtain ⟨rest, hrest⟩ : ∃ rest, arrivals.length = rest + 1 := ⟨arrivals.length - 1, by omega⟩
  rw [htotal, hcut.sum_length, ← hperm.length_eq, hrest, List.length_append,
    h.header_length, sizeofUdpHeader, Nat.add_sub_cancel] at hcount
  have hexcess : rest * ihl = rest * (ihl * 4) := by
    rw [Nat.add_mul, Nat.one_mul] at hcount
    omega
  have hihl := h.ihl_ge
  have hquadruple : ihl = ihl * 4 := Nat.eq_of_mul_eq_mul_left (by omega) hexcess
  omega

def sampleKey : ContextKey :=
  { ipId := 0x0700, ipProtocol := 17, ipSaddr := 0x0100000a, ipDaddr := 0x0200000a }

def sampleUdpHeader : List UInt8 := [0, 53, 4, 1, 0, 16, 0, 0]

def samplePayload : List UInt8 := [1, 2, 3, 4, 5, 6, 7, 8]

def sampleFragments : List (List UInt8) :=
  [[0x45, 0, 0, 28, 0, 7, 0x20, 0, 64, 17, 0, 0, 10, 0, 0, 1, 10, 0, 0, 2] ++ sampleUdpHeader,
    [0x45, 0, 0, 28, 0, 7, 0, 1, 64, 17, 0, 0, 10, 0, 0, 1, 10, 0, 0, 2] ++ samplePayload]

theorem sampleFragments_cut :
    IsCut sampleKey 5 0 (sampleUdpHeader ++ samplePayload) sampleFragments := by
  refine .more Nat.one_pos rfl ?_ (.final ?_)
  · exact ⟨by decide, by decide, by decide, by decide, by decide, by decide, by decide,
      by decide, by decide⟩
  · exact ⟨by decide, by decide, by decide, by decide, by decide, by decide, by decide,
      by decide, by decide⟩

theorem sampleFragments_arrive :
    ArrivesInFragments { defragCtxList := [] } sampleKey 5 sampleUdpHeader samplePayload
      sampleFragments := by
  refine ⟨rfl, by decide, rfl, by decide, by decide,
    ⟨sampleFragments, sampleFragments_cut, .refl _⟩, ?_⟩
  intro c hc
  cases hc

theorem sampleFragments_not_roundTrips :
    ¬ RoundTrips { defragCtxList := [] } 5 samplePayload sampleFragments :=
  not_roundTrips_of_arrivesInFragments sampleFragments_arrive

/-- Both halves arrive in order, and the receiver gets 15 header bytes between
them. -/
theorem sampleFragments_collect_header_bytes :
    ArrivesInFragments { defragCtxList := [] } sampleKey 5 sampleUdpHeader samplePayload
        sampleFragments ∧
      ¬ RoundTrips { defragCtxList := [] } 5 samplePayload sampleFragments := by
  refine ⟨sampleFragments_arrive, ?_⟩
  rintro ⟨d', packet, next, last, hdefrag, -, hlast, hcollect⟩
  have hrun : (defragAll { defragCtxList := [] } (sampleFragments.map tunDeviceRx)).map
      (fun run => run.2.map fun chain =>
        collect (received (iphdr (tunDeviceRx (sampleFragments.getLastD []))) chain)) =
      some [some [], some ([7, 0, 1, 64, 17, 0, 0, 10, 0, 0, 1, 10, 0, 0, 2] ++
        samplePayload)] := by
    decide
  have hlastD : sampleFragments.getLastD [] = last := by
    simpa [sampleFragments] using hlast
  have hcount : sampleFragments.length - 1 = 1 := rfl
  rw [hdefrag, hlastD, hcount] at hrun
  simp only [Option.map_some, List.replicate_one, List.cons_append, List.nil_append,
    List.map_cons, List.map_nil, Option.some.injEq, List.cons.injEq, hcollect] at hrun
  exact absurd hrun.2.1 (by decide)

end MuQuinet.ReassemblyRoundTrip
