import MuQuinet.ReassemblyRoundTrip

namespace MuQuinet.TransportLocation

open MuQuinet.Lib.Words
open MuQuinet.Buffers
open MuQuinet.IpHeaders
open MuQuinet.IpLayer
open MuQuinet.Pcbs
open MuQuinet.Reassembly
open MuQuinet.ReassemblyRoundTrip
open MuQuinet.Sockets

/-- `raws` are the fragments of a datagram from an offset on, in the order of their
offsets, each with a header of its own length. -/
inductive IsFragmentation (key : ContextKey) : Nat → List (List UInt8) → Prop
  | final {ihl offset : Nat} {data raw : List UInt8} :
      5 ≤ ihl → IsFragment key ihl offset false data raw → IsFragmentation key offset [raw]
  | more {ihl offset units : Nat} {data raw : List UInt8} {raws : List (List UInt8)} :
      5 ≤ ihl → 0 < units → data.length = 8 * units →
        IsFragment key ihl offset true data raw →
          IsFragmentation key (offset + 8 * units) raws → IsFragmentation key offset (raw :: raws)

/-- Fragments of one datagram arrive at a defrager without a context for it, `earlier`
without a packet, and with `last` `defrag` returns one.  The rest of the stack may have
changed in between. -/
structure Completes (key : ContextKey) (raws : List (List UInt8)) (d : Defrager)
    (earlier : List (List UInt8)) (last : List UInt8) (st : Stack)
    (packet : SocketBuffer) (next : List SocketBuffer) : Prop where
  set : IsFragmentation key 0 raws
  two_le : 2 ≤ raws.length
  holdsNone : HoldsNone key d
  arrivals_mem : ∀ raw ∈ earlier ++ [last], raw ∈ raws
  earlier_null : defragAll d (earlier.map tunDeviceRx) =
    some (st.defrager, List.replicate earlier.length [])
  last_packet : ∃ d', defrag st.defrager (tunDeviceRx last) = some (d', packet :: next)

/-- The loop of `Ip::start` puts `transport_hdr` behind the header at `network_hdr`. -/
def LocatedByOwnHeader (packet : SocketBuffer) (events : List Event) : Prop :=
  events.head? = some (.transport packet.network (packet.network + 4 * (iphdr packet).ihl))

theorem IsFragmentation.exists_isFragment {key : ContextKey} {offset : Nat}
    {raws : List (List UInt8)} (h : IsFragmentation key offset raws) :
    ∀ raw ∈ raws, ∃ ihl off more data, 5 ≤ ihl ∧ IsFragment key ihl off more data raw ∧
      offset ≤ off ∧ (more = false → off = offset → raws = [raw]) := by
  induction h with
  | final hihl hfrag =>
      intro raw hraw
      obtain rfl := List.mem_singleton.mp hraw
      exact ⟨_, _, _, _, hihl, hfrag, Nat.le_refl _, fun _ _ => rfl⟩
  | more hihl hunits _ hfrag _ ih =>
      intro raw hraw
      rcases List.mem_cons.mp hraw with rfl | hraw
      · exact ⟨_, _, _, _, hihl, hfrag, Nat.le_refl _, fun hmore => absurd hmore (by decide)⟩
      · obtain ⟨ihl, off, more, data, hge, hlater, hle, -⟩ := ih raw hraw
        exact ⟨ihl, off, more, data, hge, hlater, by omega, fun _ heq => by omega⟩

theorem IsFragmentation.eq_head {key : ContextKey} {offset : Nat} {raws : List (List UInt8)}
    (h : IsFragmentation key offset raws) {raw : List UInt8} (hraw : raw ∈ raws)
    (hoff : hostOff (tunDeviceRx raw) * 8 = offset) : raws.head? = some raw := by
  cases h with
  | final _ _ =>
      obtain rfl := List.mem_singleton.mp hraw
      rfl
  | more _ hunits _ _ hlater =>
      rcases List.mem_cons.mp hraw with rfl | hraw
      · rfl
      · obtain ⟨ihl, off, more, data, -, hfrag, hle, -⟩ := hlater.exists_isFragment raw hraw
        have hown := hfrag.offset_eq
        omega

/-- Every fragment of a set of at least two passes the checks of the loop. -/
theorem IsFragmentation.passes {key : ContextKey} {raws : List (List UInt8)}
    (h : IsFragmentation key 0 raws) (htwo : 2 ≤ raws.length) {raw : List UInt8}
    (hraw : raw ∈ raws) :
    contextKey (tunDeviceRx raw) = key ∧ (iphdr (tunDeviceRx raw)).version = 4 ∧
      20 ≤ raw.length ∧ isFrag (tunDeviceRx raw) = true := by
  obtain ⟨ihl, off, more, data, hihl, hfrag, -, hsingle⟩ := h.exists_isFragment raw hraw
  have hheader := hfrag.header_le
  refine ⟨hfrag.key_eq, hfrag.version_eq, by omega, ?_⟩
  have hmore := hfrag.more_eq
  have hoff := hfrag.offset_eq
  rw [isFrag]
  cases more with
  | true => simp [hmore]
  | false =>
      have hpositive : hostOff (tunDeviceRx raw) ≠ 0 := by
        intro hzero
        have hone := hsingle rfl (by omega)
        rw [hone, List.length_singleton] at htwo
        omega
      simp [hpositive]

theorem head?_demultiplex (st : Stack) (uninit : SockaddrIn) (hdr : IpHeader)
    (skbuf : SocketBuffer) (next : List SocketBuffer) :
    (demultiplex st uninit hdr skbuf next).2.head? =
      some (.transport skbuf.network (skbuf.network + hdr.ihl * 4)) := by
  simp only [demultiplex]
  split <;> rfl

/-- A fragment that completes its datagram: the packet is demultiplexed by the header
of the fragment. -/
theorem rx_eq_demultiplex_of_packet {st : Stack} {skbuf packet : SocketBuffer}
    {d' : Defrager} {next : List SocketBuffer} (hversion : (iphdr skbuf).version = 4)
    (hlength : 20 ≤ skbuf.payloadEnd - skbuf.hdrsBegin.getD 0) (hfrag : isFrag skbuf = true)
    (hdefrag : defrag st.defrager skbuf = some (d', packet :: next)) (uninit : SockaddrIn) :
    rx st uninit skbuf =
      demultiplex { st with defrager := d' } uninit (iphdr skbuf) packet next := by
  simp only [rx]
  rw [if_neg (not_not.mpr hversion), if_neg (Nat.not_lt.mpr hlength), if_pos hfrag, hdefrag]

/-- The new total length leaves the first byte of the header alone. -/
theorem ihl_rewriteTotLen (len : UInt16) (first : SocketBuffer) :
    (iphdr (rewriteTotLen len first)).ihl = (iphdr first).ihl := by
  have hbyte := byteAt_store16_of_lt (Nat.lt_add_of_pos_right (n := first.network) Nat.two_pos)
    first.rawBytes (cpuToBe16 (len + .ofNat ((iphdr first).ihl * 4)))
  exact congrArg (· % 16) hbyte

/-- The packet begins with the fragment at offset 0. -/
theorem Completes.packet_head {key : ContextKey} {raws : List (List UInt8)} {d : Defrager}
    {earlier : List (List UInt8)} {last : List UInt8} {st : Stack} {packet : SocketBuffer}
    {next : List SocketBuffer} (h : Completes key raws d earlier last st packet next) :
    ∃ first, raws.head? = some first ∧ (iphdr packet).ihl = (iphdr (tunDeviceRx first)).ihl := by
  obtain ⟨d', hdefrag⟩ := h.last_packet
  have hkeys : ∀ raw ∈ earlier ++ [last], contextKey (tunDeviceRx raw) = key :=
    fun raw hraw => (h.set.passes h.two_le (h.arrivals_mem raw hraw)).1
  have hkept : (chainOf key st.defrager).Perm (earlier.map tunDeviceRx) := by
    have hnull := h.earlier_null
    rw [← @List.length_map _ _ earlier tunDeviceRx] at hnull
    have hmapped : ∀ skbuf ∈ earlier.map tunDeviceRx, contextKey skbuf = key := by
      intro skbuf hskbuf
      obtain ⟨raw, hraw, rfl⟩ := List.mem_map.mp hskbuf
      exact hkeys raw (List.mem_append_left _ hraw)
    have hcollects := defragAll_collects hmapped hnull
    rwa [chainOf_of_holdsNone h.holdsNone, List.append_nil] at hcollects
  obtain ⟨chain, hinsert, hcase⟩ := defrag_spec hdefrag
  rw [hkeys last (by simp)] at hinsert
  rcases hcase with ⟨hcomplete, hfinish⟩ | ⟨-, hnil, -⟩
  · cases chain with
    | nil => cases hfinish
    | cons head rest =>
        obtain ⟨rfl, -⟩ := List.cons.inj hfinish
        have hmem : head ∈ tunDeviceRx last :: chainOf key st.defrager :=
          (insert_perm hinsert).mem_iff.mp List.mem_cons_self
        obtain ⟨raw, hraw, rfl⟩ : ∃ raw ∈ earlier ++ [last], head = tunDeviceRx raw := by
          rcases List.mem_cons.mp hmem with rfl | hmem
          · exact ⟨last, by simp, rfl⟩
          · obtain ⟨raw, hraw, rfl⟩ := List.mem_map.mp (hkept.mem_iff.mp hmem)
            exact ⟨raw, List.mem_append_left _ hraw, rfl⟩
        have hcontiguous := (Bool.and_eq_true_iff.mp hcomplete).1
        simp only [contiguousFrom] at hcontiguous
        split at hcontiguous
        · cases hcontiguous
        · rename_i hoff
          refine ⟨raw, h.set.eq_head (h.arrivals_mem raw hraw) (by omega), ?_⟩
          exact ihl_rewriteTotLen _ _
  · cases hnil

/-- The transport header is found if and only if the header of the fragment that
arrived last is as long as that of the first fragment. -/
theorem located_iff_ihl_eq {key : ContextKey} {raws : List (List UInt8)} {d : Defrager}
    {earlier : List (List UInt8)} {last : List UInt8} {st : Stack} {packet : SocketBuffer}
    {next : List SocketBuffer} (h : Completes key raws d earlier last st packet next)
    (uninit : SockaddrIn) :
    LocatedByOwnHeader packet (rx st uninit (tunDeviceRx last)).2 ↔
      ∃ first, raws.head? = some first ∧
        (iphdr (tunDeviceRx last)).ihl = (iphdr (tunDeviceRx first)).ihl := by
  obtain ⟨first, hfirst, hihl⟩ := h.packet_head
  obtain ⟨d', hdefrag⟩ := h.last_packet
  obtain ⟨-, hversion, hlength, hfrag⟩ := h.set.passes h.two_le (h.arrivals_mem last (by simp))
  rw [rx_eq_demultiplex_of_packet hversion hlength hfrag hdefrag, LocatedByOwnHeader,
    head?_demultiplex, hfirst]
  simp only [Option.some.injEq, Event.transport.injEq, true_and, exists_eq_left', hihl]
  omega

/-- A first fragment with four bytes of options, and the second one without. -/
def sampleWithOptions : List UInt8 :=
  [0x46, 0, 0, 32, 0, 7, 0x20, 0, 64, 17, 0, 0, 10, 0, 0, 1, 10, 0, 0, 2, 1, 1, 1, 0] ++
    sampleUdpHeader

def sampleWithout : List UInt8 :=
  [0x45, 0, 0, 28, 0, 7, 0, 1, 64, 17, 0, 0, 10, 0, 0, 1, 10, 0, 0, 2] ++ samplePayload

def sampleStack : Stack :=
  { defrager := { defragCtxList := [{ sampleKey with first := [tunDeviceRx sampleWithOptions] }] }
    udp := { pcbs := [], port := 1024 }
    tcp := { pcbs := [], port := 1024 } }

def samplePacket : List SocketBuffer :=
  finish [tunDeviceRx sampleWithOptions, tunDeviceRx sampleWithout]

theorem sample_completes :
    Completes sampleKey [sampleWithOptions, sampleWithout] { defragCtxList := [] }
      [sampleWithOptions] sampleWithout sampleStack (samplePacket.headD (tunDeviceRx []))
      samplePacket.tail := by
  refine ⟨?_, by decide, ?_, by decide, by decide, ⟨{ defragCtxList := [] }, by decide⟩⟩
  · have hfirst : IsFragment sampleKey 6 0 true sampleUdpHeader sampleWithOptions :=
      ⟨by decide, by decide, by decide, by decide, by decide, by decide, by decide, by decide,
        by decide⟩
    have hlast : IsFragment sampleKey 5 (0 + 8 * 1) false samplePayload sampleWithout :=
      ⟨by decide, by decide, by decide, by decide, by decide, by decide, by decide, by decide,
        by decide⟩
    exact .more (by decide) Nat.one_pos rfl hfirst (.final (by decide) hlast)
  · intro c hc
    cases hc

theorem sample_located_iff :
    LocatedByOwnHeader (samplePacket.headD (tunDeviceRx []))
        (rx sampleStack .zero (tunDeviceRx sampleWithout)).2 ↔
      ∃ first, [sampleWithOptions, sampleWithout].head? = some first ∧
        (iphdr (tunDeviceRx sampleWithout)).ihl = (iphdr (tunDeviceRx first)).ihl :=
  located_iff_ihl_eq sample_completes .zero

/-- The second fragment arrives last, and UDP reads its header among the options of the
first. -/
theorem options_read_as_udp_header :
    Completes sampleKey [sampleWithOptions, sampleWithout] { defragCtxList := [] }
        [sampleWithOptions] sampleWithout sampleStack (samplePacket.headD (tunDeviceRx []))
        samplePacket.tail ∧
      (iphdr (samplePacket.headD (tunDeviceRx []))).ihl = 6 ∧
      .headerRead 20 8 32 ∈ (rx sampleStack .zero (tunDeviceRx sampleWithout)).2 ∧
      ¬ LocatedByOwnHeader (samplePacket.headD (tunDeviceRx []))
        (rx sampleStack .zero (tunDeviceRx sampleWithout)).2 := by
  refine ⟨sample_completes, by decide, by decide, ?_⟩
  have hhead : (rx sampleStack .zero (tunDeviceRx sampleWithout)).2.head? =
      some (.transport 0 20) := by
    decide
  rw [LocatedByOwnHeader, hhead]
  decide

end MuQuinet.TransportLocation
