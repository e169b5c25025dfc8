import Mathlib.Algebra.Group.Action.Defs
import Mathlib.Algebra.Order.BigOperators.Group.List
import Mathlib.Data.List.Perm.Subperm
import MuQuinet.LengthRewrite
import MuQuinet.ReassemblyRoundTrip

namespace MuQuinet.DuplicateFragments

open MuQuinet.Buffers
open MuQuinet.IpHeaders
open MuQuinet.LengthRewrite
open MuQuinet.Reassembly
open MuQuinet.ReassemblyRoundTrip
open MuQuinet.Wire

/-- The fragments `raws` of a datagram arrive at a defrager that holds no context for
it, some of `earlier` more than once, and `last` completes the set. -/
structure ArrivesWithDuplicates (d : Defrager) (key : ContextKey) (ihl : Nat)
    (udpHeader payload : List UInt8) (raws earlier : List (List UInt8)) (last : List UInt8) :
    Prop where
  protocol_eq : key.ipProtocol = 17
  ihl_ge : 5 ≤ ihl
  header_length : udpHeader.length = sizeofUdpHeader
  length_le : ihl * 4 + sizeofUdpHeader + payload.length ≤ 65535
  cut : IsCut key ihl 0 (udpHeader ++ payload) raws
  holdsNone : HoldsNone key d
  mem_iff : ∀ raw, raw ∈ earlier ++ [last] ↔ raw ∈ raws
  last_new : last ∉ earlier
  repeated : ¬ earlier.Nodup

/-- Null results but for the last one, a packet whose receiver collects `bytes`. -/
def Returns (d : Defrager) (arrivals : List (List UInt8)) (bytes : List UInt8) : Prop :=
  ∃ d' packet next last,
    defragAll d (arrivals.map tunDeviceRx) =
        some (d', List.replicate (arrivals.length - 1) [] ++ [packet :: next]) ∧
      arrivals.getLast? = some last ∧
      collect (received (iphdr (tunDeviceRx last)) (packet :: next)) = some bytes

/-- The last arrival returns what it does when each of `raws` arrives once, in some
order. -/
def Harmless (d : Defrager) (raws arrivals : List (List UInt8)) : Prop :=
  ∃ order bytes, order.Perm raws ∧ Returns d order bytes ∧ Returns d arrivals bytes

theorem IsCut.offset_le {key : ContextKey} {ihl offset : Nat} {payload : List UInt8}
    {raws : List (List UInt8)} (h : IsCut key ihl offset payload raws) :
    ∀ raw ∈ raws, offset ≤ hostOff (tunDeviceRx raw) * 8 := by
  induction h with
  | final hfrag =>
      intro raw hraw
      obtain rfl := List.mem_singleton.mp hraw
      exact hfrag.offset_eq.ge
  | more _ _ hfrag _ ih =>
      intro raw hraw
      rcases List.mem_cons.mp hraw with rfl | hraw
      · exact hfrag.offset_eq.ge
      · exact (Nat.le_add_right _ _).trans (ih raw hraw)

theorem IsCut.nodup {key : ContextKey} {ihl offset : Nat} {payload : List UInt8}
    {raws : List (List UInt8)} (h : IsCut key ihl offset payload raws) : raws.Nodup := by
  induction h with
  | final _ => exact List.nodup_singleton _
  | more hunits _ hfrag hcut ih =>
      refine List.nodup_cons.mpr ⟨?_, ih⟩
      intro hmem
      have hoffset := IsCut.offset_le hcut _ hmem
      have hown := hfrag.offset_eq
      omega

/-- The excess of the arrivals over the set. -/
theorem ArrivesWithDuplicates.exists_extra {d : Defrager} {key : ContextKey} {ihl : Nat}
    {udpHeader payload : List UInt8} {raws earlier : List (List UInt8)} {last : List UInt8}
    (h : ArrivesWithDuplicates d key ihl udpHeader payload raws earlier last) :
    ∃ extra, extra ≠ [] ∧ (earlier ++ [last]).Perm (raws ++ extra) := by
  have hsubset : raws ⊆ earlier ++ [last] := fun raw hraw => (h.mem_iff raw).mpr hraw
  obtain ⟨order, horder, hsublist⟩ := List.subperm_of_subset (IsCut.nodup h.cut) hsubset
  obtain ⟨extra, hextra⟩ := hsublist.exists_perm_append
  have hperm := hextra.trans (horder.append_right extra)
  refine ⟨extra, ?_, hperm⟩
  rintro rfl
  rw [List.append_nil] at hperm
  have hnodup := hperm.nodup_iff.mpr (IsCut.nodup h.cut)
  exact h.repeated (List.nodup_append.mp hnodup).1

theorem Returns.length_eq {d : Defrager} {key : ContextKey} {ihl : Nat}
    {arrivals : List (List UInt8)} {bytes : List UInt8}
    (hfragments : ∀ raw ∈ arrivals, ∃ off more data, IsFragment key ihl off more data raw)
    (hnone : HoldsNone key d) (h : Returns d arrivals bytes) :
    bytes.length + (ihl * 4 + 8 + (arrivals.length - 1) * ihl) =
      (arrivals.map List.length).sum := by
  obtain ⟨d', packet, next, last, hdefrag, hlast, hcollect⟩ := h
  exact collected_length hfragments hnone hdefrag hlast hcollect

/-- Contiguous fragments pass an offset that lies behind them. -/
theorem notMem_of_contiguousFrom {chain : List SocketBuffer} {expectedOff : Int}
    {skbuf : SocketBuffer}
    (hheaders : ∀ s ∈ chain, (iphdr s).ihl * 4 ≤ hostTotLen s)
    (h : contiguousFrom expectedOff chain = true)
    (hbehind : (hostOff skbuf * 8 : Int) < expectedOff) :
    skbuf ∉ chain := by
  induction chain generalizing expectedOff with
  | nil => exact List.not_mem_nil
  | cons curr next ih =>
      simp only [contiguousFrom] at h
      split at h
      · cases h
      · rename_i hoff
        have hheader := hheaders curr (by simp)
        have hnext := ih (fun s hs => hheaders s (by simp [hs])) h (by omega)
        intro hmem
        rcases List.mem_cons.mp hmem with rfl | hmem
        · omega
        · exact hnext hmem

/-- A chain that holds a fragment with data twice is not contiguous. -/
theorem count_le_one_of_contiguousFrom {chain : List SocketBuffer} {expectedOff : Int}
    {skbuf : SocketBuffer} (hdata : 0 < dataLen skbuf)
    (hheaders : ∀ s ∈ chain, (iphdr s).ihl * 4 ≤ hostTotLen s)
    (h : contiguousFrom expectedOff chain = true) : chain.count skbuf ≤ 1 := by
  induction chain generalizing expectedOff with
  | nil => exact Nat.zero_le 1
  | cons curr next ih =>
      simp only [contiguousFrom] at h
      split at h
      · cases h
      · have hlater := fun s hs => hheaders s (List.mem_cons_of_mem curr hs)
        rcases eq_or_ne curr skbuf with rfl | hne
        · unfold dataLen at hdata
          have hnone : curr ∉ next := notMem_of_contiguousFrom hlater h (by omega)
          rw [List.count_cons_self, List.count_eq_zero_of_not_mem hnone]
        · rw [List.count_cons_of_ne hne]
          exact ih hlater h

/-- A fragment with data that the chain of its key holds twice, or would hold twice,
keeps the chain from being returned. -/
theorem defrag_of_count {key : ContextKey} {d d' : Defrager} {skbuf arrival : SocketBuffer}
    {result : List SocketBuffer} (hdata : 0 < dataLen skbuf) (hkey : contextKey arrival = key)
    (hcount : 2 ≤ (arrival :: chainOf key d).count skbuf)
    (hheaders : ∀ s ∈ arrival :: chainOf key d, (iphdr s).ihl * 4 ≤ hostTotLen s)
    (h : defrag d arrival = some (d', result)) :
    result = [] ∧ 2 ≤ (chainOf key d').count skbuf ∧
      ∀ s ∈ chainOf key d', (iphdr s).ihl * 4 ≤ hostTotLen s := by
  obtain ⟨chain, hinsert, hcase⟩ := defrag_spec h
  rw [hkey] at hinsert hcase
  have hperm := insert_perm hinsert
  have hchain : ∀ s ∈ chain, (iphdr s).ihl * 4 ≤ hostTotLen s :=
    fun s hs => hheaders s (hperm.mem_iff.mp hs)
  have htwice : 2 ≤ chain.count skbuf := by
    rw [hperm.count_eq]
    exact hcount
  rcases hcase with ⟨hcomplete, -⟩ | ⟨-, rfl, rfl⟩
  · have honce := count_le_one_of_contiguousFrom hdata hchain
      (Bool.and_eq_true_iff.mp hcomplete).1
    omega
  · exact ⟨rfl, htwice, hchain⟩

/-- Once a context holds a fragment with data twice, its datagram is lost. -/
theorem results_nil_of_count {key : ContextKey} {d d' : Defrager} {skbuf : SocketBuffer}
    {arrivals : List SocketBuffer} {results : List (List SocketBuffer)}
    (hdata : 0 < dataLen skbuf) (hcount : 2 ≤ (chainOf key d).count skbuf)
    (hchain : ∀ s ∈ chainOf key d, (iphdr s).ihl * 4 ≤ hostTotLen s)
    (harrivals : ∀ s ∈ arrivals, contextKey s = key ∧ (iphdr s).ihl * 4 ≤ hostTotLen s)
    (h : defragAll d arrivals = some (d', results)) : ∀ result ∈ results, result = [] := by
  induction arrivals generalizing d results with
  | nil =>
      simp only [defragAll, Option.some.injEq, Prod.mk.injEq] at h
      obtain ⟨-, rfl⟩ := h
      simp
  | cons first arrivals ih =>
      obtain ⟨d₁, result, rest, hstep, hrest, rfl⟩ := defragAll_cons h
      obtain ⟨hkey, hheader⟩ := harrivals first (by simp)
      obtain ⟨rfl, htwice, hheaders⟩ := defrag_of_count hdata hkey
        (hcount.trans List.count_le_count_cons) (List.forall_mem_cons.mpr ⟨hheader, hchain⟩) hstep
      refine List.forall_mem_cons.mpr ⟨rfl, ?_⟩
      exact ih htwice hheaders (fun s hs => harrivals s (by simp [hs])) hrest

theorem IsFragment.dataLen_eq {key : ContextKey} {ihl offset : Nat} {more : Bool}
    {data raw : List UInt8} (h : IsFragment key ihl offset more data raw) :
    (iphdr (tunDeviceRx raw)).ihl * 4 ≤ hostTotLen (tunDeviceRx raw) ∧
      dataLen (tunDeviceRx raw) = raw.length - ihl * 4 := by
  have hihl : (iphdr (tunDeviceRx raw)).ihl = ihl := h.ihl_eq
  rw [dataLen, hihl, h.totLen_eq]
  exact ⟨h.header_le, rfl⟩

/-- Feeding a fragment with data that its context already holds loses the datagram. -/
theorem results_nil_of_mem {key : ContextKey} {ihl offset : Nat} {payload : List UInt8}
    {raws : List (List UInt8)} (hcut : IsCut key ihl offset payload raws) {d d' : Defrager}
    {raw : List UInt8} {later : List (List UInt8)} {results : List (List SocketBuffer)}
    (hdata : ihl * 4 < raw.length) (hheld : tunDeviceRx raw ∈ chainOf key d)
    (hchain : ∀ s ∈ chainOf key d, ∃ r ∈ raws, s = tunDeviceRx r)
    (hlater : ∀ r ∈ raw :: later, r ∈ raws)
    (h : defragAll d ((raw :: later).map tunDeviceRx) = some (d', results)) :
    ∀ result ∈ results, result = [] := by
  have hfragments : ∀ r ∈ raws, contextKey (tunDeviceRx r) = key ∧
      (iphdr (tunDeviceRx r)).ihl * 4 ≤ hostTotLen (tunDeviceRx r) ∧
        dataLen (tunDeviceRx r) = r.length - ihl * 4 := by
    intro r hr
    obtain ⟨off, more, data, hfrag⟩ := hcut.isFragment r hr
    exact ⟨hfrag.key_eq, IsFragment.dataLen_eq hfrag⟩
  have hheaders : ∀ s ∈ chainOf key d, (iphdr s).ihl * 4 ≤ hostTotLen s := by
    intro s hs
    obtain ⟨r, hr, rfl⟩ := hchain s hs
    exact (hfragments r hr).2.1
  obtain ⟨hkey, hheader, hlen⟩ := hfragments raw (hlater raw (by simp))
  have hpositive : 0 < dataLen (tunDeviceRx raw) := by omega
  have htwice : 2 ≤ (tunDeviceRx raw :: chainOf key d).count (tunDeviceRx raw) := by
    rw [List.count_cons_self]
    exact Nat.succ_le_succ (List.count_pos_iff.mpr hheld)
  obtain ⟨d₁, result, rest, hstep, hrest, rfl⟩ := defragAll_cons h
  obtain ⟨rfl, hcount, hkept⟩ := defrag_of_count hpositive hkey htwice
    (List.forall_mem_cons.mpr ⟨hheader, hheaders⟩) hstep
  refine List.forall_mem_cons.mpr ⟨rfl, results_nil_of_count hpositive hcount hkept ?_ hrest⟩
  intro s hs
  obtain ⟨r, hr, rfl⟩ := List.mem_map.mp hs
  obtain ⟨hrkey, hrheader, -⟩ := hfragments r (hlater r (by simp [hr]))
  exact ⟨hrkey, hrheader⟩

/-- No duplicate is harmless. -/
theorem not_harmless_of_duplicates {d : Defrager} {key : ContextKey} {ihl : Nat}
    {udpHeader payload : List UInt8} {raws earlier : List (List UInt8)} {last : List UInt8}
    (h : ArrivesWithDuplicates d key ihl udpHeader payload raws earlier last) :
    ¬ Harmless d raws (earlier ++ [last]) := by
  rintro ⟨order, bytes, horder, honce, hagain⟩
  have hfragments := h.cut.isFragment
  have hcountOnce := honce.length_eq
    (fun raw hraw => hfragments raw (horder.mem_iff.mp hraw)) h.holdsNone
  have hcountAgain := hagain.length_eq
    (fun raw hraw => hfragments raw ((h.mem_iff raw).mp hraw)) h.holdsNone
  obtain ⟨extra, hextra, hperm⟩ := h.exists_extra
  have hlong : ∀ raw ∈ extra, ihl * 4 ≤ raw.length := by
    intro raw hraw
    have hmem := hperm.mem_iff.mpr (List.mem_append_right raws hraw)
    obtain ⟨off, more, data, hfrag⟩ := hfragments raw ((h.mem_iff raw).mp hmem)
    exact hfrag.header_le
  have hsum : extra.length * (ihl * 4) ≤ (extra.map List.length).sum := by
    have hbound := List.card_nsmul_le_sum (extra.map List.length) (ihl * 4) (by simpa using hlong)
    rwa [List.length_map, smul_eq_mul] at hbound
  have htotal : ((earlier ++ [last]).map List.length).sum =
      (raws.map List.length).sum + (extra.map List.length).sum := by
    rw [(hperm.map List.length).sum_nat, List.map_append, List.sum_append]
  have hset : (order.map List.length).sum = (raws.map List.length).sum :=
    (horder.map List.length).sum_nat
  have harrivals : (earlier ++ [last]).length = raws.length + extra.length := by
    rw [hperm.length_eq, List.length_append]
  have hfragment : 1 ≤ raws.length :=
    List.length_pos_of_mem ((h.mem_iff last).mp (by simp))
  obtain ⟨n, hn⟩ : ∃ n, raws.length = n + 1 := ⟨raws.length - 1, by omega⟩
  -- the excess adds its bytes less `ihl` for each fragment
  have hbegins : (raws.length + extra.length - 1) * ihl = n * ihl + extra.length * ihl := by
    rw [hn, Nat.add_right_comm, Nat.add_sub_cancel, Nat.add_mul]
  rw [htotal, harrivals, hbegins] at hcountAgain
  rw [hset, horder.length_eq, hn, Nat.add_sub_cancel] at hcountOnce
  have hequal : extra.length * (ihl * 4) ≤ extra.length * ihl := by omega
  have hpositive : 0 < extra.length := List.length_pos_iff.mpr hextra
  have hquadruple := Nat.le_of_mul_le_mul_left hequal hpositive
  have hihl := h.ihl_ge
  omega

/-- A set of fragments some of which arrive again is not returned the way it is
returned without them.  A context that is fed a fragment with data which it already
holds never returns its datagram, whatever fragments of the set follow. -/
theorem duplicates_lose_datagram {d : Defrager} {key : ContextKey} {ihl : Nat}
    {udpHeader payload : List UInt8} {raws earlier : List (List UInt8)} {last : List UInt8}
    (h : ArrivesWithDuplicates d key ihl udpHeader payload raws earlier last) :
    ¬ Harmless d raws (earlier ++ [last]) ∧
      ∀ (d₁ d₂ : Defrager) (raw : List UInt8) (later : List (List UInt8))
        (results : List (List SocketBuffer)),
        ihl * 4 < raw.length → tunDeviceRx raw ∈ chainOf key d₁ →
          (∀ skbuf ∈ chainOf key d₁, ∃ r ∈ raws, skbuf = tunDeviceRx r) →
            (∀ r ∈ raw :: later, r ∈ raws) →
              defragAll d₁ ((raw :: later).map tunDeviceRx) = some (d₂, results) →
                ∀ result ∈ results, result = [] := by
  refine ⟨not_harmless_of_duplicates h, ?_⟩
  intro d₁ d₂ raw later results hdata hheld hchain hlater hdefrag
  exact results_nil_of_mem h.cut hdata hheld hchain hlater hdefrag

def sampleFirst : List UInt8 := sampleFragments.headD []

def sampleSecond : List UInt8 := sampleFragments.getLastD []

theorem sampleFragments_arrive_again :
    ArrivesWithDuplicates { defragCtxList := [] } sampleKey 5 sampleUdpHeader samplePayload
      sampleFragments [sampleFirst, sampleFirst] sampleSecond := by
  refine ⟨rfl, by decide, rfl, by decide, sampleFragments_cut,
    sampleFragments_arrive.holdsNone, ?_, by decide, by decide⟩
  intro raw
  simp [sampleFirst, sampleSecond, sampleFragments]

theorem sampleFirst_again_loses_datagram :
    ¬ Harmless { defragCtxList := [] } sampleFragments [sampleFirst, sampleFirst, sampleSecond] ∧
      ∀ d results,
        defragAll { defragCtxList := [{ sampleKey with first := [tunDeviceRx sampleFirst] }] }
            ([sampleFirst, sampleSecond].map tunDeviceRx) = some (d, results) →
          ∀ result ∈ results, result = [] := by
  obtain ⟨hlost, hheld⟩ := duplicates_lose_datagram sampleFragments_arrive_again
  refine ⟨hlost, ?_⟩
  intro d results hdefrag
  have hchain : chainOf sampleKey
      { defragCtxList := [{ sampleKey with first := [tunDeviceRx sampleFirst] }] } =
        [tunDeviceRx sampleFirst] := rfl
  refine hheld _ d sampleFirst [sampleSecond] results (by decide) ?_ ?_ ?_ hdefrag
  · rw [hchain]
    exact List.mem_singleton_self _
  · intro skbuf hskbuf
    rw [hchain, List.mem_singleton] at hskbuf
    exact ⟨sampleFirst, by decide, hskbuf⟩
  · decide

/-- The two fragments make a packet; with the first one twice, they make none. -/
theorem first_fragment_twice :
    ArrivesWithDuplicates { defragCtxList := [] } sampleKey 5 sampleUdpHeader samplePayload
        sampleFragments [sampleFirst, sampleFirst] sampleSecond ∧
      (defragAll { defragCtxList := [] } (sampleFragments.map tunDeviceRx)).map
          (fun run => run.2.map List.length) = some [0, 2] ∧
      (defragAll { defragCtxList := [] }
          ([sampleFirst, sampleFirst, sampleSecond].map tunDeviceRx)).map
          (fun run => run.2.map List.length) = some [0, 0, 0] ∧
      ¬ Harmless { defragCtxList := [] } sampleFragments
        [sampleFirst, sampleFirst, sampleSecond] := by
  have hrun : (defragAll { defragCtxList := [] }
      ([sampleFirst, sampleFirst, sampleSecond].map tunDeviceRx)).map
      (fun run => run.2.map List.length) = some [0, 0, 0] := by
    decide
  refine ⟨sampleFragments_arrive_again, by decide, hrun, ?_⟩
  rintro ⟨order, bytes, -, -, d', packet, next, last, hdefrag, -, -⟩
  rw [hdefrag] at hrun
  simp at hrun

end MuQuinet.DuplicateFragments
