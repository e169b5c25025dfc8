import MuQuinet.DefragRuns

namespace MuQuinet.LengthRewrite

open MuQuinet.Lib.Machines
open MuQuinet.Lib.Words
open MuQuinet.Buffers
open MuQuinet.DefragRuns
open MuQuinet.IpHeaders
open MuQuinet.Reassembly

/-- A fragment that was read into a buffer and is long enough for `Ip::start`, with a
total length that covers its header. -/
structure WellFormedFragment (skbuf : SocketBuffer) : Prop where
  wasRead : ∃ bytes, skbuf = tunDeviceRx bytes ∧ 20 ≤ bytes.length
  header_le : (iphdr skbuf).ihl * 4 ≤ hostTotLen skbuf
  totLen_le : hostTotLen skbuf ≤ maxRawBytesSize

def dataLen (skbuf : SocketBuffer) : Nat :=
  hostTotLen skbuf - (iphdr skbuf).ihl * 4

/-- The header of the first fragment and the data of all. -/
def totalLength (chain : List SocketBuffer) : Nat :=
  (chain.head?.elim 0 fun first => (iphdr first).ihl * 4) + (chain.map dataLen).sum

/-- The length in the first header of a packet is that of the datagram, which fits
its field. -/
def LengthExact (chain packet : List SocketBuffer) : Prop :=
  packet.head?.map hostTotLen = some (totalLength chain) ∧ totalLength chain ≤ 65535

/-- The last fragment ends where the length of the datagram still fits 16 bits. -/
def EndsInRange (chain : List SocketBuffer) : Prop :=
  ∀ first ∈ chain.head?, ∀ last ∈ chain.getLast?,
    hostOff last * 8 + dataLen last + (iphdr first).ihl * 4 ≤ 65535

theorem WellFormedFragment.ihl_lt {skbuf : SocketBuffer} (_h : WellFormedFragment skbuf) :
    (iphdr skbuf).ihl < 16 :=
  Nat.mod_lt _ (by decide)

/-- Contiguous fragments end where the last one does. -/
theorem contiguousFrom_end {chain : List SocketBuffer} {expectedOff : Nat}
    (hfragments : ∀ skbuf ∈ chain, WellFormedFragment skbuf)
    (h : contiguousFrom expectedOff chain = true) {last : SocketBuffer}
    (hlast : chain.getLast? = some last) :
    expectedOff + (chain.map dataLen).sum = hostOff last * 8 + dataLen last := by
  induction chain generalizing expectedOff with
  | nil => cases hlast
  | cons curr next ih =>
      simp only [contiguousFrom] at h
      split at h
      · cases h
      · rename_i hoff
        have hstart : hostOff curr * 8 = expectedOff := by omega
        have hheader := (hfragments curr (by simp)).header_le
        rw [List.map_cons, List.sum_cons]
        rcases next with _ | ⟨second, rest⟩
        · obtain rfl : curr = last := by simpa using hlast
          rw [List.map_nil, List.sum_nil, hstart, Nat.add_zero]
        · have hend : (hostOff curr * 8 : Int) + hostTotLen curr - (iphdr curr).ihl * 4 =
              ((expectedOff + dataLen curr : Nat) : Int) := by
            rw [dataLen]
            omega
          rw [hend] at h
          have hrest := ih (fun skbuf hskbuf => hfragments skbuf (by simp [hskbuf])) h
            (by simpa using hlast)
          omega

theorem toNat_payloadlen {last : SocketBuffer} (h : WellFormedFragment last) :
    (payloadlen last).toNat = (hostOff last * 8 + dataLen last) % 65536 := by
  have hheader := h.header_le
  have hlength := h.totLen_le
  unfold maxRawBytesSize at hlength
  simp only [payloadlen, UInt16.toNat_sub, UInt16.toNat_add, UInt16.toNat_ofNat', dataLen]
  omega

theorem hostTotLen_rewriteTotLen {first : SocketBuffer} (h : WellFormedFragment first)
    (len : UInt16) :
    hostTotLen (rewriteTotLen len first) = (len + .ofNat ((iphdr first).ihl * 4)).toNat := by
  obtain ⟨bytes, rfl, hlength⟩ := h.wasRead
  have hroom : 2 + 1 < bytes.length := by omega
  have hload := load16_store16 hroom
    (cpuToBe16 (len + .ofNat ((iphdr (tunDeviceRx bytes)).ihl * 4)))
  change (be16ToCpu (load16 (store16 bytes 2 _) 2)).toNat = _
  rw [hload, be16ToCpu, cpuToBe16, swap16_swap16]

/-- The rewritten length is that of the datagram modulo 2^16. -/
theorem hostTotLen_finish {first : SocketBuffer} {next : List SocketBuffer}
    (hfragments : ∀ skbuf ∈ first :: next, WellFormedFragment skbuf)
    (hcomplete : complete (first :: next) = true) :
    (finish (first :: next)).head?.map hostTotLen =
      some (totalLength (first :: next) % 65536) := by
  simp only [complete, Bool.and_eq_true] at hcomplete
  have hmem : next.getLastD first ∈ first :: next := List.getLastD_mem_cons
  have hlast : (first :: next).getLast? = some (next.getLastD first) := by
    rw [List.getLast?_cons, List.getLastD_eq_getLast?]
  have hcontiguous : contiguousFrom (0 : Nat) (first :: next) = true := hcomplete.1
  have hend := contiguousFrom_end hfragments hcontiguous hlast
  have hihl := (hfragments first (by simp)).ihl_lt
  have hpayload := toNat_payloadlen (hfragments _ hmem)
  simp only [finish, List.head?_cons, Option.map_some, Option.some.injEq]
  rw [hostTotLen_rewriteTotLen (hfragments first (by simp)), UInt16.toNat_add, hpayload,
    ← hend, UInt16.toNat_ofNat', totalLength]
  simp only [List.head?_cons, Option.elim_some]
  omega

/-- Whatever fragments arrived, the length of a packet is right if its last fragment
ends in range, and has wrapped otherwise. -/
theorem length_exact_iff {d d' : Defrager} {skbuf : SocketBuffer} {packet : List SocketBuffer}
    (h : machine.ReachableUnder (fun _ skbuf => WellFormedFragment skbuf) d)
    (hskbuf : WellFormedFragment skbuf) (hdefrag : defrag d skbuf = some (d', packet))
    (hpacket : packet ≠ []) :
    ∃ chain, insert (chainOf (contextKey skbuf) d) skbuf = some chain ∧ packet = finish chain ∧
      (LengthExact chain packet ↔ EndsInRange chain) := by
  obtain ⟨chain, hinsert, hcase⟩ := defrag_spec hdefrag
  rcases hcase with ⟨hcomplete, rfl⟩ | ⟨-, hnil, -⟩
  · refine ⟨chain, hinsert, rfl, ?_⟩
    have hearlier := (buffers_of_reachable h).chainOf (by simp) (contextKey skbuf)
    have hfragments : ∀ other ∈ chain, WellFormedFragment other := by
      intro other hother
      rcases List.mem_cons.mp ((insert_perm hinsert).mem_iff.mp hother) with rfl | hmem
      · exact hskbuf
      · exact hearlier other hmem
    rcases chain with _ | ⟨first, next⟩
    · exact absurd rfl hpacket
    · have hlast : (first :: next).getLast? = some (next.getLastD first) := by
        rw [List.getLast?_cons, List.getLastD_eq_getLast?]
      have hcontiguous : contiguousFrom (0 : Nat) (first :: next) = true :=
        (Bool.and_eq_true_iff.mp hcomplete).1
      have hend := contiguousFrom_end hfragments hcontiguous hlast
      rw [LengthExact, hostTotLen_finish hfragments hcomplete, EndsInRange]
      simp only [hlast, List.head?_cons, Option.mem_def, Option.some.injEq, forall_eq', ← hend,
        totalLength, Option.elim_some]
      omega
  · exact absurd hnil hpacket

/-- 43 fragments of 1496 bytes, one that ends where the last possible one begins, and
that one, in the opposite order. -/
def sampleArrivals : List SocketBuffer :=
  sampleFragment 5 8191 false (List.replicate 1496 0) ::
    sampleFragment 5 8041 true (List.replicate 1200 0) ::
      (List.range 42).reverse.map fun i =>
        sampleFragment 5 (187 * (i + 1)) true (List.replicate 1496 0)

def sampleFirst : SocketBuffer :=
  sampleFragment 5 0 true (List.replicate 1496 0)

theorem wellFormed_sampleFragment (units : Nat) (more : Bool) {n : Nat} (h : n ≤ 1498) :
    WellFormedFragment (sampleFragment 5 units more (List.replicate n 0)) := by
  have hihl : (iphdr (sampleFragment 5 units more (List.replicate n 0))).ihl = 5 :=
    ihl_sampleFragment (by decide) units more _
  have hlength : hostTotLen (sampleFragment 5 units more (List.replicate n 0)) = 20 + n := by
    rw [hostTotLen_sampleFragment units more (by simp; omega), List.length_replicate]
  refine ⟨⟨_, rfl, ?_⟩, ?_, ?_⟩
  · simp [bytesBE16]
  · omega
  · rw [hlength, maxRawBytesSize]
    omega

theorem sampleArrivals_wellFormed : ∀ skbuf ∈ sampleArrivals, WellFormedFragment skbuf := by
  intro skbuf hskbuf
  simp only [sampleArrivals, List.mem_cons, List.mem_map] at hskbuf
  rcases hskbuf with rfl | rfl | ⟨i, -, rfl⟩
  · exact wellFormed_sampleFragment _ _ (by decide)
  · exact wellFormed_sampleFragment _ _ (by decide)
  · exact wellFormed_sampleFragment _ _ (by decide)

def sampleWaiting : Defrager :=
  { defragCtxList :=
      [{ ipId := 0x0700
         ipProtocol := 17
         ipSaddr := 0x0100000a
         ipDaddr := 0x0200000a
         first := [sampleFragment 5 1 false (List.replicate 1 0)] }] }

theorem length_exact_sample :
    ∃ d' packet chain,
      defrag sampleWaiting (sampleFragment 5 0 true (List.replicate 8 0)) = some (d', packet) ∧
      insert (chainOf (contextKey (sampleFragment 5 0 true (List.replicate 8 0))) sampleWaiting)
        (sampleFragment 5 0 true (List.replicate 8 0)) = some chain ∧
      packet = finish chain ∧ (LengthExact chain packet ↔ EndsInRange chain) := by
  have hinitial : machine.ReachableUnder (fun _ skbuf => WellFormedFragment skbuf)
      { defragCtxList := [] } := .initial rfl
  have hwaiting := hinitial.step (t := sampleWaiting)
    (wellFormed_sampleFragment 1 false (n := 1) (by decide)) rfl
  obtain ⟨d', packet, hdefrag, hpacket⟩ : ∃ d' packet,
      defrag sampleWaiting (sampleFragment 5 0 true (List.replicate 8 0)) = some (d', packet) ∧
        packet ≠ [] := ⟨_, _, rfl, List.cons_ne_nil _ _⟩
  obtain ⟨chain, hchain⟩ := length_exact_iff hwaiting
    (wellFormed_sampleFragment 0 true (n := 8) (by decide)) hdefrag hpacket
  exact ⟨d', packet, chain, hdefrag, hchain⟩

/-- A datagram of 67044 bytes is returned as a packet of 1508. -/
theorem wrapped_length :
    ∃ d d' packet chain, machine.ReachableUnder (fun _ skbuf => WellFormedFragment skbuf) d ∧
      WellFormedFragment sampleFirst ∧ defrag d sampleFirst = some (d', packet) ∧ packet ≠ [] ∧
      insert (chainOf (contextKey sampleFirst) d) sampleFirst = some chain ∧
      totalLength chain = 67044 ∧ packet.head?.map hostTotLen = some 1508 ∧
      ¬ LengthExact chain packet := by
  have hrun : (machine.exec { defragCtxList := [] } sampleArrivals).any (fun d =>
      (insert (chainOf (contextKey sampleFirst) d) sampleFirst).any (fun chain =>
        decide (totalLength chain = 67044) &&
          (defrag d sampleFirst).any fun r => r.2.head?.map hostTotLen == some 1508)) = true := by
    decide +kernel
  obtain ⟨d, hexec, hinserted⟩ := (Option.any_eq_true _ _).mp hrun
  obtain ⟨chain, hinsert, hlengths⟩ := (Option.any_eq_true _ _).mp hinserted
  obtain ⟨htotal, hdefragged⟩ := Bool.and_eq_true_iff.mp hlengths
  obtain ⟨⟨d', packet⟩, hdefrag, hlength⟩ := (Option.any_eq_true _ _).mp hdefragged
  have hwrapped : packet.head?.map hostTotLen = some 1508 := eq_of_beq hlength
  have hreached := Machine.reachableUnder_of_exec (.initial rfl)
    (fun _ skbuf hskbuf => sampleArrivals_wellFormed skbuf hskbuf) hexec
  refine ⟨d, d', packet, chain, hreached, wellFormed_sampleFragment _ _ (by decide), hdefrag, ?_,
    hinsert, of_decide_eq_true htotal, hwrapped, ?_⟩
  · rintro rfl
    cases hwrapped
  · intro hexact
    have hfits := hexact.2
    rw [of_decide_eq_true htotal] at hfits
    omega

end MuQuinet.LengthRewrite
