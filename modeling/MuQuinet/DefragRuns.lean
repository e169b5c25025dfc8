import MuQuinet.Lib.Machines
import MuQuinet.DatagramIsolation

namespace MuQuinet.DefragRuns

open MuQuinet.Lib.Machines
open MuQuinet.Lib.Words
open MuQuinet.Buffers
open MuQuinet.DatagramIsolation
open MuQuinet.IpHeaders
open MuQuinet.Reassembly

/-- A defrager that gets one fragment after the other. -/
def machine : Machine Defrager SocketBuffer where
  initial d := d.defragCtxList = []
  next d skbuf := (defrag d skbuf).map Prod.fst

/-- The chain of every context is in the `Q` of its key. -/
def KeyedChains (Q : ContextKey → List SocketBuffer → Prop) (d : Defrager) : Prop :=
  ∀ c ∈ d.defragCtxList, Q c.toContextKey c.first

def Chains (Q : List SocketBuffer → Prop) (d : Defrager) : Prop :=
  ∀ c ∈ d.defragCtxList, Q c.first

section Keyed

variable {Q : ContextKey → List SocketBuffer → Prop} {d d' : Defrager}

theorem KeyedChains.chainOf {key : ContextKey} (h : KeyedChains Q d) (hnil : Q key []) :
    Q key (chainOf key d) := by
  have hkey := locate_key key d.defragCtxList
  unfold Reassembly.chainOf
  rcases locate_split key d.defragCtxList with hfound | ⟨-, hempty, -⟩
  · have hmem : (locate key d.defragCtxList).2.1 ∈ (locate key d.defragCtxList).1 ++
        (locate key d.defragCtxList).2.1 :: (locate key d.defragCtxList).2.2 :=
      List.mem_append_right _ List.mem_cons_self
    rw [← hfound] at hmem
    have hchain := h _ hmem
    rw [hkey] at hchain
    exact hchain
  · rw [hempty]
    exact hnil

/-- Of the chains that a call leaves, only the one of its fragment is new. -/
theorem KeyedChains.defrag {skbuf : SocketBuffer} {packet : List SocketBuffer}
    (h : KeyedChains Q d) (hdefrag : defrag d skbuf = some (d', packet))
    (hinsert : ∀ chain, insert (Reassembly.chainOf (contextKey skbuf) d) skbuf = some chain →
      Q (contextKey skbuf) chain) : KeyedChains Q d' := by
  have hsplit := locate_split (contextKey skbuf) d.defragCtxList
  have hkey := locate_key (contextKey skbuf) d.defragCtxList
  have hothers : ∀ c ∈ (locate (contextKey skbuf) d.defragCtxList).1 ++
      (locate (contextKey skbuf) d.defragCtxList).2.2, Q c.toContextKey c.first := by
    intro c hc
    apply h
    rcases hsplit with hfound | ⟨hbefore, -, hafter⟩
    · rw [hfound]
      rcases List.mem_append.mp hc with hc | hc
      · exact List.mem_append_left _ hc
      · exact List.mem_append_right _ (List.mem_cons_of_mem _ hc)
    · rw [hafter, List.append_nil, ← hbefore] at hc
      exact hc
  unfold Reassembly.chainOf at hinsert
  unfold Reassembly.defrag at hdefrag
  generalize locate (contextKey skbuf) d.defragCtxList = located at hothers hinsert hdefrag hkey
  obtain ⟨before, ctx, after⟩ := located
  dsimp only at hothers hinsert hdefrag hkey
  split at hdefrag
  · cases hdefrag
  · rename_i chain hchain
    split at hdefrag
    · cases hdefrag
      exact hothers
    · cases hdefrag
      intro c hc
      rcases List.mem_append.mp hc with hc | hc
      · exact hothers c (List.mem_append_left _ hc)
      · rcases List.mem_cons.mp hc with rfl | hc
        · rw [hkey]
          exact hinsert chain hchain
        · exact hothers c (List.mem_append_right _ hc)

/-- The fragments of a context are of its datagram. -/
def OfKey (key : ContextKey) (chain : List SocketBuffer) : Prop :=
  ∀ curr ∈ chain, contextKey curr = key

theorem OfKey.insert {skbuf : SocketBuffer} {chain : List SocketBuffer}
    (h : KeyedChains OfKey d)
    (hinsert : Reassembly.insert (Reassembly.chainOf (contextKey skbuf) d) skbuf = some chain) :
    OfKey (contextKey skbuf) chain := by
  intro curr hcurr
  rcases List.mem_cons.mp ((insert_perm hinsert).mem_iff.mp hcurr) with rfl | hmem
  · rfl
  · exact h.chainOf (fun _ hnone => nomatch hnone) curr hmem

theorem KeyedChains.defrag_ofKey {skbuf : SocketBuffer} {packet : List SocketBuffer}
    (h : KeyedChains OfKey d) (hdefrag : Reassembly.defrag d skbuf = some (d', packet)) :
    KeyedChains OfKey d' :=
  h.defrag hdefrag fun _ hinsert => OfKey.insert h hinsert

/-- A packet is of the protocol of the fragment that completes it. -/
theorem protocol_of_packet {skbuf packet : SocketBuffer} {next : List SocketBuffer}
    (h : KeyedChains OfKey d) (hdefrag : Reassembly.defrag d skbuf = some (d', packet :: next)) :
    (iphdr packet).protocol = (iphdr skbuf).protocol := by
  obtain ⟨chain, hinsert, hcase⟩ := defrag_spec hdefrag
  rcases hcase with ⟨-, hfinish⟩ | ⟨-, hnil, -⟩
  · rcases chain with _ | ⟨first, rest⟩
    · cases hfinish
    · obtain ⟨rfl, -⟩ := List.cons.inj hfinish
      have hkey := OfKey.insert h hinsert first List.mem_cons_self
      have hprotocol := congrArg ContextKey.ipProtocol hkey
      have hkept : ∀ word, (store16 first.rawBytes (first.network + 2) word).getD
          (first.network + 9) 0 = first.rawBytes.getD (first.network + 9) 0 :=
        getD_store16_of_ne (by omega) (by omega) first.rawBytes
      exact (hkept _).trans (UInt8.toUInt16_inj.mp hprotocol)
  · cases hnil

end Keyed

variable {Q : List SocketBuffer → Prop} {d d' : Defrager}

theorem Chains.chainOf (h : Chains Q d) (hnil : Q []) (key : ContextKey) : Q (chainOf key d) :=
  KeyedChains.chainOf (Q := fun _ => Q) h hnil

theorem Chains.defrag {skbuf : SocketBuffer} {packet : List SocketBuffer} (h : Chains Q d)
    (hdefrag : defrag d skbuf = some (d', packet))
    (hinsert : ∀ chain, insert (Reassembly.chainOf (contextKey skbuf) d) skbuf = some chain →
      Q chain) : Chains Q d' :=
  KeyedChains.defrag (Q := fun _ => Q) h hdefrag hinsert

/-- What every insertion that meets the guard keeps holds of all chains of a run. -/
theorem chains_of_reachable {guard : Defrager → SocketBuffer → Prop} (hnil : Q [])
    (hinsert : ∀ d skbuf chain, guard d skbuf → Q (chainOf (contextKey skbuf) d) →
      insert (chainOf (contextKey skbuf) d) skbuf = some chain → Q chain)
    (h : machine.ReachableUnder guard d) : Chains Q d := by
  refine h.invariant (I := Chains Q) ?_ ?_
  · intro d hinitial c hc
    have hempty : d.defragCtxList = [] := hinitial
    rw [hempty] at hc
    cases hc
  · intro d skbuf d' hchains hguard hnext
    obtain ⟨⟨d'', packet⟩, hdefrag, rfl⟩ := Option.map_eq_some_iff.mp hnext
    exact hchains.defrag hdefrag fun chain =>
      hinsert d skbuf chain hguard (hchains.chainOf hnil _)

/-- The buffers of all chains arrived, so they are what every arrival is. -/
theorem buffers_of_reachable {P : SocketBuffer → Prop}
    (h : machine.ReachableUnder (fun _ skbuf => P skbuf) d) :
    Chains (fun chain => ∀ skbuf ∈ chain, P skbuf) d := by
  refine chains_of_reachable (by simp) ?_ h
  intro d skbuf chain hskbuf hchain hinsert other hother
  rcases List.mem_cons.mp ((insert_perm hinsert).mem_iff.mp hother) with rfl | hmem
  · exact hskbuf
  · exact hchain other hmem

def bytesBE16 (n : Nat) : List UInt8 :=
  [.ofNat (n / 256), .ofNat (n % 256)]

theorem toNat_be16ToCpu_bytesBE16 {n : Nat} (h : n < 65536) :
    (be16ToCpu (load16 (bytesBE16 n) 0)).toNat = n := by
  have hhigh : n / 256 % 256 = n / 256 := Nat.mod_eq_of_lt (by omega)
  have hword : (load16 (bytesBE16 n) 0).toNat = n / 256 + 256 * (n % 256) := by
    simp only [load16, byteAt, bytesBE16]
    simp [hhigh]
    omega
  rw [be16ToCpu, toNat_swap16, hword]
  omega

/-- A fragment of a UDP datagram from 10.0.0.1, with a header of `ihl` words. -/
def sampleFragment (ihl units : Nat) (more : Bool) (data : List UInt8) : SocketBuffer :=
  tunDeviceRx
    (.ofNat (64 + ihl) :: 0 :: bytesBE16 (ihl * 4 + data.length) ++ [0, 7] ++
      bytesBE16 (if more then 8192 + units else units) ++
      [64, 17, 0, 0, 10, 0, 0, 1, 10, 0, 0, 2] ++ List.replicate (ihl * 4 - 20) 0 ++ data)

theorem ihl_sampleFragment {ihl : Nat} (h : ihl < 16) (units : Nat) (more : Bool)
    (data : List UInt8) : (iphdr (sampleFragment ihl units more data)).ihl = ihl := by
  simp [iphdr, IpHeader.at, sampleFragment, tunDeviceRx, SocketBuffer.network, byteAt, bytesBE16]
  omega

theorem hostTotLen_sampleFragment {ihl : Nat} {data : List UInt8} (units : Nat) (more : Bool)
    (h : ihl * 4 + data.length < 65536) :
    hostTotLen (sampleFragment ihl units more data) = ihl * 4 + data.length :=
  toNat_be16ToCpu_bytesBE16 h

end MuQuinet.DefragRuns
