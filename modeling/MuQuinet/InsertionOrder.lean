import MuQuinet.Lib.OrderedLists
import MuQuinet.DefragRuns

namespace MuQuinet.InsertionOrder

open MuQuinet.Lib.OrderedLists
open MuQuinet.Buffers
open MuQuinet.DefragRuns
open MuQuinet.IpHeaders
open MuQuinet.Reassembly

/-- Step 3 does not crash, and leaves the buffers of the chain and the new one,
each once, in the order of their offsets. -/
def InsertedInOrder (chain : List SocketBuffer) (skbuf : SocketBuffer) : Prop :=
  ∃ chain', insert chain skbuf = some chain' ∧ chain'.Perm (skbuf :: chain) ∧
    Ordered hostOff chain'

/-- The offset that the loop compares tells the head of the chain from the fragment,
and orders the rest of the chain the way the offset of the fragment does.  A
fragment that goes before the head is not compared by the loop. -/
def OffsetsAgree (chain : List SocketBuffer) (skbuf : SocketBuffer) : Prop :=
  ∀ first ∈ chain.head?, hostOff first > hostOff skbuf ∨
    rawOff skbuf > hostOff first ∧
      ∀ curr ∈ chain, (hostOff curr < rawOff skbuf → hostOff curr ≤ hostOff skbuf) ∧
        (rawOff skbuf ≤ hostOff curr → hostOff skbuf ≤ hostOff curr)

instance (chain : List SocketBuffer) (skbuf : SocketBuffer) :
    Decidable (OffsetsAgree chain skbuf) := by
  unfold OffsetsAgree
  infer_instance

/-- The loop links the fragment in by its unswapped offset. -/
theorem insertLoop_eq (oursOff : Nat) (skbuf : SocketBuffer) (passed curr : List SocketBuffer) :
    insertLoop oursOff skbuf passed curr =
      link (passed ++ curr.takeWhile fun c => decide (hostOff c < oursOff)) skbuf
        (curr.dropWhile fun c => decide (hostOff c < oursOff)) := by
  induction curr generalizing passed with
  | nil => simp [insertLoop]
  | cons curr next ih =>
      rw [insertLoop]
      by_cases hlt : hostOff curr < oursOff
      · rw [if_pos hlt, ih, List.takeWhile_cons_of_pos (by simpa using hlt),
          List.dropWhile_cons_of_pos (by simpa using hlt), List.append_assoc,
          List.singleton_append]
      · rw [if_neg hlt, List.takeWhile_cons_of_neg (by simpa using hlt),
          List.dropWhile_cons_of_neg (by simpa using hlt), List.append_nil]

theorem insert_eq {first : SocketBuffer} {rest : List SocketBuffer} {skbuf : SocketBuffer}
    (hle : hostOff first ≤ hostOff skbuf) :
    insert (first :: rest) skbuf =
      if rawOff skbuf > hostOff first then
        some (placeAt hostOff (rawOff skbuf) skbuf (first :: rest))
      else none := by
  simp only [Reassembly.insert]
  rw [if_neg (Nat.not_lt.mpr hle), insertLoop_eq, List.nil_append, link]
  by_cases hgt : rawOff skbuf > hostOff first
  · rw [if_pos hgt, if_neg]
    · rfl
    · rw [List.takeWhile_cons_of_pos (by simpa using hgt)]
      exact List.cons_ne_nil _ _
  · rw [if_neg hgt, if_pos]
    exact List.takeWhile_cons_of_neg (by simpa using hgt)

theorem insertedInOrder_iff {chain : List SocketBuffer} (hordered : Ordered hostOff chain)
    (skbuf : SocketBuffer) : InsertedInOrder chain skbuf ↔ OffsetsAgree chain skbuf := by
  rcases chain with _ | ⟨first, rest⟩
  · exact iff_of_true ⟨[skbuf], rfl, .refl _, List.pairwise_singleton _ _⟩ (by simp [OffsetsAgree])
  · simp only [OffsetsAgree, List.head?_cons, Option.mem_def, Option.some.injEq, forall_eq']
    by_cases hgt : hostOff first > hostOff skbuf
    · refine iff_of_true ⟨skbuf :: first :: rest, ?_, .refl _, ?_⟩ (.inl hgt)
      · simp only [Reassembly.insert]
        exact if_pos hgt
      · have hfirst := (List.pairwise_cons.mp hordered).1
        refine List.pairwise_cons.mpr ⟨?_, hordered⟩
        intro curr hcurr
        rcases List.mem_cons.mp hcurr with rfl | hmem
        · exact Nat.le_of_lt hgt
        · exact (Nat.le_of_lt hgt).trans (hfirst curr hmem)
    · have hinsert := @insert_eq first rest skbuf (Nat.not_lt.mp hgt)
      rw [or_iff_right hgt, ← ordered_placeAt_iff hordered]
      constructor
      · rintro ⟨chain', hchain', -, hsorted⟩
        rw [hinsert] at hchain'
        split at hchain'
        · rename_i hbelow
          cases hchain'
          exact ⟨hbelow, hsorted⟩
        · cases hchain'
      · rintro ⟨hbelow, hsorted⟩
        rw [if_pos hbelow] at hinsert
        exact ⟨_, hinsert, insert_perm hinsert, hsorted⟩

def AgreesWithChain (d : Defrager) (skbuf : SocketBuffer) : Prop :=
  OffsetsAgree (chainOf (contextKey skbuf) d) skbuf

/-- The chains stay in order in the runs whose fragments have offsets that agree,
and the next fragment is inserted in order exactly if its offset does. -/
theorem inserted_in_order_iff (d : Defrager) :
    (machine.ReachableUnder AgreesWithChain d → Chains (Ordered hostOff) d) ∧
      ∀ skbuf, machine.ReachableUnder AgreesWithChain d →
        (InsertedInOrder (chainOf (contextKey skbuf) d) skbuf ↔ AgreesWithChain d skbuf) := by
  have hchains : machine.ReachableUnder AgreesWithChain d → Chains (Ordered hostOff) d := by
    apply chains_of_reachable List.Pairwise.nil
    intro d skbuf chain hagree hordered hinsert
    obtain ⟨chain', hinsert', -, hsorted⟩ := (insertedInOrder_iff hordered skbuf).mpr hagree
    rw [hinsert, Option.some.injEq] at hinsert'
    rw [hinsert']
    exact hsorted
  refine ⟨hchains, ?_⟩
  intro skbuf h
  exact insertedInOrder_iff ((hchains h).chainOf List.Pairwise.nil _) skbuf

/-- The defrager that waits for what follows the first 256 bytes of a datagram. -/
def sampleDefrager : Defrager :=
  { defragCtxList :=
      [{ ipId := 0x0700
         ipProtocol := 17
         ipSaddr := 0x0100000a
         ipDaddr := 0x0200000a
         first := [sampleFragment 5 0 true (List.replicate 256 0)] }] }

theorem sampleDefrager_reachable : machine.ReachableUnder AgreesWithChain sampleDefrager := by
  have hinitial : machine.ReachableUnder AgreesWithChain { defragCtxList := [] } := .initial rfl
  refine hinitial.step (a := sampleFragment 5 0 true (List.replicate 256 0)) ?_ rfl
  rintro first ⟨⟩

theorem inserted_in_order_sample :
    Chains (Ordered hostOff) sampleDefrager ∧
      (InsertedInOrder
          (chainOf (contextKey (sampleFragment 5 32 true [1])) sampleDefrager)
          (sampleFragment 5 32 true [1]) ↔
        AgreesWithChain sampleDefrager (sampleFragment 5 32 true [1])) :=
  ⟨(inserted_in_order_iff sampleDefrager).1 sampleDefrager_reachable,
    (inserted_in_order_iff sampleDefrager).2 _ sampleDefrager_reachable⟩

/-- The rest of the datagram, at offset 256 without an MF bit, has the unswapped
offset 0: the loop does not pass the first fragment, and `prev` is null. -/
theorem second_fragment_null_prev :
    machine.Reachable sampleDefrager ∧
      insert (chainOf (contextKey (sampleFragment 5 32 false [1])) sampleDefrager)
        (sampleFragment 5 32 false [1]) = none ∧
      ¬ InsertedInOrder (chainOf (contextKey (sampleFragment 5 32 false [1])) sampleDefrager)
        (sampleFragment 5 32 false [1]) := by
  have hcrash : insert (chainOf (contextKey (sampleFragment 5 32 false [1])) sampleDefrager)
      (sampleFragment 5 32 false [1]) = none := by
    decide
  refine ⟨sampleDefrager_reachable.reachable, hcrash, ?_⟩
  rintro ⟨chain, hinsert, -⟩
  rw [hcrash] at hinsert
  cases hinsert

end MuQuinet.InsertionOrder
