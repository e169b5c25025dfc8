import Mathlib.Data.List.Perm.Basic
import MuQuinet.IpHeaders

namespace MuQuinet.Reassembly

open MuQuinet.Lib.Words
open MuQuinet.Buffers
open MuQuinet.IpHeaders

structure ContextKey where
  ipId : UInt16
  ipProtocol : UInt16
  ipSaddr : UInt32
  ipDaddr : UInt32
deriving DecidableEq, Repr

structure DefragContext extends ContextKey where
  first : List SocketBuffer
deriving DecidableEq, Repr

/-- `Defrager::Impl`, without the lock and the timers. -/
structure Defrager where
  defragCtxList : List DefragContext
deriving DecidableEq, Repr

def contextKey (skbuf : SocketBuffer) : ContextKey :=
  let hdr := iphdr skbuf
  { ipId := hdr.id
    ipProtocol := hdr.protocol.toUInt16
    ipSaddr := hdr.saddr
    ipDaddr := hdr.daddr }

/-- Steps 1 and 2 of `defrag`: the context of a key, appended to the list when
there is none, with the contexts before and after it.  This split of the list
stands for the pointer `ctx`. -/
def locate (key : ContextKey) :
    List DefragContext → List DefragContext × DefragContext × List DefragContext
  | [] => ([], { toContextKey := key, first := [] }, [])
  | c :: rest =>
      if c.toContextKey = key then ([], c, rest)
      else
        let (before, ctx, after) := locate key rest
        (c :: before, ctx, after)

/-- The end of step 3: `prev->next = skbuf; skbuf->next = curr`, where `passed`
are the buffers up to `prev`.  `none` is the null pointer dereference. -/
def link (passed : List SocketBuffer) (skbuf : SocketBuffer)
    (curr : List SocketBuffer) : Option (List SocketBuffer) :=
  if passed = [] then none else some (passed ++ skbuf :: curr)

def insertLoop (oursOff : Nat) (skbuf : SocketBuffer) :
    List SocketBuffer → List SocketBuffer → Option (List SocketBuffer)
  | passed, [] => link passed skbuf []
  | passed, curr :: next =>
      if oursOff > hostOff curr then
        insertLoop oursOff skbuf (passed ++ [curr]) next
      else link passed skbuf (curr :: next)

/-- Step 3.  `ours_off` is taken from the unswapped field. -/
def insert (chain : List SocketBuffer) (skbuf : SocketBuffer) :
    Option (List SocketBuffer) :=
  match chain with
  | [] => some [skbuf]
  | first :: _ =>
      if hostOff first > hostOff skbuf then some (skbuf :: chain)
      else insertLoop (rawOff skbuf) skbuf [] chain

/-- The first loop of step 4: each offset is where the previous fragment ends. -/
def contiguousFrom : Int → List SocketBuffer → Bool
  | _, [] => true
  | expectedOff, curr :: next =>
      let currOff : Int := hostOff curr * 8
      if currOff ≠ expectedOff then false
      else contiguousFrom
        (currOff + hostTotLen curr - (iphdr curr).ihl * 4) next

/-- Step 4: the offsets are contiguous and the last fragment has no MF bit. -/
def complete (chain : List SocketBuffer) : Bool :=
  contiguousFrom 0 chain && chain.getLast?.any fun last => !moreFrag last

/-- `payloadlen`, a `__le16`. -/
def payloadlen (last : SocketBuffer) : UInt16 :=
  .ofNat (hostOff last * 8) + .ofNat (hostTotLen last) -
    .ofNat ((iphdr last).ihl * 4)

/-- Step 5 on the first fragment: write the length of the whole datagram. -/
def rewriteTotLen (len : UInt16) (first : SocketBuffer) : SocketBuffer :=
  { first with
    rawBytes := store16 first.rawBytes (first.network + 2)
      (cpuToBe16 (len + .ofNat ((iphdr first).ihl * 4))) }

/-- Step 5 on the later fragments.  `iphdrlen` counts 32-bit words, and is added
to `rawBytes` as it is. -/
def stripHeader (curr : SocketBuffer) : SocketBuffer :=
  let iphdrlen := (iphdr curr).ihl
  { curr with
    networkHdr := none
    userPayloadBegin := some iphdrlen }

def finish : List SocketBuffer → List SocketBuffer
  | [] => []
  | first :: next =>
      let last := next.getLastD first
      rewriteTotLen (payloadlen last) first :: next.map stripHeader

/-- `Defrager::defrag`.  The second component is the packet, `[]` when it is not
ready; `none` is a crash. -/
def defrag (d : Defrager) (skbuf : SocketBuffer) :
    Option (Defrager × List SocketBuffer) :=
  let (before, ctx, after) := locate (contextKey skbuf) d.defragCtxList
  match insert ctx.first skbuf with
  | none => none
  | some chain =>
      if complete chain then
        some ({ defragCtxList := before ++ after }, finish chain)
      else
        some ({ defragCtxList := before ++ { ctx with first := chain } :: after }, [])

def defragAll : Defrager → List SocketBuffer →
    Option (Defrager × List (List SocketBuffer))
  | d, [] => some (d, [])
  | d, skbuf :: arrivals => do
      let (d', result) ← defrag d skbuf
      let (d'', results) ← defragAll d' arrivals
      return (d'', result :: results)

def chainOf (key : ContextKey) (d : Defrager) : List SocketBuffer :=
  (locate key d.defragCtxList).2.1.first

def HoldsNone (key : ContextKey) (d : Defrager) : Prop :=
  ∀ c ∈ d.defragCtxList, c.toContextKey ≠ key

theorem insertLoop_perm {oursOff : Nat} {skbuf : SocketBuffer}
    {passed curr chain : List SocketBuffer}
    (h : insertLoop oursOff skbuf passed curr = some chain) :
    chain.Perm (skbuf :: (passed ++ curr)) := by
  have hlink : ∀ passed curr : List SocketBuffer, link passed skbuf curr = some chain →
      chain.Perm (skbuf :: (passed ++ curr)) := by
    intro passed curr h
    unfold link at h
    split at h
    · cases h
    · cases h
      exact List.perm_middle
  induction curr generalizing passed with
  | nil => exact hlink passed [] h
  | cons curr next ih =>
      rw [insertLoop] at h
      split at h
      · simpa using ih h
      · exact hlink passed (curr :: next) h

theorem insert_perm {chain chain' : List SocketBuffer} {skbuf : SocketBuffer}
    (h : insert chain skbuf = some chain') : chain'.Perm (skbuf :: chain) := by
  unfold insert at h
  split at h
  · cases h
    exact .refl _
  · split at h
    · cases h
      exact .refl _
    · simpa using insertLoop_perm h

theorem locate_key (key : ContextKey) (ctxs : List DefragContext) :
    (locate key ctxs).2.1.toContextKey = key := by
  induction ctxs with
  | nil => rfl
  | cons c rest ih =>
      rw [locate]
      split
      · assumption
      · exact ih

theorem locate_before (key : ContextKey) (ctxs : List DefragContext) :
    ∀ c ∈ (locate key ctxs).1, c.toContextKey ≠ key := by
  induction ctxs with
  | nil => simp [locate]
  | cons c rest ih =>
      rw [locate]
      split
      · simp
      · rename_i hne
        intro c' hc'
        rcases List.mem_cons.mp hc' with rfl | hc'
        · exact hne
        · exact ih c' hc'

theorem locate_replace {key : ContextKey} {before after : List DefragContext}
    {ctx : DefragContext} (hbefore : ∀ c ∈ before, c.toContextKey ≠ key)
    (hctx : ctx.toContextKey = key) :
    locate key (before ++ ctx :: after) = (before, ctx, after) := by
  induction before with
  | nil => simp [locate, hctx]
  | cons c before ih =>
      have hc : c.toContextKey ≠ key := hbefore c (by simp)
      have hrest := ih fun c' hc' => hbefore c' (by simp [hc'])
      simp [locate, hc, hrest]

theorem locate_absent {key : ContextKey} {ctxs : List DefragContext}
    (h : ∀ c ∈ ctxs, c.toContextKey ≠ key) :
    locate key ctxs = (ctxs, { toContextKey := key, first := [] }, []) := by
  induction ctxs with
  | nil => rfl
  | cons c rest ih =>
      rw [locate, if_neg (h c (by simp)), ih fun c' hc' => h c' (by simp [hc'])]

theorem chainOf_of_holdsNone {key : ContextKey} {d : Defrager}
    (h : HoldsNone key d) : chainOf key d = [] := by
  rw [chainOf, locate_absent h]

/-- What one call does to the chain of its fragment's key: the fragment is
inserted, and the chain is either returned as a packet or kept. -/
theorem defrag_spec {d d' : Defrager} {skbuf : SocketBuffer}
    {result : List SocketBuffer} (h : defrag d skbuf = some (d', result)) :
    ∃ chain, insert (chainOf (contextKey skbuf) d) skbuf = some chain ∧
      (complete chain = true ∧ result = finish chain ∨
        complete chain = false ∧ result = [] ∧
          chainOf (contextKey skbuf) d' = chain) := by
  rw [defrag] at h
  have hkey := locate_key (contextKey skbuf) d.defragCtxList
  have hbefore := locate_before (contextKey skbuf) d.defragCtxList
  rw [chainOf]
  generalize locate (contextKey skbuf) d.defragCtxList = located at h hkey hbefore ⊢
  obtain ⟨before, ctx, after⟩ := located
  simp only at h hkey hbefore ⊢
  cases hinsert : insert ctx.first skbuf with
  | none => simp [hinsert] at h
  | some chain =>
      refine ⟨chain, rfl, ?_⟩
      cases hcomplete : complete chain with
      | true =>
          simp only [hinsert, hcomplete, if_true, Option.some.injEq, Prod.mk.injEq] at h
          exact .inl ⟨rfl, h.2.symm⟩
      | false =>
          simp only [hinsert, hcomplete, Bool.false_eq_true, if_false,
            Option.some.injEq, Prod.mk.injEq] at h
          obtain ⟨rfl, rfl⟩ := h
          refine .inr ⟨rfl, rfl, ?_⟩
          rw [chainOf, locate_replace hbefore (by exact hkey)]

theorem defragAll_cons {d d' : Defrager} {skbuf : SocketBuffer}
    {arrivals : List SocketBuffer} {results : List (List SocketBuffer)}
    (h : defragAll d (skbuf :: arrivals) = some (d', results)) :
    ∃ d₁ result rest, defrag d skbuf = some (d₁, result) ∧
      defragAll d₁ arrivals = some (d', rest) ∧ results = result :: rest := by
  simp only [defragAll, Option.bind_eq_bind, Option.pure_def, Option.bind_eq_some_iff,
    Option.some.injEq, Prod.mk.injEq] at h
  obtain ⟨⟨d₁, result⟩, hstep, ⟨d₂, rest⟩, hrest, rfl, rfl⟩ := h
  exact ⟨d₁, result, rest, hstep, hrest, rfl⟩

theorem defragAll_append {d d' : Defrager} {arrivals : List SocketBuffer}
    {skbuf : SocketBuffer} {results : List (List SocketBuffer)}
    (h : defragAll d (arrivals ++ [skbuf]) = some (d', results)) :
    ∃ d₁ earlier result, defragAll d arrivals = some (d₁, earlier) ∧
      defrag d₁ skbuf = some (d', result) ∧ results = earlier ++ [result] := by
  induction arrivals generalizing d results with
  | nil =>
      simp only [List.nil_append, defragAll, Option.bind_eq_bind, Option.pure_def,
        Option.bind_some, Option.bind_eq_some_iff, Option.some.injEq] at h
      obtain ⟨⟨d₁, result⟩, hstep, hend⟩ := h
      cases hend
      exact ⟨d, [], result, rfl, hstep, rfl⟩
  | cons first arrivals ih =>
      obtain ⟨d₁, r₁, rs, hfirst, hrest, rfl⟩ := defragAll_cons h
      obtain ⟨d₃, earlier, result, hearlier, hstep, rfl⟩ := ih hrest
      refine ⟨d₃, r₁ :: earlier, result, ?_, hstep, rfl⟩
      simp [defragAll, hfirst, hearlier]

theorem finish_ne_nil {chain : List SocketBuffer} (h : chain ≠ []) : finish chain ≠ [] := by
  cases chain with
  | nil => exact absurd rfl h
  | cons first next =>
      intro hnil
      rw [finish] at hnil
      cases hnil

theorem defragAll_collects {key : ContextKey} {d d' : Defrager}
    {arrivals : List SocketBuffer} (hkeys : ∀ skbuf ∈ arrivals, contextKey skbuf = key)
    (h : defragAll d arrivals = some (d', List.replicate arrivals.length [])) :
    (chainOf key d').Perm (arrivals ++ chainOf key d) := by
  induction arrivals generalizing d with
  | nil =>
      simp only [defragAll, List.length_nil, List.replicate_zero, Option.some.injEq,
        Prod.mk.injEq, and_true] at h
      subst h
      exact .refl _
  | cons skbuf arrivals ih =>
      obtain ⟨d₁, result, results, hstep, hrest, hresults⟩ := defragAll_cons h
      obtain ⟨rfl, rfl⟩ := List.cons.inj hresults
      obtain ⟨chain, hinsert, hcase⟩ := defrag_spec hstep
      rw [hkeys skbuf (by simp)] at hinsert hcase
      have hchain := insert_perm hinsert
      rcases hcase with ⟨-, hfinish⟩ | ⟨-, -, hkept⟩
      · have hne : chain ≠ [] := by
          rintro rfl
          simpa using hchain.length_eq
        exact absurd hfinish.symm (finish_ne_nil hne)
      · have hlater := ih (fun s hs => hkeys s (by simp [hs])) hrest
        rw [hkept] at hlater
        have hmerged : (arrivals ++ chain).Perm (skbuf :: (arrivals ++ chainOf key d)) :=
          (hchain.append_left arrivals).trans List.perm_middle
        exact hlater.trans hmerged

/-- The packet that comes back at the last arrival is made of the fragments that
arrived, each once. -/
theorem defragAll_packet {key : ContextKey} {d d' : Defrager}
    {arrivals packet : List SocketBuffer} (hkeys : ∀ skbuf ∈ arrivals, contextKey skbuf = key)
    (hnone : HoldsNone key d) (hne : arrivals ≠ []) (hpacket : packet ≠ [])
    (h : defragAll d arrivals =
      some (d', List.replicate (arrivals.length - 1) [] ++ [packet])) :
    ∃ chain, packet = finish chain ∧ chain.Perm arrivals := by
  obtain ⟨earlier, last, rfl⟩ : ∃ earlier last, arrivals = earlier ++ [last] :=
    ⟨_, _, (List.dropLast_append_getLast hne).symm⟩
  obtain ⟨d₁, results, result, hearlier, hlast, hresults⟩ := defragAll_append h
  simp only [List.length_append, List.length_singleton, Nat.add_sub_cancel] at hresults
  obtain ⟨rfl, rfl⟩ : results = List.replicate earlier.length [] ∧ result = packet := by
    have hsplit := List.append_inj' hresults rfl
    exact ⟨hsplit.1.symm, (List.cons.inj hsplit.2).1.symm⟩
  have hkept := defragAll_collects (fun s hs => hkeys s (by simp [hs])) hearlier
  rw [chainOf_of_holdsNone hnone, List.append_nil] at hkept
  obtain ⟨chain, hinsert, hcase⟩ := defrag_spec hlast
  rw [hkeys last (by simp)] at hinsert
  rcases hcase with ⟨-, hfinish⟩ | ⟨-, hnil, -⟩
  · have hall : ([last] ++ earlier).Perm (earlier ++ [last]) :=
      List.perm_append_comm
    exact ⟨chain, hfinish, (insert_perm hinsert).trans ((hkept.cons last).trans hall)⟩
  · exact absurd hnil hpacket

end MuQuinet.Reassembly
