import Mathlib.Data.List.Nodup
import MuQuinet.Lib.Isolation
import MuQuinet.Reassembly

namespace MuQuinet.DatagramIsolation

open MuQuinet.Lib.Isolation
open MuQuinet.Buffers
open MuQuinet.Reassembly

/-- The keys of the context list, in its order. -/
def keys (d : Defrager) : List ContextKey :=
  d.defragCtxList.map DefragContext.toContextKey

/-- The contexts of the other keys. -/
def others (key : ContextKey) (d : Defrager) : List DefragContext :=
  d.defragCtxList.filter fun c => c.toContextKey ≠ key

/-- What a datagram's fragments do to its own chain, whatever else the context
list holds. -/
def reassemble (chain : List SocketBuffer) (skbuf : SocketBuffer) :
    Option (List SocketBuffer × List SocketBuffer) :=
  (insert chain skbuf).map fun chain' =>
    if complete chain' then ([], finish chain') else (chain', [])

theorem defragAll_eq_answers (d : Defrager) (arrivals : List SocketBuffer) :
    defragAll d arrivals = answers defrag d arrivals := by
  induction arrivals generalizing d with
  | nil => rfl
  | cons skbuf arrivals ih => simp only [defragAll, answers, ih]

/-- Either the context was there, or it is a new one at the end. -/
theorem locate_split (key : ContextKey) (ctxs : List DefragContext) :
    ctxs = (locate key ctxs).1 ++ (locate key ctxs).2.1 :: (locate key ctxs).2.2 ∨
      ctxs = (locate key ctxs).1 ∧ (locate key ctxs).2.1.first = [] ∧
        (locate key ctxs).2.2 = [] := by
  induction ctxs with
  | nil => exact .inr ⟨rfl, rfl, rfl⟩
  | cons c rest ih =>
      rw [locate]
      split
      · exact .inl rfl
      · rcases ih with hfound | ⟨hbefore, hfirst, hafter⟩
        · exact .inl (congrArg (c :: ·) hfound)
        · exact .inr ⟨congrArg (c :: ·) hbefore, hfirst, hafter⟩

theorem chainOf_eq_find (key : ContextKey) (d : Defrager) :
    chainOf key d =
      ((d.defragCtxList.find? fun c => c.toContextKey = key).map DefragContext.first).getD [] := by
  obtain ⟨ctxs⟩ := d
  simp only [chainOf]
  induction ctxs with
  | nil => rfl
  | cons c rest ih =>
      rw [locate, List.find?_cons]
      rcases eq_or_ne c.toContextKey key with hkey | hkey
      · simp [hkey]
      · simpa [hkey] using ih

theorem chainOf_eq_of_others {key other : ContextKey} (hne : other ≠ key) {d d' : Defrager}
    (h : others key d' = others key d) : chainOf other d' = chainOf other d := by
  have hfind : ∀ ctxs : List DefragContext,
      (ctxs.find? fun c => c.toContextKey = other) =
        (ctxs.filter fun c => c.toContextKey ≠ key).find? fun c => c.toContextKey = other := by
    intro ctxs
    rw [List.find?_filter]
    congr 1
    funext c
    rcases eq_or_ne c.toContextKey other with hc | hc
    · simp [hc, hne]
    · simp [hc]
  unfold others at h
  rw [chainOf_eq_find, chainOf_eq_find, hfind d'.defragCtxList, hfind d.defragCtxList, h]

/-- A call, seen from the chain of its fragment's key. -/
structure CallEffect (d d' : Defrager) (skbuf : SocketBuffer) (result : List SocketBuffer) :
    Prop where
  reassembled : reassemble (chainOf (contextKey skbuf) d) skbuf =
    some (chainOf (contextKey skbuf) d', result)
  others_eq : others (contextKey skbuf) d' = others (contextKey skbuf) d
  keys_nodup : (keys d').Nodup
  removed : result ≠ [] → HoldsNone (contextKey skbuf) d'

theorem keys_split_of_nodup (key : ContextKey) {d : Defrager} (h : (keys d).Nodup) :
    let located := locate key d.defragCtxList
    ((located.1.map DefragContext.toContextKey) ++
      key :: (located.2.2.map DefragContext.toContextKey)).Nodup := by
  have hkey := locate_key key d.defragCtxList
  have hbefore := locate_before key d.defragCtxList
  have hsplit := locate_split key d.defragCtxList
  unfold keys at h
  generalize d.defragCtxList = ctxs at h hkey hbefore hsplit ⊢
  generalize locate key ctxs = located at hkey hbefore hsplit ⊢
  obtain ⟨before, ctx, after⟩ := located
  simp only at hkey hbefore hsplit ⊢
  rcases hsplit with rfl | ⟨rfl, -, rfl⟩
  · simpa [hkey] using h
  · have hfresh : key ∉ ctxs.map DefragContext.toContextKey := by
      intro hmem
      obtain ⟨c, hc, hckey⟩ := List.mem_map.mp hmem
      exact hbefore c hc hckey
    rw [List.map_nil]
    exact List.nodup_append'.mpr ⟨h, List.nodup_singleton key, by simpa using hfresh⟩

theorem others_append {key : ContextKey} {before after : List DefragContext} :
    others key { defragCtxList := before ++ after } =
      others key { defragCtxList := before } ++ others key { defragCtxList := after } := by
  simp only [others, List.filter_append]

theorem others_cons {key : ContextKey} {ctx : DefragContext} (hctx : ctx.toContextKey = key)
    (after : List DefragContext) :
    others key { defragCtxList := ctx :: after } = others key { defragCtxList := after } := by
  simp [others, hctx]

theorem others_split (key : ContextKey) (d : Defrager) :
    let located := locate key d.defragCtxList
    others key d = others key { defragCtxList := located.1 ++ located.2.2 } := by
  have hkey := locate_key key d.defragCtxList
  have hsplit := locate_split key d.defragCtxList
  obtain ⟨ctxs⟩ := d
  simp only at hkey hsplit ⊢
  rcases hsplit with hfound | ⟨hbefore, -, hafter⟩
  · conv_lhs => rw [hfound]
    rw [others_append, others_cons hkey, ← others_append]
  · rw [hafter, List.append_nil, ← hbefore]

theorem holdsNone_of_nodup {key : ContextKey} {before after : List DefragContext}
    (h : (before.map DefragContext.toContextKey ++
      key :: after.map DefragContext.toContextKey).Nodup) :
    HoldsNone key { defragCtxList := before ++ after } := by
  have hfresh := (List.nodup_middle.mp h).notMem
  intro c hc hckey
  apply hfresh
  rw [← List.map_append]
  exact List.mem_map.mpr ⟨c, hc, hckey⟩

theorem defrag_effect {d d' : Defrager} {skbuf : SocketBuffer} {result : List SocketBuffer}
    (hnodup : (keys d).Nodup) (h : defrag d skbuf = some (d', result)) :
    CallEffect d d' skbuf result := by
  have hkeys := keys_split_of_nodup (contextKey skbuf) hnodup
  have hothers := others_split (contextKey skbuf) d
  have hkey := locate_key (contextKey skbuf) d.defragCtxList
  have hbefore := locate_before (contextKey skbuf) d.defragCtxList
  rw [defrag] at h
  have hchain : chainOf (contextKey skbuf) d =
      (locate (contextKey skbuf) d.defragCtxList).2.1.first := rfl
  generalize locate (contextKey skbuf) d.defragCtxList =
    located at h hkeys hothers hkey hbefore hchain
  obtain ⟨before, ctx, after⟩ := located
  simp only at h hkeys hothers hkey hbefore hchain
  cases hinsert : insert ctx.first skbuf with
  | none => simp [hinsert] at h
  | some chain =>
      have hreassemble : reassemble (chainOf (contextKey skbuf) d) skbuf =
          some (if complete chain then ([], finish chain) else (chain, [])) := by
        rw [reassemble, hchain, hinsert, Option.map_some]
      cases hcomplete : complete chain with
      | true =>
          simp only [hinsert, hcomplete, if_true, Option.some.injEq, Prod.mk.injEq] at h hreassemble
          obtain ⟨rfl, rfl⟩ := h
          have hnone := holdsNone_of_nodup hkeys
          constructor
          · rw [hreassemble, chainOf_of_holdsNone hnone]
          · exact hothers.symm
          · rw [keys, List.map_append]
            exact (List.nodup_cons.mp (List.nodup_middle.mp hkeys)).2
          · intro _
            exact hnone
      | false =>
          simp only [hinsert, hcomplete, Bool.false_eq_true, if_false, Option.some.injEq,
            Prod.mk.injEq] at h hreassemble
          obtain ⟨rfl, rfl⟩ := h
          have hkept : ({ ctx with first := chain } : DefragContext).toContextKey =
              contextKey skbuf := hkey
          constructor
          · rw [hreassemble, chainOf, locate_replace hbefore hkept]
          · rw [others_append, others_cons hkept, ← others_append, hothers]
          · rw [keys, List.map_append, List.map_cons, hkept]
            exact hkeys
          · intro hpacket
            exact absurd rfl hpacket

theorem defrag_of_reassemble {d : Defrager} {skbuf : SocketBuffer}
    {outcome : List SocketBuffer × List SocketBuffer}
    (h : reassemble (chainOf (contextKey skbuf) d) skbuf = some outcome) :
    ∃ d' result, defrag d skbuf = some (d', result) := by
  obtain ⟨chain, hinsert, -⟩ := Option.map_eq_some_iff.mp h
  unfold chainOf at hinsert
  simp only [defrag, hinsert]
  split
  · exact ⟨_, _, rfl⟩
  · exact ⟨_, _, rfl⟩

/-- Two context lists hold the same fragments of a key. -/
structure Agree (key : ContextKey) (d e : Defrager) : Prop where
  left_nodup : (keys d).Nodup
  right_nodup : (keys e).Nodup
  chain_eq : chainOf key d = chainOf key e

theorem unwinding (key : ContextKey) :
    Unwinding defrag (fun skbuf => contextKey skbuf = key) (Agree key) := by
  constructor
  · intro d d' e skbuf result hown hagree hdefrag
    obtain rfl := of_decide_eq_true hown
    have heffect := defrag_effect hagree.left_nodup hdefrag
    have hreassemble := heffect.reassembled
    rw [hagree.chain_eq] at hreassemble
    obtain ⟨e', result', hdefrag'⟩ := defrag_of_reassemble hreassemble
    have heffect' := defrag_effect hagree.right_nodup hdefrag'
    have hsame := heffect'.reassembled.symm.trans hreassemble
    simp only [Option.some.injEq, Prod.mk.injEq] at hsame
    obtain ⟨hchain, rfl⟩ := hsame
    exact ⟨e', hdefrag', heffect.keys_nodup, heffect'.keys_nodup, hchain.symm⟩
  · intro d d' e skbuf result hother hagree hdefrag
    have hne : key ≠ contextKey skbuf := Ne.symm (of_decide_eq_false hother)
    have heffect := defrag_effect hagree.left_nodup hdefrag
    refine ⟨heffect.keys_nodup, hagree.right_nodup, ?_⟩
    rw [chainOf_eq_of_others hne heffect.others_eq]
    exact hagree.chain_eq

theorem keys_nodup_of_defragAll {d d' : Defrager} {arrivals : List SocketBuffer}
    {results : List (List SocketBuffer)} (hnodup : (keys d).Nodup)
    (h : defragAll d arrivals = some (d', results)) : (keys d').Nodup := by
  rw [defragAll_eq_answers] at h
  induction arrivals generalizing d results with
  | nil =>
      simp only [answers, Option.some.injEq, Prod.mk.injEq] at h
      rw [← h.1]
      exact hnodup
  | cons skbuf arrivals ih =>
      obtain ⟨d₁, result, rest, hdefrag, hrest, -⟩ := answers_cons_eq_some.mp h
      exact ih (defrag_effect hnodup hdefrag).keys_nodup hrest

def fresh : Defrager :=
  { defragCtxList := [] }

/-- Every prefix of the arrivals reaches a state `d`, in which each key has at
most one context; and a call from there leaves the contexts of the other keys as
they are, and none of its own key when it completes a datagram. -/
def ContextsSeparate (arrivals : List SocketBuffer) : Prop :=
  ∀ earlier later, arrivals = earlier ++ later →
    ∃ d results, defragAll fresh earlier = some (d, results) ∧ (keys d).Nodup ∧
      ∀ skbuf ∈ later.head?, ∃ d' result, defrag d skbuf = some (d', result) ∧
        others (contextKey skbuf) d' = others (contextKey skbuf) d ∧
          (result ≠ [] → HoldsNone (contextKey skbuf) d')

theorem contextsSeparate {arrivals : List SocketBuffer} {d : Defrager}
    {results : List (List SocketBuffer)} (h : defragAll fresh arrivals = some (d, results)) :
    ContextsSeparate arrivals := by
  rintro earlier later rfl
  rw [defragAll_eq_answers] at h
  obtain ⟨d₁, first, rest, hearlier, hlater, -⟩ := answers_append_eq_some.mp h
  rw [← defragAll_eq_answers] at hearlier
  have hempty : (keys fresh).Nodup := List.nodup_nil
  have hnodup := keys_nodup_of_defragAll hempty hearlier
  refine ⟨d₁, first, hearlier, hnodup, ?_⟩
  intro skbuf hskbuf
  rcases later with _ | ⟨next, later⟩
  · cases hskbuf
  · obtain rfl := Option.some.inj hskbuf
    obtain ⟨d₂, result, -, hdefrag, -, -⟩ := answers_cons_eq_some.mp hlater
    have heffect := defrag_effect hnodup hdefrag
    exact ⟨d₂, result, hdefrag, heffect.others_eq, heffect.removed⟩

/-- The fragments of a key get the results they would get alone. -/
theorem datagrams_isolated {arrivals : List SocketBuffer} {d : Defrager}
    {results : List (List SocketBuffer)} (h : defragAll fresh arrivals = some (d, results)) :
    (∀ key, ∃ d', defragAll fresh (arrivals.filter fun skbuf => contextKey skbuf = key) =
      some (d', resultsOf (fun skbuf => contextKey skbuf = key) arrivals results)) ∧
    ContextsSeparate arrivals := by
  constructor
  · intro key
    have hagree : Agree key fresh fresh := ⟨List.nodup_nil, List.nodup_nil, rfl⟩
    have hanswers := h
    rw [defragAll_eq_answers] at hanswers
    obtain ⟨d', hown, -⟩ := (unwinding key).answers_own hagree hanswers
    refine ⟨d', ?_⟩
    rw [defragAll_eq_answers]
    exact hown
  · exact contextsSeparate h

/-- A fragment of eight bytes, of a datagram with a given identification. -/
def sampleFragment (id flags offset : UInt8) : SocketBuffer :=
  tunDeviceRx ([0x45, 0, 0, 28, 0, id, flags, offset, 64, 17, 0, 0, 10, 0, 0, 1, 10, 0, 0, 2] ++
    [0x13, 0x88, 0x23, 0x28, 0, 16, 0, 0])

/-- Two datagrams of two fragments each, the one within the other. -/
def sampleArrivals : List SocketBuffer :=
  [sampleFragment 1 0x20 0, sampleFragment 2 0x20 0, sampleFragment 2 0 1, sampleFragment 1 0 1]

theorem datagrams_isolated_sample :
    ∃ d results, defragAll fresh sampleArrivals = some (d, results) ∧
      results.map List.length = [0, 0, 2, 2] ∧
      (∀ key, ∃ d', defragAll fresh (sampleArrivals.filter fun skbuf => contextKey skbuf = key) =
        some (d', resultsOf (fun skbuf => contextKey skbuf = key) sampleArrivals results)) ∧
      ContextsSeparate sampleArrivals := by
  obtain ⟨d, results, h, hlengths⟩ : ∃ d results,
      defragAll fresh sampleArrivals = some (d, results) ∧
        results.map List.length = [0, 0, 2, 2] := ⟨_, _, rfl, by decide⟩
  obtain ⟨halone, hseparate⟩ := datagrams_isolated h
  exact ⟨d, results, h, hlengths, halone, hseparate⟩

end MuQuinet.DatagramIsolation
