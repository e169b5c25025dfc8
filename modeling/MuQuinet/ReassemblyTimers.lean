import MuQuinet.DefragRuns

namespace MuQuinet.ReassemblyTimers

open MuQuinet.Lib.Machines
open MuQuinet.Buffers
open MuQuinet.DefragRuns
open MuQuinet.Reassembly

/-- An `ev_timer`: the address of the list node that embeds it, and which of the
contexts that have lived there it was started for. -/
structure Timer where
  address : Nat
  serial : Nat
deriving DecidableEq, Repr

structure TimedContext extends DefragContext where
  timer : Timer
deriving DecidableEq, Repr

/-- `Defrager::Impl` and the timers that are armed in the event loop. -/
structure TimedDefrager where
  defragCtxList : List TimedContext
  armed : List Timer
  created : Nat
deriving DecidableEq, Repr

namespace TimedDefrager

/-- The defrager without its timers. -/
def untimed (d : TimedDefrager) : Defrager :=
  { defragCtxList := d.defragCtxList.map TimedContext.toDefragContext }

def timers (d : TimedDefrager) : List Timer :=
  d.defragCtxList.map TimedContext.timer

def addresses (d : TimedDefrager) : List Nat :=
  d.timers.map Timer.address

/-- `remove_if`, which compares addresses of list nodes. -/
def removeNode (address : Nat) (d : TimedDefrager) : TimedDefrager :=
  { d with defragCtxList := d.defragCtxList.filter fun c => c.timer.address ≠ address }

/-- `ctx->first = chain`, through the pointer to the node at an address. -/
def setFirst (address : Nat) (chain : List SocketBuffer) (d : TimedDefrager) : TimedDefrager :=
  { d with
    defragCtxList := d.defragCtxList.map fun c =>
      if c.timer.address = address then { c with first := chain } else c }

/-- Steps 1 and 2 of `defrag`.  A context that is added lives at `address` and starts
its timer. -/
def locateContext (d : TimedDefrager) (key : ContextKey) (address : Nat) :
    TimedDefrager × TimedContext :=
  match d.defragCtxList.find? fun c => c.toContextKey = key with
  | some ctx => (d, ctx)
  | none =>
      let ctx : TimedContext :=
        { toContextKey := key, first := [], timer := { address := address, serial := d.created } }
      ({ defragCtxList := d.defragCtxList ++ [ctx]
         armed := ctx.timer :: d.armed
         created := d.created + 1 }, ctx)

/-- `Defrager::defrag`, where `address` is that of the node if one is allocated. -/
def defrag (d : TimedDefrager) (skbuf : SocketBuffer) (address : Nat) :
    Option (TimedDefrager × List SocketBuffer) :=
  let (d, ctx) := d.locateContext (contextKey skbuf) address
  match insert ctx.first skbuf with
  | none => none
  | some chain =>
      -- nothing stops the timer of a context whose datagram is complete
      if complete chain then some (d.removeNode ctx.timer.address, finish chain)
      else some (d.setFirst ctx.timer.address chain, [])

/-- `timeout_cb`. -/
def timeoutCb (d : TimedDefrager) (timer : Timer) : TimedDefrager :=
  { d with armed := d.armed.erase timer }.removeNode timer.address

end TimedDefrager

open TimedDefrager

inductive Label
  | defrag (skbuf : SocketBuffer) (address : Nat)
  | timeoutCb (timer : Timer)
deriving DecidableEq, Repr

/-- A node is allocated where no node of the list lives; a timer expires if it is
armed. -/
def next (d : TimedDefrager) : Label → Option TimedDefrager
  | .defrag skbuf address =>
      if address ∈ d.addresses then none else (d.defrag skbuf address).map Prod.fst
  | .timeoutCb timer => if timer ∈ d.armed then some (d.timeoutCb timer) else none

def machine : Machine TimedDefrager Label where
  initial d := d = { defragCtxList := [], armed := [], created := 0 }
  next := next

/-- The armed timers are those of the contexts in the list. -/
def TimersMatch (d : TimedDefrager) : Prop :=
  ∀ timer, timer ∈ d.armed ↔ timer ∈ d.timers

/-- An armed timer removes the context that it was started for, and no other. -/
def ExpireOwn (d : TimedDefrager) : Prop :=
  ∀ timer ∈ d.armed, ∃ before ctx after,
    d.defragCtxList = before ++ ctx :: after ∧ ctx.timer = timer ∧
      next d (.timeoutCb timer) =
        some { d with defragCtxList := before ++ after, armed := d.armed.erase timer }

/-- The step completes no datagram. -/
def CompletesNone (d : TimedDefrager) : Label → Prop
  | .defrag skbuf _ =>
      ∀ chain, insert (chainOf (contextKey skbuf) d.untimed) skbuf = some chain →
        complete chain = false
  | .timeoutCb _ => True

/-- What holds of the timers in every run. -/
structure WellFormed (d : TimedDefrager) : Prop where
  addresses_nodup : d.addresses.Nodup
  armed_nodup : d.armed.Nodup
  armed_lt : ∀ timer ∈ d.armed, timer.serial < d.created
  timers_lt : ∀ timer ∈ d.timers, timer.serial < d.created

variable {d d' : TimedDefrager}

@[simp] theorem timers_setFirst (address : Nat) (chain : List SocketBuffer)
    (d : TimedDefrager) : (d.setFirst address chain).timers = d.timers := by
  simp only [timers, setFirst, List.map_map]
  refine List.map_congr_left fun c _ => ?_
  simp only [Function.comp_apply]
  split <;> rfl

@[simp] theorem addresses_setFirst (address : Nat) (chain : List SocketBuffer)
    (d : TimedDefrager) : (d.setFirst address chain).addresses = d.addresses := by
  rw [addresses, addresses, timers_setFirst]

theorem WellFormed.setFirst (h : WellFormed d) (address : Nat) (chain : List SocketBuffer) :
    WellFormed (d.setFirst address chain) := by
  constructor
  · rw [addresses_setFirst]
    exact h.addresses_nodup
  · exact h.armed_nodup
  · exact h.armed_lt
  · rw [timers_setFirst]
    exact h.timers_lt

theorem WellFormed.removeNode (h : WellFormed d) (address : Nat) :
    WellFormed (d.removeNode address) := by
  have hsublist : (d.removeNode address).timers.Sublist d.timers := List.filter_sublist.map _
  refine ⟨h.addresses_nodup.sublist (hsublist.map _), h.armed_nodup, h.armed_lt, ?_⟩
  intro timer htimer
  exact h.timers_lt timer (hsublist.subset htimer)

/-- The other nodes of a list with a context live elsewhere. -/
theorem WellFormed.address_ne (h : WellFormed d) {before after : List TimedContext}
    {ctx : TimedContext} (hsplit : d.defragCtxList = before ++ ctx :: after) :
    (∀ c ∈ before, c.timer.address ≠ ctx.timer.address) ∧
      ∀ c ∈ after, c.timer.address ≠ ctx.timer.address := by
  have hnodup := h.addresses_nodup
  rw [addresses, timers, hsplit, List.map_map, List.map_append, List.map_cons,
    List.nodup_middle, List.nodup_cons, List.mem_append, not_or] at hnodup
  obtain ⟨⟨hbefore, hafter⟩, -⟩ := hnodup
  constructor
  · intro c hc heq
    exact hbefore (List.mem_map.mpr ⟨c, hc, heq⟩)
  · intro c hc heq
    exact hafter (List.mem_map.mpr ⟨c, hc, heq⟩)

theorem WellFormed.removeNode_split (h : WellFormed d) {before after : List TimedContext}
    {ctx : TimedContext} (hsplit : d.defragCtxList = before ++ ctx :: after) :
    d.removeNode ctx.timer.address = { d with defragCtxList := before ++ after } := by
  obtain ⟨hbefore, hafter⟩ := h.address_ne hsplit
  rw [TimedDefrager.removeNode, hsplit, List.filter_append, List.filter_cons_of_neg (by simp),
    List.filter_eq_self.mpr fun c hc => by simpa using hbefore c hc,
    List.filter_eq_self.mpr fun c hc => by simpa using hafter c hc]

theorem WellFormed.setFirst_split (h : WellFormed d) {before after : List TimedContext}
    {ctx : TimedContext} (hsplit : d.defragCtxList = before ++ ctx :: after)
    (chain : List SocketBuffer) :
    d.setFirst ctx.timer.address chain =
      { d with defragCtxList := before ++ { ctx with first := chain } :: after } := by
  obtain ⟨hbefore, hafter⟩ := h.address_ne hsplit
  have hkept : ∀ ctxs : List TimedContext, (∀ c ∈ ctxs, c.timer.address ≠ ctx.timer.address) →
      ctxs.map (fun c =>
        if c.timer.address = ctx.timer.address then { c with first := chain } else c) = ctxs := by
    intro ctxs hne
    exact (List.map_congr_left fun c hc => if_neg (hne c hc)).trans (List.map_id _)
  rw [TimedDefrager.setFirst, hsplit, List.map_append, List.map_cons, hkept before hbefore,
    hkept after hafter, if_pos rfl]

/-- What steps 1 and 2 of `defrag` leave: the context of the key, in its place in the
list. -/
structure Located (d : TimedDefrager) (key : ContextKey) (d₁ : TimedDefrager)
    (ctx : TimedContext) : Prop where
  wellFormed : WellFormed d₁
  split : ∃ before after, d₁.defragCtxList = before ++ ctx :: after ∧
    locate key d.untimed.defragCtxList =
      (before.map (·.toDefragContext), ctx.toDefragContext, after.map (·.toDefragContext))
  timersMatch : TimersMatch d → TimersMatch d₁

theorem Located.mem {key : ContextKey} {d₁ : TimedDefrager} {ctx : TimedContext}
    (h : Located d key d₁ ctx) : ctx ∈ d₁.defragCtxList := by
  obtain ⟨before, after, hsplit, -⟩ := h.split
  rw [hsplit]
  exact List.mem_append_right _ List.mem_cons_self

theorem Located.first_eq {key : ContextKey} {d₁ : TimedDefrager} {ctx : TimedContext}
    (h : Located d key d₁ ctx) : ctx.first = chainOf key d.untimed := by
  obtain ⟨before, after, -, hlocate⟩ := h.split
  rw [chainOf, hlocate]

theorem locateContext_spec (h : WellFormed d) (key : ContextKey) {address : Nat}
    (hfree : address ∉ d.addresses) :
    ∃ d₁ ctx, d.locateContext key address = (d₁, ctx) ∧ Located d key d₁ ctx := by
  unfold locateContext
  cases hfind : d.defragCtxList.find? fun c => c.toContextKey = key with
  | some ctx =>
      obtain ⟨hkey, before, after, hsplit, hbefore⟩ := List.find?_eq_some_iff_append.mp hfind
      refine ⟨d, ctx, rfl, h, ⟨before, after, hsplit, ?_⟩, id⟩
      rw [untimed, hsplit, List.map_append, List.map_cons]
      refine locate_replace ?_ (of_decide_eq_true hkey)
      intro c hc
      obtain ⟨node, hnode, rfl⟩ := List.mem_map.mp hc
      simpa using hbefore node hnode
  | none =>
      have habsent : ∀ c ∈ d.untimed.defragCtxList, c.toContextKey ≠ key := by
        intro c hc
        obtain ⟨node, hnode, rfl⟩ := List.mem_map.mp hc
        simpa using List.find?_eq_none.mp hfind node hnode
      have htimers : ∀ ctx : TimedContext,
          (d.defragCtxList ++ [ctx]).map TimedContext.timer = d.timers ++ [ctx.timer] := by
        intro ctx
        rw [List.map_append, timers, List.map_singleton]
      refine ⟨_, _, rfl, ⟨?_, ?_, ?_, ?_⟩, ⟨d.defragCtxList, [], rfl, locate_absent habsent⟩, ?_⟩
      · rw [addresses, timers, htimers, List.map_append, List.map_singleton]
        refine List.nodup_append'.mpr ⟨h.addresses_nodup, List.nodup_singleton _, ?_⟩
        exact List.disjoint_singleton.mpr hfree
      · refine List.nodup_cons.mpr ⟨?_, h.armed_nodup⟩
        intro hmem
        exact Nat.lt_irrefl _ (h.armed_lt _ hmem)
      · refine List.forall_mem_cons.mpr ⟨Nat.lt_succ_self _, ?_⟩
        intro timer htimer
        exact (h.armed_lt timer htimer).trans (Nat.lt_succ_self _)
      · intro timer htimer
        rw [timers, htimers] at htimer
        rcases List.mem_append.mp htimer with htimer | htimer
        · exact (h.timers_lt timer htimer).trans (Nat.lt_succ_self _)
        · obtain rfl := List.mem_singleton.mp htimer
          exact Nat.lt_succ_self _
      · intro hmatch timer
        rw [timers, htimers, List.mem_cons, List.mem_append, List.mem_singleton, hmatch timer]
        exact or_comm

/-- With the timers left out, a call is one of `Reassembly.defrag`. -/
theorem untimed_defrag (h : WellFormed d) (skbuf : SocketBuffer) {address : Nat}
    (hfree : address ∉ d.addresses) :
    (d.defrag skbuf address).map (fun r => (r.1.untimed, r.2)) =
      Reassembly.defrag d.untimed skbuf := by
  obtain ⟨d₁, ctx, hlocated, hspec⟩ := locateContext_spec h (contextKey skbuf) hfree
  obtain ⟨before, after, hsplit, hlocate⟩ := hspec.split
  rw [TimedDefrager.defrag, hlocated, Reassembly.defrag, hlocate]
  simp only
  cases insert ctx.first skbuf with
  | none => rfl
  | some chain =>
      rcases Bool.eq_false_or_eq_true (complete chain) with hcomplete | hcomplete
      · simp only [hcomplete, if_true, Option.map_some, hspec.wellFormed.removeNode_split hsplit,
          untimed, List.map_append]
      · simp only [hcomplete, Bool.false_eq_true, if_false, Option.map_some,
          hspec.wellFormed.setFirst_split hsplit chain, untimed, List.map_append, List.map_cons]

/-- A call that does not crash: its context is removed or kept. -/
theorem next_defrag {skbuf : SocketBuffer} {address : Nat} (h : WellFormed d)
    (hnext : next d (.defrag skbuf address) = some d') :
    ∃ d₁ ctx chain, Located d (contextKey skbuf) d₁ ctx ∧
      insert (chainOf (contextKey skbuf) d.untimed) skbuf = some chain ∧
      (complete chain = true ∧ d' = d₁.removeNode ctx.timer.address ∨
        complete chain = false ∧ d' = d₁.setFirst ctx.timer.address chain) := by
  simp only [next] at hnext
  split at hnext
  · cases hnext
  · rename_i hfree
    obtain ⟨d₁, ctx, hlocated, hspec⟩ := locateContext_spec h (contextKey skbuf) hfree
    obtain ⟨⟨d₂, packet⟩, hdefrag, rfl⟩ := Option.map_eq_some_iff.mp hnext
    rw [TimedDefrager.defrag, hlocated] at hdefrag
    simp only [hspec.first_eq] at hdefrag
    cases hinsert : insert (chainOf (contextKey skbuf) d.untimed) skbuf with
    | none => simp [hinsert] at hdefrag
    | some chain =>
        refine ⟨d₁, ctx, chain, hspec, rfl, ?_⟩
        simp only [hinsert] at hdefrag
        split at hdefrag
        · rename_i hcomplete
          cases hdefrag
          exact .inl ⟨hcomplete, rfl⟩
        · rename_i hcomplete
          cases hdefrag
          exact .inr ⟨Bool.eq_false_iff.mpr hcomplete, rfl⟩

/-- A context that is removed leaves its timer armed. -/
theorem not_timersMatch_removeNode {ctx : TimedContext} (hctx : ctx ∈ d.defragCtxList)
    (hmatch : TimersMatch d) : ¬ TimersMatch (d.removeNode ctx.timer.address) := by
  intro hremoved
  have harmed : ctx.timer ∈ d.armed := (hmatch _).mpr (List.mem_map_of_mem hctx)
  obtain ⟨c, hc, htimer⟩ := List.mem_map.mp ((hremoved ctx.timer).mp harmed)
  have haddress := (List.mem_filter.mp hc).2
  simp [htimer] at haddress

theorem wellFormed_next {label : Label} (h : WellFormed d) (hnext : next d label = some d') :
    WellFormed d' := by
  cases label with
  | defrag skbuf address =>
      obtain ⟨d₁, ctx, chain, hlocated, -, ⟨-, rfl⟩ | ⟨-, rfl⟩⟩ := next_defrag h hnext
      · exact hlocated.wellFormed.removeNode _
      · exact hlocated.wellFormed.setFirst _ _
  | timeoutCb timer =>
      simp only [next] at hnext
      split at hnext
      · cases hnext
        refine WellFormed.removeNode (d := { d with armed := d.armed.erase timer }) ?_ _
        refine ⟨h.addresses_nodup, h.armed_nodup.erase _, ?_, h.timers_lt⟩
        intro other hother
        exact h.armed_lt other (List.mem_of_mem_erase hother)
      · cases hnext

theorem wellFormed_of_reachable {guard : TimedDefrager → Label → Prop}
    (h : machine.ReachableUnder guard d) : WellFormed d := by
  refine h.invariant (I := WellFormed) ?_ ?_
  · rintro d rfl
    exact ⟨List.nodup_nil, List.nodup_nil, by simp, by simp [timers]⟩
  · intro d label d' hwf _ hnext
    exact wellFormed_next hwf hnext

/-- While the timers match, each expires for its own context. -/
theorem expireOwn_of_timersMatch (h : WellFormed d) (hmatch : TimersMatch d) : ExpireOwn d := by
  intro timer harmed
  obtain ⟨ctx, hctx, rfl⟩ := List.mem_map.mp ((hmatch timer).mp harmed)
  obtain ⟨before, after, hsplit⟩ := List.append_of_mem hctx
  refine ⟨before, ctx, after, hsplit, rfl, ?_⟩
  have hremoved := h.removeNode_split hsplit
  simp only [next, if_pos harmed, timeoutCb, TimedDefrager.removeNode, Option.some.injEq,
    TimedDefrager.mk.injEq, and_true] at hremoved ⊢
  exact hremoved

/-- From a state in which the timers match, they match after a step if and only if it
completes no datagram. -/
theorem timersMatch_next_iff {label : Label} (h : WellFormed d) (hmatch : TimersMatch d)
    (hnext : next d label = some d') : TimersMatch d' ↔ CompletesNone d label := by
  cases label with
  | defrag skbuf address =>
      obtain ⟨d₁, ctx, chain, hlocated, hinsert, ⟨hcomplete, rfl⟩ | ⟨hcomplete, rfl⟩⟩ :=
        next_defrag h hnext
      · refine iff_of_false ?_ ?_
        · exact not_timersMatch_removeNode hlocated.mem (hlocated.timersMatch hmatch)
        · intro hnone
          rw [hnone chain hinsert] at hcomplete
          cases hcomplete
      · refine iff_of_true ?_ ?_
        · intro timer
          rw [timers_setFirst]
          exact hlocated.timersMatch hmatch timer
        · intro chain' hinsert'
          obtain rfl := Option.some.inj (hinsert.symm.trans hinsert')
          exact hcomplete
  | timeoutCb timer =>
      refine iff_of_true ?_ trivial
      simp only [next] at hnext
      split at hnext
      · rename_i harmed
        obtain ⟨before, ctx, after, hsplit, htimer, hstep⟩ :=
          expireOwn_of_timersMatch h hmatch timer harmed
        simp only [next, if_pos harmed] at hstep
        cases hnext
        rw [Option.some.inj hstep]
        intro other
        have hnodup : d.timers.Nodup := .of_map _ h.addresses_nodup
        have hlist : d.timers = before.map (·.timer) ++ timer :: after.map (·.timer) := by
          rw [timers, hsplit, List.map_append, List.map_cons, htimer]
        rw [h.armed_nodup.mem_erase_iff, hmatch other, hlist]
        rw [hlist, List.nodup_middle, List.nodup_cons] at hnodup
        simp only [timers, List.map_append, List.mem_append, List.mem_cons]
        constructor
        · rintro ⟨hne, hbefore | hown | hafter⟩
          · exact .inl hbefore
          · exact absurd hown hne
          · exact .inr hafter
        · intro hmem
          refine ⟨?_, hmem.imp_right .inr⟩
          rintro rfl
          exact hnodup.1 (List.mem_append.mpr hmem)
      · cases hnext

/-- While no datagram is completed the armed timers are those of the contexts, and the
first one that is completed leaves a timer armed without a context. -/
theorem timersMatch_of_completesNone (h : machine.ReachableUnder CompletesNone d) :
    TimersMatch d ∧ ExpireOwn d ∧
      ∀ label d', next d label = some d' → (TimersMatch d' ↔ CompletesNone d label) := by
  have hmatch : TimersMatch d := by
    have hboth := h.invariant (I := fun d => WellFormed d ∧ TimersMatch d) ?_ ?_
    · exact hboth.2
    · intro d hinitial
      have hreach : machine.ReachableUnder CompletesNone d := .initial hinitial
      refine ⟨wellFormed_of_reachable hreach, ?_⟩
      obtain rfl : d = { defragCtxList := [], armed := [], created := 0 } := hinitial
      intro timer
      exact Iff.rfl
    · rintro d label d' ⟨hwf, hmatch⟩ hguard hnext
      exact ⟨wellFormed_next hwf hnext, (timersMatch_next_iff hwf hmatch hnext).mpr hguard⟩
  have hwf := wellFormed_of_reachable h
  refine ⟨hmatch, expireOwn_of_timersMatch hwf hmatch, ?_⟩
  intro label d' hnext
  exact timersMatch_next_iff hwf hmatch hnext

def sampleFirst : SocketBuffer := sampleFragment 5 0 true (List.replicate 8 0)

def sampleLast : SocketBuffer := sampleFragment 5 1 false (List.replicate 8 0)

/-- The first fragment of another datagram. -/
def sampleOther : SocketBuffer := tunDeviceRx (sampleFirst.rawBytes.set 5 8)

def sampleWaiting : TimedDefrager :=
  { defragCtxList :=
      [{ contextKey sampleFirst with
         first := [sampleFirst], timer := { address := 0, serial := 0 } }]
    armed := [{ address := 0, serial := 0 }]
    created := 1 }

def sampleCompleted : TimedDefrager :=
  { defragCtxList := [], armed := [{ address := 0, serial := 0 }], created := 1 }

theorem sampleWaiting_reachable : machine.ReachableUnder CompletesNone sampleWaiting := by
  have hinitial : machine.ReachableUnder CompletesNone
      { defragCtxList := [], armed := [], created := 0 } := .initial rfl
  refine hinitial.step (a := .defrag sampleFirst 0) ?_ (by decide)
  intro chain hinsert
  cases hinsert
  decide

theorem sampleWaiting_timersMatch :
    TimersMatch sampleWaiting ∧ ExpireOwn sampleWaiting ∧
      ∀ label d', next sampleWaiting label = some d' →
        (TimersMatch d' ↔ CompletesNone sampleWaiting label) :=
  timersMatch_of_completesNone sampleWaiting_reachable

/-- The timer of a completed datagram stays armed, and expires for the context that
lives at its address by then. -/
theorem stale_timer_removes_other_context :
    machine.Reachable sampleCompleted ∧ ¬ TimersMatch sampleCompleted ∧
      ∃ d d', next sampleCompleted (.defrag sampleOther 0) = some d ∧
        { address := 0, serial := 0 } ∈ d.armed ∧ d.timers = [{ address := 0, serial := 1 }] ∧
        next d (.timeoutCb { address := 0, serial := 0 }) = some d' ∧ d'.defragCtxList = [] := by
  have hcompleted : machine.Reachable sampleCompleted :=
    sampleWaiting_reachable.reachable.step (a := .defrag sampleLast 1) trivial (by decide)
  refine ⟨hcompleted, ?_, _, _, rfl, by decide, by decide, rfl, by decide⟩
  intro hmatch
  have hmem := (hmatch { address := 0, serial := 0 }).mp (by decide)
  exact absurd hmem (by decide)

end MuQuinet.ReassemblyTimers
