import MuQuinet.DescriptorLeaks

namespace MuQuinet.ServedChannels

open MuQuinet.Lib.Machines
open MuQuinet.EventLoops hiding machine State
open MuQuinet.LiveChannels hiding sampleInitial sampleReading sampleReading_reachable
open MuQuinet.DescriptorLeaks
open MuQuinet.Sockets

def BetweenIterations (m : Mux) : Prop :=
  m.handling = none ∧ m.actives = []

/-- `Mux` keeps the channels that the loop serves, and any other one is destroyed and
closed. -/
def Served (d : Daemon) : Prop :=
  ∀ r, (r ∈ d.mux.rrChannels ↔ .rr r ∈ d.mux.channels) ∧
    (r ∉ d.mux.rrChannels → .rr r ∉ d.mux.channels →
      ¬ d.mux.Alive (.rrChannel r) ∧ .conn r ∉ d.descriptors)

/-- A `::write` to the channel fails, of its own reply or of a notification. -/
def WriteFails (m : Mux) (r : Nat) : Label → Prop
  | .callback (.answered _ writeFails) =>
      writeFails = true ∧ m.handling.map Prod.fst = some (.rr r)
  | .callback (.unregistered gone) => .rr r ∈ gone
  | .unregister c => c = .rr r
  | _ => False

/-- No write to a channel that `Mux` keeps fails, and the iteration does not end while
the IP thread holds a channel that `Mux` removed. -/
def KeepsServed (m : Mux) (a : Label) : Prop :=
  (∀ r ∈ m.rrChannels, ¬ WriteFails m r a) ∧
    (a = .handled → m.actives = [] → ∀ r, .rrChannel r ∈ m.locked → r ∈ m.rrChannels)

/-- What holds of the loop in the runs whose steps keep the channels served. -/
structure Registered (m : Mux) : Prop where
  kept : ∀ r ∈ m.rrChannels, .rr r ∈ m.channels
  live : ∀ c ∈ m.channels, m.Live c
  released : BetweenIterations m → ∀ r, .rrChannel r ∈ m.locked → r ∈ m.rrChannels

/-- Apart from a new connection and a removal, a callback unregisters the channels whose
writes failed, after it may have made a socket. -/
theorem run_unregisters {m m' : Mux} {c : Channel} {callback : Callback} {outcome : Outcome}
    {rest : List Callback} (hhandling : m.handling = some (c, callback :: rest))
    (h : m.run c callback outcome = some m') :
    (∃ connections, m' = Mux.addRRChannel^[connections] m ∧ outcome = .accepted connections) ∨
    (∃ r, m' = m.removeRRChannel r ∧ outcome = .removed ∧ c = .rr r ∧
      (callback = .onRead ∨ callback = .onClose)) ∨
    ∃ m'' gone, m' = m''.unregister gone ∧ (m'' = m ∨ ∃ r type, m'' = m.socketCall r type) ∧
      ∀ r, .rr r ∈ gone ↔ WriteFails m r (.callback outcome) := by
  unfold Mux.run at h
  split at h
  · exact .inl ⟨_, (Option.some.inj h).symm, rfl⟩
  · exact .inr (.inl ⟨_, (Option.some.inj h).symm, rfl, rfl, .inr rfl⟩)
  · exact .inr (.inl ⟨_, (Option.some.inj h).symm, rfl, rfl, .inl rfl⟩)
  · rename_i r socketCall writeFails
    right
    right
    refine ⟨socketCall.elim m (m.socketCall r), if writeFails then [.rr r] else [], ?_, ?_, ?_⟩
    · cases writeFails with
      | true => exact (Option.some.inj h).symm
      | false =>
          rw [if_neg Bool.false_ne_true, unregister_nil]
          exact (Option.some.inj h).symm
    · cases socketCall with
      | none => exact .inl rfl
      | some type => exact .inr ⟨r, type, rfl⟩
    · intro r'
      cases writeFails with
      | true => simp [WriteFails, hhandling, eq_comm]
      | false => simp [WriteFails]
  · exact .inr (.inr ⟨m, _, (Option.some.inj h).symm, .inl rfl, fun _ => .rfl⟩)
  · exact .inr (.inr ⟨m, _, (Option.some.inj h).symm, .inl rfl, fun _ => .rfl⟩)
  · cases h
  · refine .inr (.inr ⟨m, [], ?_, .inl rfl, ?_⟩)
    · rw [unregister_nil]
      exact (Option.some.inj h).symm
    · intro r
      exact iff_of_false List.not_mem_nil id
  · cases h

section Register

variable {m : Mux} {r : Nat}

/-- A channel that `Mux` keeps is not destroyed. -/
theorem rr_mem_destroy (hr : r ∈ m.rrChannels) (h : .rr r ∈ m.channels) :
    .rr r ∈ m.destroy.channels :=
  List.mem_filter.mpr ⟨h, decide_eq_true (mem_held.mpr (.inl hr))⟩

theorem mem_unregister_iff {gone : List Channel} {c : Channel} :
    c ∈ (m.unregister gone).channels ↔ c ∈ m.channels ∧ c ∉ gone := by
  rw [Mux.unregister, List.mem_filter, decide_eq_true_iff]

theorem rr_mem_socketCall {r' : Nat} {type : SocketType} :
    .rr r ∈ (m.socketCall r' type).channels ↔ .rr r ∈ m.channels := by
  cases type <;> simp [Mux.socketCall]

theorem kept_run {m' : Mux} {c : Channel} {callback : Callback} {rest : List Callback}
    {outcome : Outcome} (h : ∀ r ∈ m.rrChannels, .rr r ∈ m.channels)
    (hwrites : ∀ r ∈ m.rrChannels, ¬ WriteFails m r (.callback outcome))
    (hhandling : m.handling = some (c, callback :: rest))
    (hrun : m.run c callback outcome = some m') : ∀ r ∈ m'.rrChannels, .rr r ∈ m'.channels := by
  rcases run_unregisters hhandling hrun with ⟨connections, rfl, -⟩ | ⟨r', rfl, -⟩ |
    ⟨m'', gone, rfl, hsocket, hgone⟩
  · intro r hr
    rw [rr_mem_addRRChannels]
    exact ((mem_rrChannels_addRRChannels m connections r).mp hr).imp_left (h r)
  · intro r hr
    exact h r (List.mem_filter.mp hr).1
  · intro r hr
    rcases hsocket with rfl | ⟨r', type, rfl⟩
    · exact mem_unregister_iff.mpr ⟨h r hr, fun hmem => hwrites r hr ((hgone r).mp hmem)⟩
    · refine mem_unregister_iff.mpr ⟨rr_mem_socketCall.mpr (h r hr), ?_⟩
      exact fun hmem => hwrites r hr ((hgone r).mp hmem)

theorem kept_muxStep {m' : Mux} {a : Label} (h : ∀ r ∈ m.rrChannels, .rr r ∈ m.channels)
    (hwrites : ∀ r ∈ m.rrChannels, ¬ WriteFails m r a) (hstep : MuxStep m a m') :
    ∀ r ∈ m'.rrChannels, .rr r ∈ m'.channels := by
  cases hstep with
  | poll | handle | handled | lock => exact h
  | callback hhandling _ hrun =>
      intro r hr
      exact rr_mem_destroy hr (kept_run h hwrites hhandling hrun r hr)
  | unlock =>
      intro r hr
      exact rr_mem_destroy hr (h r hr)
  | unregister =>
      intro r hr
      refine mem_unregister_iff.mpr ⟨h r hr, ?_⟩
      intro hmem
      exact hwrites r hr (List.mem_singleton.mp hmem).symm

theorem live_muxStep {m' : Mux} {a : Label} (h : ∀ c ∈ m.channels, m.Live c)
    (hstep : MuxStep m a m') : ∀ c ∈ m'.channels, m'.Live c := by
  cases hstep with
  | poll | handle | handled => exact h
  | callback | unlock => exact channels_destroy _
  | lock =>
      intro c hc
      exact live_lock _ (h c hc)
  | unregister =>
      intro c hc
      exact h c (mem_unregister hc)

theorem released_muxStep {m' : Mux} {a : Label}
    (h : BetweenIterations m → ∀ r, .rrChannel r ∈ m.locked → r ∈ m.rrChannels)
    (hreleased : a = .handled → m.actives = [] → ∀ r, .rrChannel r ∈ m.locked → r ∈ m.rrChannels)
    (hstep : MuxStep m a m') :
    BetweenIterations m' → ∀ r, .rrChannel r ∈ m'.locked → r ∈ m'.rrChannels := by
  rintro ⟨hhandling', hactives'⟩
  cases hstep with
  | poll hhandling hactives => exact h ⟨hhandling, hactives⟩
  | handle | callback => cases hhandling'
  | handled => exact hreleased rfl hactives'
  | @lock o halive =>
      have hbetween := h ⟨hhandling', hactives'⟩
      intro r hr
      rcases List.mem_cons.mp hr with rfl | hr
      · exact (mem_held.mp halive).elim id (hbetween r)
      · exact hbetween r hr
  | unlock =>
      intro r hr
      exact h ⟨hhandling', hactives'⟩ r (List.mem_of_mem_erase hr)
  | unregister => exact h ⟨hhandling', hactives'⟩

theorem registered_muxStep {m' : Mux} {a : Label} (h : Registered m) (hkeeps : KeepsServed m a)
    (hstep : MuxStep m a m') : Registered m' where
  kept := kept_muxStep h.kept hkeeps.1 hstep
  live := live_muxStep h.live hstep
  released := released_muxStep h.released hkeeps.2 hstep

theorem registered_initial {d : Daemon} (h : machine.initial d) : Registered d.mux := by
  rw [State.running.inj h.1]
  constructor
  · rintro r ⟨⟩
  · intro c hc
    rw [List.mem_singleton.mp hc]
    trivial
  · rintro - r ⟨⟩

theorem served_of_registered {d : Daemon} (hd : Invariant d) (h : Registered d.mux)
    (hbetween : BetweenIterations d.mux) : Served d := by
  have hheld : ∀ r, r ∈ d.mux.held → r ∈ d.mux.rrChannels := by
    intro r hr
    exact (mem_held.mp hr).elim id (h.released hbetween r)
  intro r
  refine ⟨⟨h.kept r, fun hmem => hheld r (h.live _ hmem)⟩, ?_⟩
  intro hgone _
  have hdead : r ∉ d.mux.held := fun hr => hgone (hheld r hr)
  exact ⟨hdead, fun hconn => hdead ((hd.conn r).mp hconn)⟩

/-- A channel that `Mux` keeps, but of which the loop will not hear again. -/
structure Stranded (m : Mux) (r : Nat) : Prop where
  kept : r ∈ m.rrChannels
  unregistered : .rr r ∉ m.channels
  actives : .rr r ∉ m.actives.map Prod.fst
  handling : ∀ rest, m.handling = some (.rr r, rest) → .onRead ∉ rest ∧ .onClose ∉ rest

theorem stranded_callback {m' : Mux} {c : Channel} {callback : Callback} {rest : List Callback}
    {outcome : Outcome} (htable : Table m) (h : Stranded m r)
    (hhandling : m.handling = some (c, callback :: rest))
    (hrun : m.run c callback outcome = some m') :
    Stranded { m' with handling := some (c, rest) }.destroy r := by
  have hlt : r < m.sockets.length := htable.held_lt r (mem_held.mpr (.inl h.kept))
  have hkept : r ∈ m'.rrChannels ∧ .rr r ∉ m'.channels := by
    rcases run_unregisters hhandling hrun with ⟨connections, rfl, -⟩ |
      ⟨r', rfl, -, rfl, hcallback⟩ | ⟨m'', gone, rfl, hsocket, -⟩
    · rw [mem_rrChannels_addRRChannels, rr_mem_addRRChannels]
      refine ⟨.inl h.kept, ?_⟩
      rintro (hmem | ⟨hle, -⟩)
      · exact h.unregistered hmem
      · omega
    · refine ⟨List.mem_filter.mpr ⟨h.kept, decide_eq_true ?_⟩, h.unregistered⟩
      rintro rfl
      obtain ⟨hread, hclose⟩ := h.handling _ hhandling
      rcases hcallback with rfl | rfl
      · exact hread List.mem_cons_self
      · exact hclose List.mem_cons_self
    · rcases hsocket with rfl | ⟨r', type, rfl⟩
      · exact ⟨h.kept, fun hmem => h.unregistered (mem_unregister hmem)⟩
      · refine ⟨h.kept, fun hmem => h.unregistered ?_⟩
        exact rr_mem_socketCall.mp (mem_unregister hmem)
  constructor
  · exact hkept.1
  · exact fun hmem => hkept.2 (List.mem_filter.mp hmem).1
  · show .rr r ∉ m'.actives.map Prod.fst
    rw [actives_run hrun]
    exact h.actives
  · rintro rest' ⟨⟩
    obtain ⟨hread, hclose⟩ := h.handling _ hhandling
    exact ⟨fun hmem => hread (List.mem_cons_of_mem _ hmem),
      fun hmem => hclose (List.mem_cons_of_mem _ hmem)⟩

/-- Nobody removes a stranded channel and nobody registers it again. -/
theorem stranded_muxStep {m' : Mux} {a : Label} (htable : Table m) (h : Stranded m r)
    (hstep : MuxStep m a m') : Stranded m' r := by
  cases hstep with
  | poll hhandling _ _ hknown =>
      refine ⟨h.kept, h.unregistered, ?_, ?_⟩
      · intro hmem
        obtain ⟨active, hactive, heq⟩ := List.mem_map.mp hmem
        exact h.unregistered (heq ▸ hknown active hactive)
      · intro rest heq
        rw [show _ = none from hhandling] at heq
        cases heq
  | handle hhandling hactives =>
      have hmem := h.actives
      rw [hactives, List.map_cons] at hmem
      refine ⟨h.kept, h.unregistered, fun hrest => hmem (List.mem_cons_of_mem _ hrest), ?_⟩
      rintro rest ⟨⟩
      exact absurd List.mem_cons_self hmem
  | callback hhandling _ hrun => exact stranded_callback htable h hhandling hrun
  | handled => exact ⟨h.kept, h.unregistered, h.actives, by rintro rest ⟨⟩⟩
  | lock => exact ⟨h.kept, h.unregistered, h.actives, h.handling⟩
  | unlock =>
      refine ⟨h.kept, fun hmem => h.unregistered (List.mem_filter.mp hmem).1, h.actives, ?_⟩
      exact h.handling
  | unregister =>
      exact ⟨h.kept, fun hmem => h.unregistered (mem_unregister hmem), h.actives, h.handling⟩

theorem stranded_leads {d d' : Daemon} (hd : Invariant d) (h : Stranded d.mux r)
    (hleads : machine.Leads d d') : Stranded d'.mux r := by
  refine (hleads.invariant (I := fun d => Invariant d ∧ Stranded d.mux r) ?_ ⟨hd, h⟩).2
  rintro d a d' ⟨hd, h⟩ hnext
  refine ⟨invariant_next hd hnext, ?_⟩
  obtain ⟨m, hmux, rfl⟩ := Option.map_eq_some_iff.mp hnext
  exact stranded_muxStep hd.table h (muxStep_of_nextMux hmux)

theorem not_served_of_stranded {d : Daemon} (h : Stranded d.mux r) : ¬ Served d :=
  fun hserved => h.unregistered ((hserved r).1.mp h.kept)

end Register

/-- The order of the callbacks in `handleEventsReceived`. -/
def inOrder : List Callback :=
  [.onClose, .onError, .onRead, .onWrite]

theorem callbacks_sublist (revents : UInt32) : (callbacks revents).Sublist inOrder := by
  have hif : ∀ (p : Prop) [Decidable p] (callback : Callback),
      (if p then [callback] else []).Sublist [callback] := by
    intro p _ callback
    split
    · exact .refl _
    · exact List.nil_sublist _
  exact (((hif _ .onClose).append (hif _ .onError)).append (hif _ .onRead)).append (hif _ .onWrite)

/-- A channel reads and is closed at most once in an iteration, and is not closed after
it read. -/
theorem not_mem_of_onRead {rest : List Callback} (h : (.onRead :: rest).Sublist inOrder) :
    .onRead ∉ rest ∧ .onClose ∉ rest := by
  have hinOrder : inOrder.Pairwise fun before after =>
      after ≠ .onClose ∧ (before = .onRead → after ≠ .onRead) := by
    decide
  have hrest := (List.pairwise_cons.mp (hinOrder.sublist h)).1
  exact ⟨fun hmem => (hrest _ hmem).2 rfl rfl, fun hmem => (hrest _ hmem).1 rfl⟩

structure Ordered (m : Mux) : Prop where
  nodup : (batch m).Nodup
  left : ∀ c rest, m.handling = some (c, rest) → rest.Sublist inOrder

theorem ordered_muxStep {m m' : Mux} {a : Label} (h : Ordered m) (hstep : MuxStep m a m') :
    Ordered m' := by
  cases hstep with
  | poll hhandling _ hnodup =>
      refine ⟨?_, h.left⟩
      rw [batch_of_none (by exact hhandling)]
      exact hnodup
  | handle hhandling hactives =>
      constructor
      · have hnodup := h.nodup
        rw [batch_of_none hhandling, hactives, List.map_cons] at hnodup
        rw [batch_of_handling rfl]
        exact hnodup
      · rintro c rest ⟨⟩
        exact callbacks_sublist _
  | callback hhandling _ hrun =>
      constructor
      · have hnodup := h.nodup
        rw [batch_of_handling hhandling, ← actives_run hrun] at hnodup
        exact hnodup
      · rintro c rest ⟨⟩
        exact (List.sublist_cons_self _ _).trans (h.left _ _ hhandling)
  | handled hhandling =>
      constructor
      · have hnodup := h.nodup
        rw [batch_of_handling hhandling] at hnodup
        exact (List.nodup_cons.mp hnodup).2
      · rintro c rest ⟨⟩
  | lock | unlock | unregister => exact ⟨h.nodup, h.left⟩

theorem ordered {d : Daemon} (h : machine.Reachable d) : Ordered d.mux := by
  refine h.invariant (I := fun d => Ordered d.mux) ?_ ?_
  · rintro d ⟨hmux, -⟩
    rw [State.running.inj hmux]
    constructor
    · exact List.nodup_nil
    · rintro c rest ⟨⟩
  · intro d a d' hd _ hnext
    obtain ⟨m, hmux, rfl⟩ := Option.map_eq_some_iff.mp hnext
    exact ordered_muxStep hd (muxStep_of_nextMux hmux)

theorem onRead_of_answered {m m' : Mux} {c : Channel} {callback : Callback}
    {socketCall : Option SocketType} {writeFails : Bool}
    (h : m.run c callback (.answered socketCall writeFails) = some m') : callback = .onRead := by
  cases c with
  | rr r =>
      cases callback with
      | onRead => rfl
      | _ => cases h
  | _ => cases callback <;> cases h

/-- A failed write to a channel that the iteration has no more use for strands it. -/
theorem stranded_of_writeFails {m m' : Mux} {a : Label} {r : Nat} (h : Ordered m)
    (hr : r ∈ m.rrChannels) (hfails : WriteFails m r a)
    (hbatch : .rr r ∉ batch m ∨ ∃ socketCall, a = .callback (.answered socketCall true))
    (hstep : MuxStep m a m') : Stranded m' r := by
  cases hstep with
  | poll | handle | handled | lock | unlock => cases hfails
  | @callback c callback rest outcome m' hhandling _ hrun =>
      rcases run_unregisters hhandling hrun with ⟨connections, -, rfl⟩ | ⟨r', -, rfl, -⟩ |
        ⟨m'', gone, rfl, hsocket, hgone⟩
      · cases hfails
      · cases hfails
      · have hsame : m''.rrChannels = m.rrChannels ∧ m''.actives = m.actives := by
          rcases hsocket with rfl | ⟨r', type, rfl⟩
          · exact ⟨rfl, rfl⟩
          · exact ⟨rfl, rfl⟩
        have hlater : .rr r ∉ m.actives.map Prod.fst ∧
            (c = .rr r → .onRead ∉ rest ∧ .onClose ∉ rest) := by
          rw [batch_of_handling hhandling] at hbatch
          rcases hbatch with hbatch | ⟨socketCall, heq⟩
          · refine ⟨fun hmem => hbatch (List.mem_cons_of_mem _ hmem), ?_⟩
            rintro rfl
            exact absurd List.mem_cons_self hbatch
          · obtain rfl := Label.callback.inj heq
            have hc : c = .rr r := by simpa [WriteFails, hhandling] using hfails
            have hnodup := h.nodup
            rw [batch_of_handling hhandling, hc] at hnodup
            refine ⟨(List.nodup_cons.mp hnodup).1, fun _ => not_mem_of_onRead ?_⟩
            rw [← onRead_of_answered hrun]
            exact h.left _ _ hhandling
        constructor
        · show r ∈ m''.rrChannels
          rw [hsame.1]
          exact hr
        · intro hmem
          exact (mem_unregister_iff.mp (List.mem_filter.mp hmem).1).2 ((hgone r).mpr hfails)
        · show .rr r ∉ m''.actives.map Prod.fst
          rw [hsame.2]
          exact hlater.1
        · rintro rest' ⟨⟩
          exact hlater.2 rfl
  | unregister =>
      obtain rfl := hfails
      rcases hbatch with hbatch | ⟨socketCall, ⟨⟩⟩
      · rw [batch, List.mem_append, not_or] at hbatch
        refine ⟨hr, fun hmem => (mem_unregister_iff.mp hmem).2 List.mem_cons_self, hbatch.2, ?_⟩
        intro rest heq
        exact absurd (by rw [show m.handling = _ from heq]; exact List.mem_cons_self) hbatch.1

theorem not_served_of_removed {d : Daemon} {r : Nat} (hlocked : .rrChannel r ∈ d.mux.locked)
    (hremoved : r ∉ d.mux.rrChannels) : ¬ Served d := by
  intro hserved
  obtain ⟨hiff, hdestroyed⟩ := hserved r
  have hdead := (hdestroyed hremoved fun hmem => hremoved (hiff.mpr hmem)).1
  exact hdead (mem_held.mpr (.inr hlocked))

/-- Between two iterations the loop serves just the channels that are there, in the runs
whose steps keep them served.  It never does again after a write to a kept channel failed,
and it does not when an iteration leaves a removed channel to the IP thread. -/
theorem served_of_keepsServed (d : Daemon) :
    (machine.ReachableUnder (fun d a => KeepsServed d.mux a) d → BetweenIterations d.mux →
      Served d) ∧
    (∀ d' a r, machine.Reachable d → r ∈ d.mux.rrChannels → WriteFails d.mux r a →
      (.rr r ∉ batch d.mux ∨ ∃ socketCall, a = .callback (.answered socketCall true)) →
      machine.next d a = some d' → ∀ d'', machine.Leads d' d'' → ¬ Served d'') ∧
    ∀ d' r, d.mux.actives = [] → .rrChannel r ∈ d.mux.locked → r ∉ d.mux.rrChannels →
      machine.next d .handled = some d' → BetweenIterations d'.mux ∧ ¬ Served d' := by
  refine ⟨?_, ?_, ?_⟩
  · intro h hbetween
    have hinvariant : Invariant d ∧ Registered d.mux := by
      refine h.invariant (I := fun d => Invariant d ∧ Registered d.mux) ?_ ?_
      · exact fun d hinitial => ⟨invariant_initial hinitial, registered_initial hinitial⟩
      · rintro d a d' ⟨hd, hregistered⟩ hkeeps hnext
        refine ⟨invariant_next hd hnext, ?_⟩
        obtain ⟨m, hmux, rfl⟩ := Option.map_eq_some_iff.mp hnext
        exact registered_muxStep hregistered hkeeps (muxStep_of_nextMux hmux)
    exact served_of_registered hinvariant.1 hinvariant.2 hbetween
  · intro d' a r hreach hr hfails hbatch hnext d'' hleads
    have hd' := invariant_next (invariant hreach) hnext
    obtain ⟨m, hmux, rfl⟩ := Option.map_eq_some_iff.mp hnext
    have hstranded : Stranded m r :=
      stranded_of_writeFails (ordered hreach) hr hfails hbatch (muxStep_of_nextMux hmux)
    exact not_served_of_stranded (stranded_leads hd' hstranded hleads)
  · intro d' r hactives hlocked hremoved hnext
    obtain ⟨m, hmux, rfl⟩ := Option.map_eq_some_iff.mp hnext
    cases muxStep_of_nextMux hmux with
    | handled => exact ⟨⟨rfl, hactives⟩, not_served_of_removed hlocked hremoved⟩

/-- A connection was accepted. -/
def sampleAccepted : Daemon :=
  { mux :=
      { rrChannels := [0]
        sockets := [none]
        nextSocket := 0
        locked := []
        channels := [.listener, .rr 0]
        actives := []
        handling := some (.listener, []) }
    types := []
    descriptors := [.conn 0] }

/-- Its first request could not be answered. -/
def sampleUnanswered : Daemon :=
  { mux :=
      { rrChannels := [0]
        sockets := [none]
        nextSocket := 0
        locked := []
        channels := [.listener]
        actives := []
        handling := some (.rr 0, []) }
    types := []
    descriptors := [.conn 0] }

theorem sampleAccepted_reachable :
    machine.ReachableUnder (fun d a => KeepsServed d.mux a) sampleAccepted := by
  have hexec : machine.exec sampleInitial
      [.poll (some [(.listener, POLLIN)]), .handle, .callback (.accepted 1)] =
        some sampleAccepted := by
    decide
  refine Machine.reachableUnder_of_exec (.initial sampleInitial_initial) ?_ hexec
  intro d a ha
  simp only [List.mem_cons, List.not_mem_nil, or_false] at ha
  rcases ha with rfl | rfl | rfl
  all_goals exact ⟨fun _ _ hfails => hfails, by rintro ⟨⟩⟩

/-- The client went away while the IP thread held its channel. -/
def sampleRemoved : Daemon :=
  { mux :=
      { rrChannels := []
        sockets := [none]
        nextSocket := 0
        locked := [.rrChannel 0]
        channels := [.listener, .rr 0]
        actives := []
        handling := some (.rr 0, []) }
    types := []
    descriptors := [.conn 0] }

theorem served_sample :
    Served { sampleAccepted with mux := { sampleAccepted.mux with handling := none } } ∧
      (∀ d, machine.Leads sampleUnanswered d → ¬ Served d) ∧
      ∀ d, machine.next sampleRemoved .handled = some d → ¬ Served d := by
  have hkeeps : KeepsServed sampleAccepted.mux .handled :=
    ⟨fun _ _ hfails => hfails, by rintro - - r ⟨⟩⟩
  refine ⟨?_, ?_, ?_⟩
  · apply (served_of_keepsServed _).1 (.step sampleAccepted_reachable hkeeps (by decide))
    exact ⟨rfl, rfl⟩
  · apply (served_of_keepsServed sampleReading).2.1 _ (.callback (.answered none true)) 0
    · exact sampleReading_reachable.reachable
    · exact List.mem_cons_self
    · exact ⟨rfl, rfl⟩
    · exact .inr ⟨none, rfl⟩
    · decide
  · intro d hnext
    have hremoved := (served_of_keepsServed sampleRemoved).2.2 d 0 rfl List.mem_cons_self
      List.not_mem_nil hnext
    exact hremoved.2

/-- A reply could not be written.  The channel will not be heard of again and `Mux` keeps
it, with its connection open. -/
theorem failed_write_strands :
    ¬ ∀ d, machine.Reachable d → BetweenIterations d.mux → Served d := by
  intro hserved
  have hexec : machine.exec sampleReading [.callback (.answered none true), .handled] =
      some { sampleUnanswered with mux := { sampleUnanswered.mux with handling := none } } := by
    decide
  have hreach := Machine.reachable_of_exec sampleReading_reachable.reachable hexec
  have hregistered := (hserved _ hreach ⟨rfl, rfl⟩ 0).1.mp List.mem_cons_self
  exact absurd hregistered (by decide)

end MuQuinet.ServedChannels
