import MuQuinet.EventLoops

namespace MuQuinet.LiveChannels

open MuQuinet.Lib.Machines
open MuQuinet.EventLoops
open MuQuinet.Sockets

/-- The channels that the iteration has yet to use. -/
def batch (m : Mux) : List Channel :=
  (m.handling.map Prod.fst).toList ++ m.actives.map Prod.fst

theorem batch_of_handling {m : Mux} {c : Channel} {callbacks : List Callback}
    (h : m.handling = some (c, callbacks)) : batch m = c :: m.actives.map Prod.fst := by
  simp [batch, h]

theorem batch_of_none {m : Mux} (h : m.handling = none) : batch m = m.actives.map Prod.fst := by
  simp [batch, h]

/-- Whether a socket without an owner would leave no dangling pointer in the batch:
the IP thread holds it, or its own channel is not there and the one of its PCB is
not there or held by the IP thread. -/
def SocketSpared (m : Mux) (s : Nat) : Prop :=
  .socket s ∈ m.locked ∨
    (.newPacket s ∉ batch m ∧ (.pcb s ∈ m.locked ∨ .connEstab s ∉ batch m))

def Owned (m : Mux) (s : Nat) : Prop :=
  ∃ r ∈ m.held, m.socketOf r = some s

/-- The IP thread lets go of an object that has another owner, or of which the
batch has no channel. -/
def SpareUnlock (m : Mux) : Object → Prop
  | .rrChannel r =>
      r ∈ m.rrChannels ∨ .rrChannel r ∈ m.locked.erase (.rrChannel r) ∨
        (.rr r ∉ batch m ∧ ∀ s, m.socketOf r = some s → SocketSpared m s)
  | .socket s =>
      Owned m s ∨ .socket s ∈ m.locked.erase (.socket s) ∨
        (.newPacket s ∉ batch m ∧ (.pcb s ∈ m.locked ∨ .connEstab s ∉ batch m))
  | .pcb s =>
      Owned m s ∨ .socket s ∈ m.locked ∨ .pcb s ∈ m.locked.erase (.pcb s) ∨
        .connEstab s ∉ batch m

/-- `Mux` removes a channel only while the IP thread holds it, a socket is replaced
only when its channels are not to be used any more, and the IP thread lets go of
nothing that the batch needs. -/
def SparesBatch : State → Label → Prop
  | .running m, .callback .removed =>
      ∀ r, m.handling.map Prod.fst = some (.rr r) → .rrChannel r ∈ m.locked
  | .running m, .callback (.answered (some _) _) =>
      ∀ r s, m.handling.map Prod.fst = some (.rr r) → m.socketOf r = some s → SocketSpared m s
  | .running m, .unlock o => SpareUnlock m o
  | _, _ => True

theorem mem_held {m : Mux} {r : Nat} :
    r ∈ m.held ↔ r ∈ m.rrChannels ∨ .rrChannel r ∈ m.locked := by
  unfold Mux.held
  rw [List.mem_append, List.mem_filterMap]
  refine or_congr_right ⟨?_, ?_⟩
  · rintro ⟨o, ho, heq⟩
    cases o with
    | rrChannel r' =>
        obtain rfl := Option.some.inj heq
        exact ho
    | socket s => cases heq
    | pcb s => cases heq
  · intro hlocked
    exact ⟨.rrChannel r, hlocked, rfl⟩

theorem live_of_kept {m m' : Mux} {c : Channel} (h : m.Live c)
    (hheld : ∀ r ∈ m.held, r ∈ m'.held)
    (hsocket : ∀ r ∈ m.held, ∀ s, m.socketOf r = some s → m'.socketOf r = some s)
    (hlocked : ∀ o ∈ m.locked, o ∈ m'.locked) : m'.Live c := by
  have howned : ∀ s, Owned m s → Owned m' s := by
    rintro s ⟨r, hr, hs⟩
    exact ⟨r, hheld r hr, hsocket r hr s hs⟩
  cases c with
  | listener => trivial
  | rr r => exact hheld r h
  | newPacket s => exact h.imp (hlocked _) (howned s)
  | connEstab s => exact h.imp (hlocked _) (Or.imp (hlocked _) (howned s))

theorem unregister_nil (m : Mux) : m.unregister [] = m := by
  rw [Mux.unregister, List.filter_eq_self.mpr fun c _ => by simp]

theorem run_cases {m m' : Mux} {c : Channel} {callback : Callback} {outcome : Outcome}
    (h : m.run c callback outcome = some m') :
    (∃ connections, m' = Mux.addRRChannel^[connections] m ∧ outcome = .accepted connections) ∨
    (∃ r, m' = m.removeRRChannel r ∧ c = .rr r ∧ outcome = .removed) ∨
    (∃ r type writeFails gone, m' = (m.socketCall r type).unregister gone ∧ c = .rr r ∧
      outcome = .answered (some type) writeFails) ∨
    ∃ gone, m' = m.unregister gone ∧ outcome ≠ .removed ∧
      ∀ type writeFails, outcome ≠ .answered (some type) writeFails := by
  unfold Mux.run at h
  split at h
  · exact .inl ⟨_, (Option.some.inj h).symm, rfl⟩
  · exact .inr (.inl ⟨_, (Option.some.inj h).symm, rfl, rfl⟩)
  · exact .inr (.inl ⟨_, (Option.some.inj h).symm, rfl, rfl⟩)
  · rename_i r socketCall writeFails
    right
    right
    rcases socketCall with _ | type
    · right
      rcases writeFails with _ | _
      · exact ⟨[], by rw [unregister_nil]; exact (Option.some.inj h).symm, by simp, by simp⟩
      · exact ⟨_, (Option.some.inj h).symm, by simp, by simp⟩
    · left
      rcases writeFails with _ | _
      · exact ⟨r, type, _, [], by rw [unregister_nil]; exact (Option.some.inj h).symm, rfl, rfl⟩
      · exact ⟨r, type, _, _, (Option.some.inj h).symm, rfl, rfl⟩
  · exact .inr (.inr (.inr ⟨_, (Option.some.inj h).symm, by simp, by simp⟩))
  · exact .inr (.inr (.inr ⟨_, (Option.some.inj h).symm, by simp, by simp⟩))
  · cases h
  · refine .inr (.inr (.inr ⟨[], ?_, by simp, by simp⟩))
    rw [unregister_nil]
    exact (Option.some.inj h).symm
  · cases h

/-- The steps of the two threads, with what each of them requires. -/
inductive MuxStep (m : Mux) : Label → Mux → Prop
  | poll {actives : List (Channel × UInt32)} : m.handling = none → m.actives = [] →
      (actives.map Prod.fst).Nodup → (∀ active ∈ actives, active.1 ∈ m.channels) →
      MuxStep m (.poll (some actives)) { m with actives := actives }
  | handle {c : Channel} {revents : UInt32} {rest : List (Channel × UInt32)} :
      m.handling = none → m.actives = (c, revents) :: rest →
      MuxStep m .handle { m with handling := some (c, callbacks revents), actives := rest }
  | callback {c : Channel} {callback : Callback} {rest : List Callback} {outcome : Outcome}
      {m' : Mux} : m.handling = some (c, callback :: rest) → m.Live c →
      m.run c callback outcome = some m' →
      MuxStep m (.callback outcome) { m' with handling := some (c, rest) }.destroy
  | handled {c : Channel} : m.handling = some (c, []) →
      MuxStep m .handled { m with handling := none }
  | lock {o : Object} : m.Alive o → MuxStep m (.lock o) (m.lock o)
  | unlock {o : Object} : o ∈ m.locked → MuxStep m (.unlock o) (m.unlock o)
  | unregister {c : Channel} : m.Live c → MuxStep m (.unregister c) (m.unregister [c])

theorem use_running {m m' : Mux} {c : Channel} {r : Option Mux}
    (h : use m c r = some (.running m')) : m.Live c ∧ r = some m' := by
  unfold use at h
  split at h
  · rename_i hlive
    obtain ⟨m'', rfl, hm⟩ := Option.map_eq_some_iff.mp h
    rw [State.running.inj hm]
    exact ⟨hlive, rfl⟩
  · cases h

theorem muxStep_of_step {m m' : Mux} {a : Label} (h : step m a = some (.running m')) :
    MuxStep m a m' := by
  cases a with
  | poll result =>
      rcases result with _ | actives
      · cases h
      · simp only [step] at h
        split at h
        · rename_i hpoll
          cases h
          exact .poll hpoll.1 hpoll.2.1 hpoll.2.2.2.1 hpoll.2.2.2.2
        · cases h
  | handle =>
      simp only [step] at h
      split at h
      · rename_i hhandling hactives
        obtain ⟨-, ⟨⟩⟩ := use_running h
        exact .handle hhandling hactives
      · cases h
  | callback outcome =>
      simp only [step] at h
      split at h
      · rename_i hhandling
        obtain ⟨hlive, hmap⟩ := use_running h
        obtain ⟨m'', hrun, rfl⟩ := Option.map_eq_some_iff.mp hmap
        exact .callback hhandling hlive hrun
      · cases h
  | handled =>
      simp only [step] at h
      split at h
      · rename_i hhandling
        obtain ⟨-, ⟨⟩⟩ := use_running h
        exact .handled hhandling
      · cases h
  | lock o =>
      simp only [step] at h
      split at h
      · rename_i halive
        cases h
        exact .lock halive
      · cases h
  | unlock o =>
      simp only [step] at h
      split at h
      · rename_i hlocked
        cases h
        exact .unlock hlocked
      · cases h
  | unregister c =>
      simp only [step] at h
      split at h
      · rename_i hlive
        cases h
        exact .unregister hlive
      · cases h

theorem socketOf_addRRChannel (m : Mux) (r : Nat) : m.addRRChannel.socketOf r = m.socketOf r := by
  unfold Mux.socketOf Mux.addRRChannel
  rcases Nat.lt_trichotomy r m.sockets.length with hlt | rfl | hgt
  · rw [List.getD_append _ _ _ _ hlt]
  · simp
  · rw [List.getD_eq_default _ _ (by simpa using Nat.succ_le_of_lt hgt),
      List.getD_eq_default _ _ (Nat.le_of_lt hgt)]

theorem live_addRRChannel {m : Mux} {c : Channel} (h : m.Live c) : m.addRRChannel.Live c := by
  refine live_of_kept h ?_ ?_ fun o ho => ho
  · intro r hr
    rw [mem_held] at hr ⊢
    exact hr.imp_left fun hmem => List.mem_append_left _ hmem
  · rintro r - s hs
    rw [socketOf_addRRChannel]
    exact hs

theorem live_addRRChannels {m : Mux} {c : Channel} (connections : Nat) (h : m.Live c) :
    (Mux.addRRChannel^[connections] m).Live c := by
  induction connections generalizing m with
  | zero => exact h
  | succ connections ih => exact ih (live_addRRChannel h)

theorem live_removeRRChannel {m : Mux} {c : Channel} {r : Nat} (h : m.Live c)
    (hlocked : .rrChannel r ∈ m.locked) : (m.removeRRChannel r).Live c := by
  refine live_of_kept h ?_ (fun _ _ _ hs => hs) fun o ho => ho
  intro r' hr'
  rcases eq_or_ne r' r with rfl | hne
  · exact mem_held.mpr (.inr hlocked)
  · refine mem_held.mpr ((mem_held.mp hr').imp_left fun hmem => ?_)
    exact List.mem_filter.mpr ⟨hmem, by simpa using hne⟩

theorem socketOf_socketCall_of_ne (m : Mux) {r r' : Nat} (type : SocketType) (hne : r ≠ r') :
    (m.socketCall r type).socketOf r' = m.socketOf r' := by
  simp [Mux.socketOf, Mux.socketCall, hne]

theorem socketOf_socketCall_self {m : Mux} {r : Nat} (type : SocketType)
    (hr : r < m.sockets.length) : (m.socketCall r type).socketOf r = some m.nextSocket := by
  simp [Mux.socketOf, Mux.socketCall, hr]

theorem owned_socketCall {m : Mux} {r s : Nat} (type : SocketType) (h : Owned m s)
    (hold : m.socketOf r ≠ some s) : Owned (m.socketCall r type) s := by
  obtain ⟨r', hheld, hs⟩ := h
  refine ⟨r', hheld, ?_⟩
  rw [socketOf_socketCall_of_ne]
  · exact hs
  · rintro rfl
    exact hold hs

theorem live_of_spared {m : Mux} {s : Nat} (hspared : SocketSpared m s) (m' : Mux)
    (hsocket : .socket s ∈ m.locked → .socket s ∈ m'.locked)
    (hpcb : .pcb s ∈ m.locked → .pcb s ∈ m'.locked) :
    (.newPacket s ∈ batch m → m'.Live (.newPacket s)) ∧
      (.connEstab s ∈ batch m → m'.Live (.connEstab s)) := by
  constructor
  · intro hbatch
    rcases hspared with hlocked | ⟨hnotBatch, -⟩
    · exact .inl (hsocket hlocked)
    · exact absurd hbatch hnotBatch
  · intro hbatch
    rcases hspared with hlocked | ⟨-, hlocked | hnotBatch⟩
    · exact .inr (.inl (hsocket hlocked))
    · exact .inl (hpcb hlocked)
    · exact absurd hbatch hnotBatch

theorem live_socketCall {m : Mux} {r : Nat} (type : SocketType) {c : Channel}
    (hspared : ∀ s, m.socketOf r = some s → SocketSpared m s) (hbatch : c ∈ batch m)
    (h : m.Live c) : (m.socketCall r type).Live c := by
  cases c with
  | listener => trivial
  | rr r' => exact h
  | newPacket s =>
      by_cases hold : m.socketOf r = some s
      · exact (live_of_spared (hspared s hold) (m.socketCall r type) id id).1 hbatch
      · exact h.imp_right fun howned => owned_socketCall type howned hold
  | connEstab s =>
      by_cases hold : m.socketOf r = some s
      · exact (live_of_spared (hspared s hold) (m.socketCall r type) id id).2 hbatch
      · exact h.imp_right (Or.imp_right fun howned => owned_socketCall type howned hold)

section Unlock

variable {m : Mux} {o : Object}

theorem locked_unlock_of_ne {o' : Object} (hne : o' ≠ o) (h : o' ∈ m.locked) :
    o' ∈ (m.unlock o).locked :=
  (List.mem_erase_of_ne hne).mpr h

theorem held_unlock_of_ne {r : Nat} (hne : .rrChannel r ≠ o) (h : r ∈ m.held) :
    r ∈ (m.unlock o).held :=
  mem_held.mpr ((mem_held.mp h).imp_right (locked_unlock_of_ne hne))

theorem owned_unlock {s : Nat} (hne : ∀ r, .rrChannel r ≠ o) (h : Owned m s) :
    Owned (m.unlock o) s := by
  obtain ⟨r, hr, hs⟩ := h
  exact ⟨r, held_unlock_of_ne (hne r) hr, hs⟩

theorem owned_or_spared_unlock {r s : Nat} (hspare : SpareUnlock m (.rrChannel r))
    (h : Owned m s) : Owned (m.unlock (.rrChannel r)) s ∨ SocketSpared m s := by
  obtain ⟨r', hr', hs⟩ := h
  rcases eq_or_ne r' r with rfl | hne'
  · rcases hspare with hmux | hlocked | ⟨-, hspared⟩
    · exact .inl ⟨r', mem_held.mpr (.inl hmux), hs⟩
    · exact .inl ⟨r', mem_held.mpr (.inr hlocked), hs⟩
    · exact .inr (hspared s hs)
  · exact .inl ⟨r', held_unlock_of_ne (by simpa using hne') hr', hs⟩

theorem live_unlock_rrChannel {r : Nat} {c : Channel} (hspare : SpareUnlock m (.rrChannel r))
    (hbatch : c ∈ batch m) (h : m.Live c) : (m.unlock (.rrChannel r)).Live c := by
  have hkept : ∀ s, SocketSpared m s →
      (.newPacket s ∈ batch m → (m.unlock (.rrChannel r)).Live (.newPacket s)) ∧
        (.connEstab s ∈ batch m → (m.unlock (.rrChannel r)).Live (.connEstab s)) :=
    fun s hspared =>
      live_of_spared hspared _ (locked_unlock_of_ne (by simp)) (locked_unlock_of_ne (by simp))
  cases c with
  | listener => trivial
  | rr r' =>
      rcases eq_or_ne r' r with rfl | hne'
      · rcases hspare with hmux | hlocked | ⟨hnotBatch, -⟩
        · exact mem_held.mpr (.inl hmux)
        · exact mem_held.mpr (.inr hlocked)
        · exact absurd hbatch hnotBatch
      · exact held_unlock_of_ne (by simpa using hne') h
  | newPacket s =>
      rcases h with hlocked | howned
      · exact .inl (locked_unlock_of_ne (by simp) hlocked)
      · rcases owned_or_spared_unlock hspare howned with howned | hspared
        · exact .inr howned
        · exact (hkept s hspared).1 hbatch
  | connEstab s =>
      rcases h with hlocked | hlocked | howned
      · exact .inl (locked_unlock_of_ne (by simp) hlocked)
      · exact .inr (.inl (locked_unlock_of_ne (by simp) hlocked))
      · rcases owned_or_spared_unlock hspare howned with howned | hspared
        · exact .inr (.inr howned)
        · exact (hkept s hspared).2 hbatch

theorem live_unlock_socket {s : Nat} {c : Channel} (hspare : SpareUnlock m (.socket s))
    (hbatch : c ∈ batch m) (h : m.Live c) : (m.unlock (.socket s)).Live c := by
  have hne : ∀ r, Object.rrChannel r ≠ .socket s := by simp
  cases c with
  | listener => trivial
  | rr r' => exact held_unlock_of_ne (hne r') h
  | newPacket s' =>
      rcases h with hlocked | howned
      · rcases eq_or_ne s' s with rfl | hne'
        · rcases hspare with howned | hlocked | ⟨hnotBatch, -⟩
          · exact .inr (owned_unlock hne howned)
          · exact .inl hlocked
          · exact absurd hbatch hnotBatch
        · exact .inl (locked_unlock_of_ne (by simpa using hne') hlocked)
      · exact .inr (owned_unlock hne howned)
  | connEstab s' =>
      rcases h with hlocked | hlocked | howned
      · exact .inl (locked_unlock_of_ne (by simp) hlocked)
      · rcases eq_or_ne s' s with rfl | hne'
        · rcases hspare with howned | hlocked | ⟨-, hlocked | hnotBatch⟩
          · exact .inr (.inr (owned_unlock hne howned))
          · exact .inr (.inl hlocked)
          · exact .inl (locked_unlock_of_ne (by simp) hlocked)
          · exact absurd hbatch hnotBatch
        · exact .inr (.inl (locked_unlock_of_ne (by simpa using hne') hlocked))
      · exact .inr (.inr (owned_unlock hne howned))

theorem live_unlock_pcb {s : Nat} {c : Channel} (hspare : SpareUnlock m (.pcb s))
    (hbatch : c ∈ batch m) (h : m.Live c) : (m.unlock (.pcb s)).Live c := by
  have hne : ∀ r, Object.rrChannel r ≠ .pcb s := by simp
  cases c with
  | listener => trivial
  | rr r' => exact held_unlock_of_ne (hne r') h
  | newPacket s' =>
      exact h.imp (locked_unlock_of_ne (by simp)) (owned_unlock hne)
  | connEstab s' =>
      rcases h with hlocked | hlocked | howned
      · rcases eq_or_ne s' s with rfl | hne'
        · rcases hspare with howned | hlocked | hlocked | hnotBatch
          · exact .inr (.inr (owned_unlock hne howned))
          · exact .inr (.inl (locked_unlock_of_ne (by simp) hlocked))
          · exact .inl hlocked
          · exact absurd hbatch hnotBatch
        · exact .inl (locked_unlock_of_ne (by simpa using hne') hlocked)
      · exact .inr (.inl (locked_unlock_of_ne (by simp) hlocked))
      · exact .inr (.inr (owned_unlock hne howned))

end Unlock

structure AllLive (m : Mux) : Prop where
  batch : ∀ c ∈ batch m, m.Live c
  channels : ∀ c ∈ m.channels, m.Live c

theorem channels_destroy (m : Mux) : ∀ c ∈ m.destroy.channels, m.destroy.Live c := by
  intro c hc
  exact of_decide_eq_true (List.mem_filter.mp hc).2

theorem mem_unregister {m : Mux} {gone : List Channel} {c : Channel}
    (h : c ∈ (m.unregister gone).channels) : c ∈ m.channels :=
  (List.mem_filter.mp h).1

theorem live_lock {m : Mux} (o : Object) {c : Channel} (h : m.Live c) : (m.lock o).Live c := by
  refine live_of_kept h ?_ (fun _ _ _ hs => hs) fun o' ho' => List.mem_cons_of_mem o ho'
  intro r hr
  exact mem_held.mpr ((mem_held.mp hr).imp_right (List.mem_cons_of_mem o))

theorem use_of_live {m : Mux} {c : Channel} {r : Option Mux} (h : m.Live c) :
    use m c r = r.map .running :=
  if_pos h

theorem actives_addRRChannels (m : Mux) (connections : Nat) :
    (Mux.addRRChannel^[connections] m).actives = m.actives := by
  induction connections generalizing m with
  | zero => rfl
  | succ connections ih => exact ih m.addRRChannel

theorem actives_run {m m' : Mux} {c : Channel} {callback : Callback} {outcome : Outcome}
    (h : m.run c callback outcome = some m') : m'.actives = m.actives := by
  rcases run_cases h with ⟨connections, rfl, -⟩ | ⟨r, rfl, -⟩ | ⟨r, type, _, gone, rfl, -⟩ |
    ⟨gone, rfl, -⟩
  · exact actives_addRRChannels m connections
  · rfl
  · rfl
  · rfl

theorem live_run {m m' : Mux} {c : Channel} {callback : Callback} {rest : List Callback}
    {outcome : Outcome} (hhandling : m.handling = some (c, callback :: rest))
    (hspares : SparesBatch (.running m) (.callback outcome))
    (hrun : m.run c callback outcome = some m') {c' : Channel} (hbatch : c' ∈ batch m)
    (h : m.Live c') : m'.Live c' := by
  rcases run_cases hrun with ⟨connections, rfl, -⟩ | ⟨r, rfl, rfl, rfl⟩ |
    ⟨r, type, _, gone, rfl, rfl, rfl⟩ | ⟨gone, rfl, -⟩
  · exact live_addRRChannels connections h
  · exact live_removeRRChannel h (hspares r (by rw [hhandling]; rfl))
  · exact live_socketCall type (hspares r · (by rw [hhandling]; rfl)) hbatch h
  · exact h

/-- Only a channel of the batch is used after its destruction. -/
theorem dead_of_usedDestroyed {m : Mux} {a : Label} {c : Channel}
    (h : step m a = some (.usedDestroyed c)) : ∃ c' ∈ batch m, ¬ m.Live c' := by
  have huse : ∀ {c'} {r : Option Mux}, use m c' r = some (.usedDestroyed c) → ¬ m.Live c' := by
    intro c' r huse hlive
    rw [use_of_live hlive] at huse
    obtain ⟨m', -, ⟨⟩⟩ := Option.map_eq_some_iff.mp huse
  cases a with
  | poll result =>
      rcases result with _ | actives
      · cases h
      · simp only [step] at h
        split at h <;> cases h
  | handle =>
      simp only [step] at h
      split at h
      · rename_i c' revents rest hhandling hactives
        exact ⟨c', by simp [batch, hactives], huse h⟩
      · cases h
  | callback outcome =>
      simp only [step] at h
      split at h
      · rename_i c' callback rest hhandling
        exact ⟨c', batch_of_handling hhandling ▸ List.mem_cons_self, huse h⟩
      · cases h
  | handled =>
      simp only [step] at h
      split at h
      · rename_i c' hhandling
        exact ⟨c', batch_of_handling hhandling ▸ List.mem_cons_self, huse h⟩
      · cases h
  | lock o | unlock o | unregister c' =>
      simp only [step] at h
      split at h <;> cases h

theorem allLive_muxStep {m m' : Mux} {a : Label} (h : AllLive m)
    (hspares : SparesBatch (.running m) a) (hstep : MuxStep m a m') : AllLive m' := by
  cases hstep with
  | poll hhandling _ _ hknown =>
      refine ⟨?_, h.channels⟩
      intro c hc
      rw [batch_of_none (by exact hhandling)] at hc
      obtain ⟨active, hactive, rfl⟩ := List.mem_map.mp hc
      exact h.channels _ (hknown active hactive)
  | @handle c _ rest hhandling hactives =>
      have hbatch : batch m = c :: rest.map Prod.fst := by
        rw [batch_of_none hhandling, hactives, List.map_cons]
      exact ⟨fun c' hc' => h.batch c' (hbatch ▸ hc'), h.channels⟩
  | callback hhandling _ hrun =>
      refine ⟨?_, channels_destroy _⟩
      intro c' hc'
      have hbatch : c' ∈ batch m := by
        simpa [batch, hhandling, Mux.destroy, actives_run hrun] using hc'
      exact live_run hhandling hspares hrun hbatch (h.batch c' hbatch)
  | @handled c hhandling =>
      have hbatch := batch_of_handling hhandling
      exact ⟨fun c' hc' => h.batch c' (hbatch ▸ List.mem_cons_of_mem c hc'), h.channels⟩
  | @lock o =>
      exact ⟨fun c hc => live_lock o (h.batch c hc), fun c hc => live_lock o (h.channels c hc)⟩
  | @unlock o =>
      refine ⟨?_, channels_destroy _⟩
      intro c hc
      cases o with
      | rrChannel r => exact live_unlock_rrChannel hspares hc (h.batch c hc)
      | socket s => exact live_unlock_socket hspares hc (h.batch c hc)
      | pcb s => exact live_unlock_pcb hspares hc (h.batch c hc)
  | unregister => exact ⟨h.batch, fun c hc => h.channels c (mem_unregister hc)⟩

theorem allLive_step {m : Mux} {a : Label} {t : State} (h : AllLive m)
    (hspares : SparesBatch (.running m) a) (hnext : step m a = some t) :
    ∃ m', t = .running m' ∧ AllLive m' := by
  rcases t with m' | c
  · exact ⟨m', rfl, allLive_muxStep h hspares (muxStep_of_step hnext)⟩
  · obtain ⟨c', hbatch, hdead⟩ := dead_of_usedDestroyed hnext
    exact absurd (h.batch c' hbatch) hdead

theorem running_of_sparesBatch {s : State} (h : machine.ReachableUnder SparesBatch s) :
    ∃ m, s = .running m ∧ AllLive m := by
  refine h.invariant (I := fun s => ∃ m, s = .running m ∧ AllLive m) ?_ ?_
  · rintro s rfl
    refine ⟨_, rfl, ?_, ?_⟩
    · intro c hc
      cases hc
    · intro c hc
      obtain rfl := List.mem_singleton.mp hc
      trivial
  · rintro s a t ⟨m, rfl, hlive⟩ hspares hnext
    exact allLive_step hlive hspares hnext

/-- Every channel ever made has its place in the table, and no two share a socket. -/
structure Table (m : Mux) : Prop where
  held_lt : ∀ r ∈ m.held, r < m.sockets.length
  socket_lt : ∀ r s, m.socketOf r = some s → s < m.nextSocket
  unshared : ∀ r r' s, m.socketOf r = some s → m.socketOf r' = some s → r = r'

theorem Table.of_same {m m' : Mux} (h : Table m) (hsockets : m'.sockets = m.sockets)
    (hnext : m'.nextSocket = m.nextSocket) (hheld : ∀ r ∈ m'.held, r ∈ m.held) : Table m' := by
  have hsocketOf : ∀ r, m'.socketOf r = m.socketOf r := by
    intro r
    rw [Mux.socketOf, hsockets, Mux.socketOf]
  constructor
  · intro r hr
    rw [hsockets]
    exact h.held_lt r (hheld r hr)
  · intro r s hs
    rw [hnext]
    exact h.socket_lt r s (hsocketOf r ▸ hs)
  · intro r r' s hs hs'
    exact h.unshared r r' s (hsocketOf r ▸ hs) (hsocketOf r' ▸ hs')

theorem Table.addRRChannels {m : Mux} (h : Table m) (connections : Nat) :
    Table (Mux.addRRChannel^[connections] m) := by
  induction connections generalizing m with
  | zero => exact h
  | succ connections ih =>
      apply ih
      constructor
      · intro r hr
        have hlength : m.addRRChannel.sockets.length = m.sockets.length + 1 :=
          List.length_append
        rw [hlength]
        rcases mem_held.mp hr with hmux | hlocked
        · rcases List.mem_append.mp hmux with hmux | hnew
          · exact Nat.lt_succ_of_lt (h.held_lt r (mem_held.mpr (.inl hmux)))
          · rw [List.mem_singleton.mp hnew]
            exact Nat.lt_succ_self _
        · exact Nat.lt_succ_of_lt (h.held_lt r (mem_held.mpr (.inr hlocked)))
      · intro r s hs
        rw [socketOf_addRRChannel] at hs
        exact h.socket_lt r s hs
      · intro r r' s hs hs'
        rw [socketOf_addRRChannel] at hs hs'
        exact h.unshared r r' s hs hs'

theorem socketOf_socketCall {m : Mux} {r r' s : Nat} {type : SocketType}
    (h : (m.socketCall r type).socketOf r' = some s) :
    (r' = r ∧ s = m.nextSocket) ∨ (r' ≠ r ∧ m.socketOf r' = some s) := by
  rcases eq_or_ne r' r with rfl | hne
  · left
    rcases Nat.lt_or_ge r' m.sockets.length with hlt | hge
    · rw [socketOf_socketCall_self type hlt] at h
      exact ⟨rfl, (Option.some.inj h).symm⟩
    · simp [Mux.socketOf, Mux.socketCall, hge] at h
  · right
    rw [socketOf_socketCall_of_ne m type hne.symm] at h
    exact ⟨hne, h⟩

theorem Table.socketCall {m : Mux} (h : Table m) (r : Nat) (type : SocketType) :
    Table (m.socketCall r type) := by
  constructor
  · intro r' hr'
    have hlength : (m.socketCall r type).sockets.length = m.sockets.length := List.length_set
    rw [hlength]
    exact h.held_lt r' hr'
  · intro r' s hs
    rcases socketOf_socketCall hs with ⟨-, rfl⟩ | ⟨-, hs⟩
    · exact Nat.lt_succ_self _
    · exact Nat.lt_succ_of_lt (h.socket_lt r' s hs)
  · intro r₁ r₂ s hs₁ hs₂
    rcases socketOf_socketCall hs₁ with ⟨rfl, rfl⟩ | ⟨-, hold₁⟩
    · rcases socketOf_socketCall hs₂ with ⟨rfl, -⟩ | ⟨-, hold₂⟩
      · rfl
      · exact absurd (h.socket_lt r₂ _ hold₂) (Nat.lt_irrefl _)
    · rcases socketOf_socketCall hs₂ with ⟨rfl, rfl⟩ | ⟨-, hold₂⟩
      · exact absurd (h.socket_lt r₁ _ hold₁) (Nat.lt_irrefl _)
      · exact h.unshared r₁ r₂ s hold₁ hold₂

theorem Table.run {m m' : Mux} {c : Channel} {callback : Callback} {outcome : Outcome}
    (h : Table m) (hrun : m.run c callback outcome = some m') : Table m' := by
  rcases run_cases hrun with ⟨connections, rfl, -⟩ | ⟨r, rfl, -⟩ | ⟨r, type, _, gone, rfl, -⟩ |
    ⟨gone, rfl, -⟩
  · exact h.addRRChannels connections
  · refine h.of_same rfl rfl ?_
    intro r' hr'
    exact mem_held.mpr ((mem_held.mp hr').imp_left fun hmem => (List.mem_filter.mp hmem).1)
  · exact (h.socketCall r type).of_same rfl rfl fun _ hr => hr
  · exact h.of_same rfl rfl fun _ hr => hr

theorem table_muxStep {m m' : Mux} {a : Label} (h : Table m) (hstep : MuxStep m a m') :
    Table m' := by
  cases hstep with
  | poll | handle | handled | unregister => exact h.of_same rfl rfl fun _ hr => hr
  | callback _ _ hrun => exact (h.run hrun).of_same rfl rfl fun _ hr => hr
  | lock halive =>
      refine h.of_same rfl rfl ?_
      intro r hr
      rcases mem_held.mp hr with hmux | hlocked
      · exact mem_held.mpr (.inl hmux)
      · rcases List.mem_cons.mp hlocked with rfl | hlocked
        · exact halive
        · exact mem_held.mpr (.inr hlocked)
  | unlock =>
      refine h.of_same rfl rfl ?_
      intro r hr
      exact mem_held.mpr ((mem_held.mp hr).imp_right List.mem_of_mem_erase)

theorem table {s : State} (h : machine.Reachable s) : ∀ m, s = .running m → Table m := by
  refine h.invariant (I := fun s => ∀ m, s = .running m → Table m) ?_ ?_
  · rintro s rfl m ⟨⟩
    constructor
    · rintro r ⟨⟩
    · rintro r s ⟨⟩
    · rintro r r' s ⟨⟩
  · rintro s a t hs - hnext m' rfl
    rcases s with m | c
    · exact table_muxStep (hs m rfl) (muxStep_of_step hnext)
    · cases hnext

def Dangles (m : Mux) : Prop :=
  ∃ c ∈ batch m, ¬ m.Live c

theorem dangles_of_not_spared {m m' : Mux} {s : Nat} (hspared : ¬ SocketSpared m s)
    (hbatch : batch m' = batch m) (hlocked : ∀ o ∈ m'.locked, o ∈ m.locked)
    (hunowned : ¬ Owned m' s) : Dangles m' := by
  simp only [SocketSpared, not_or, not_and, not_not] at hspared
  obtain ⟨hsocket, hchannels⟩ := hspared
  have hsocket' : .socket s ∉ m'.locked := fun hmem => hsocket (hlocked _ hmem)
  by_cases hnew : .newPacket s ∈ batch m
  · refine ⟨.newPacket s, hbatch ▸ hnew, ?_⟩
    exact not_or.mpr ⟨hsocket', hunowned⟩
  · obtain ⟨hpcb, hestab⟩ := hchannels hnew
    refine ⟨.connEstab s, hbatch ▸ hestab, ?_⟩
    exact not_or.mpr ⟨fun hmem => hpcb (hlocked _ hmem), not_or.mpr ⟨hsocket', hunowned⟩⟩

theorem dangles_removed {m : Mux} {r : Nat} {rest : List Callback}
    (hlocked : .rrChannel r ∉ m.locked) :
    Dangles { m.removeRRChannel r with handling := some (.rr r, rest) }.destroy := by
  refine ⟨.rr r, List.mem_cons_self, ?_⟩
  intro hlive
  rcases mem_held.mp hlive with hmux | hmem
  · exact of_decide_eq_true (List.mem_filter.mp hmux).2 rfl
  · exact hlocked hmem

theorem not_owned_socketCall {m : Mux} (h : Table m) {r s : Nat} (type : SocketType)
    (hold : m.socketOf r = some s) : ¬ Owned (m.socketCall r type) s := by
  rintro ⟨r', -, hs⟩
  rcases socketOf_socketCall hs with ⟨-, rfl⟩ | ⟨hne, hs⟩
  · exact Nat.lt_irrefl _ (h.socket_lt r _ hold)
  · exact hne (h.unshared r' r s hs hold)

theorem dangles_unlock {m : Mux} (h : Table m) {o : Object} (hspare : ¬ SpareUnlock m o) :
    Dangles (m.unlock o) := by
  have hbatch : batch (m.unlock o) = batch m := rfl
  have hlocked : ∀ o' ∈ (m.unlock o).locked, o' ∈ m.locked := fun o' => List.mem_of_mem_erase
  cases o with
  | rrChannel r =>
      simp only [SpareUnlock, not_or, not_and, not_forall] at hspare
      obtain ⟨hmux, hmem, hneeded⟩ := hspare
      have hgone : r ∉ (m.unlock (.rrChannel r)).held := by
        rw [mem_held]
        exact not_or.mpr ⟨hmux, hmem⟩
      by_cases hchannel : .rr r ∈ batch m
      · exact ⟨.rr r, hchannel, hgone⟩
      · obtain ⟨s, hs, hspared⟩ := hneeded hchannel
        refine dangles_of_not_spared hspared hbatch hlocked ?_
        rintro ⟨r', hr', hs'⟩
        rw [h.unshared r' r s hs' hs] at hr'
        exact hgone hr'
  | socket s =>
      simp only [SpareUnlock, not_or, not_and, not_not] at hspare
      obtain ⟨hunowned, hmem, hneeded⟩ := hspare
      have hunowned' : ¬ Owned (m.unlock (.socket s)) s := by
        rintro ⟨r, hr, hs⟩
        exact hunowned ⟨r, mem_held.mpr ((mem_held.mp hr).imp_right (hlocked _)), hs⟩
      by_cases hnew : .newPacket s ∈ batch m
      · exact ⟨.newPacket s, hnew, not_or.mpr ⟨hmem, hunowned'⟩⟩
      · obtain ⟨hpcb, hestab⟩ := hneeded hnew
        refine ⟨.connEstab s, hestab, not_or.mpr ⟨?_, not_or.mpr ⟨hmem, hunowned'⟩⟩⟩
        exact fun hpcb' => hpcb (hlocked _ hpcb')
  | pcb s =>
      simp only [SpareUnlock, not_or, not_not] at hspare
      obtain ⟨hunowned, hsocket, hmem, hestab⟩ := hspare
      have hunowned' : ¬ Owned (m.unlock (.pcb s)) s := by
        rintro ⟨r, hr, hs⟩
        exact hunowned ⟨r, mem_held.mpr ((mem_held.mp hr).imp_right (hlocked _)), hs⟩
      refine ⟨.connEstab s, hestab, not_or.mpr ⟨hmem, not_or.mpr ⟨?_, hunowned'⟩⟩⟩
      exact fun hsocket' => hsocket (hlocked _ hsocket')

theorem sparesBatch_of_ne {m : Mux} {outcome : Outcome} (hremoved : outcome ≠ .removed)
    (hanswered : ∀ type writeFails, outcome ≠ .answered (some type) writeFails) :
    SparesBatch (.running m) (.callback outcome) := by
  cases outcome with
  | removed => exact absurd rfl hremoved
  | answered socketCall writeFails =>
      rcases socketCall with _ | type
      · trivial
      · exact absurd rfl (hanswered type writeFails)
  | _ => trivial

theorem dangles_callback {m m' : Mux} (h : Table m) {c : Channel} {callback : Callback}
    {rest : List Callback} {outcome : Outcome}
    (hhandling : m.handling = some (c, callback :: rest))
    (hspares : ¬ SparesBatch (.running m) (.callback outcome))
    (hrun : m.run c callback outcome = some m') :
    Dangles { m' with handling := some (c, rest) }.destroy := by
  rcases run_cases hrun with ⟨connections, rfl, rfl⟩ | ⟨r, rfl, rfl, rfl⟩ |
    ⟨r, type, writeFails, gone, rfl, rfl, rfl⟩ | ⟨gone, rfl, hremoved, hanswered⟩
  · exact absurd trivial hspares
  · simp only [SparesBatch, hhandling, not_forall] at hspares
    obtain ⟨r', heq, hlocked⟩ := hspares
    cases heq
    exact dangles_removed hlocked
  · simp only [SparesBatch, hhandling, not_forall] at hspares
    obtain ⟨r', s, heq, hs, hspared⟩ := hspares
    cases heq
    refine dangles_of_not_spared hspared ?_ (fun _ ho => ho) (not_owned_socketCall h type hs)
    simp [batch, hhandling, Mux.destroy, Mux.unregister, Mux.socketCall]
  · exact absurd (sparesBatch_of_ne hremoved hanswered) hspares

/-- A step that does not spare the batch leaves a dangling pointer in it, unless it
already used one. -/
theorem dangles_of_not_spares {m : Mux} (h : Table m) {a : Label} {t : State}
    (hspares : ¬ SparesBatch (.running m) a) (hnext : step m a = some t) :
    (∃ c, t = .usedDestroyed c) ∨ ∃ m', t = .running m' ∧ Dangles m' := by
  cases a with
  | unlock o =>
      simp only [step] at hnext
      split at hnext
      · cases hnext
        exact .inr ⟨_, rfl, dangles_unlock h hspares⟩
      · cases hnext
  | callback outcome =>
      simp only [step] at hnext
      split at hnext
      · rename_i c callback rest hhandling
        unfold use at hnext
        split at hnext
        · simp only [Option.map_map, Option.map_eq_some_iff] at hnext
          obtain ⟨m', hrun, rfl⟩ := hnext
          exact .inr ⟨_, rfl, dangles_callback h hhandling hspares hrun⟩
        · cases hnext
          exact .inl ⟨_, rfl⟩
      · cases hnext
  | _ => exact absurd trivial hspares

/-- Something that a callback can always do: a hang-up removes its channel, anything
else can find nothing to do. -/
theorem run_idle (m : Mux) (c : Channel) (callback : Callback) :
    ∃ outcome m', m.run c callback outcome = some m' ∧ m'.actives = m.actives ∧
      ∀ c', m'.Live c' → m.Live c' := by
  by_cases hclose : ∃ r, c = .rr r ∧ callback = .onClose
  · obtain ⟨r, rfl, rfl⟩ := hclose
    refine ⟨.removed, m.removeRRChannel r, rfl, rfl, ?_⟩
    intro c' hlive
    refine live_of_kept hlive ?_ (fun _ _ _ hs => hs) fun _ ho => ho
    intro r' hr'
    exact mem_held.mpr ((mem_held.mp hr').imp_left fun hmem => (List.mem_filter.mp hmem).1)
  · refine ⟨.nothing, m, ?_, rfl, fun _ hlive => hlive⟩
    cases c with
    | rr r =>
        cases callback with
        | onClose => exact absurd ⟨r, rfl, rfl⟩ hclose
        | _ => rfl
    | _ => cases callback <;> rfl

def Fails (m : Mux) : Prop :=
  ∃ c, machine.Leads (.running m) (.usedDestroyed c)

theorem Fails.head {m m' : Mux} {a : Label} (hnext : step m a = some (.running m'))
    (h : Fails m') : Fails m := by
  obtain ⟨c, hleads⟩ := h
  exact ⟨c, .head hnext hleads⟩

theorem fails_of_handling {m : Mux} {c : Channel} {rest : List Callback}
    (hidle : ∀ m' : Mux, m'.handling = none → m'.actives = m.actives → Dangles m' → Fails m')
    (hhandling : m.handling = some (c, rest)) (h : Dangles m) : Fails m := by
  induction rest generalizing m with
  | nil =>
      by_cases hlive : m.Live c
      · have hnext : step m .handled = some (.running { m with handling := none }) := by
          simp only [step, hhandling]
          exact use_of_live hlive
        refine .head hnext (hidle _ rfl rfl ?_)
        obtain ⟨c', hbatch, hdead⟩ := h
        have hbatch : c' = c ∨ c' ∈ m.actives.map Prod.fst := by
          simpa [batch, hhandling] using hbatch
        rcases hbatch with rfl | hbatch
        · exact absurd hlive hdead
        · exact ⟨c', hbatch, hdead⟩
      · refine ⟨c, .single (a := .handled) ?_⟩
        simp only [machine, step, hhandling]
        exact if_neg hlive
  | cons callback rest ih =>
      obtain ⟨outcome, m', hrun, hactives, hdead⟩ := run_idle m c callback
      by_cases hlive : m.Live c
      · have hnext : step m (.callback outcome) =
            some (.running { m' with handling := some (c, rest) }.destroy) := by
          simp only [step, hhandling, hrun, Option.map_some]
          exact use_of_live hlive
        refine .head hnext (ih ?_ rfl ?_)
        · intro m'' hnone hactives'
          exact hidle m'' hnone (hactives'.trans hactives)
        · obtain ⟨c', hbatch, hgone⟩ := h
          refine ⟨c', ?_, fun hlive' => hgone (hdead c' hlive')⟩
          simpa [batch, hhandling, Mux.destroy, hactives] using hbatch
      · refine ⟨c, .single (a := .callback outcome) ?_⟩
        simp only [machine, step, hhandling]
        exact if_neg hlive

theorem fails_of_idle {m : Mux} (hnone : m.handling = none) (h : Dangles m) : Fails m := by
  generalize hactives : m.actives = actives
  induction actives generalizing m with
  | nil =>
      obtain ⟨c, hbatch, -⟩ := h
      simp [batch, hnone, hactives] at hbatch
  | cons active rest ih =>
      obtain ⟨c, revents⟩ := active
      by_cases hlive : m.Live c
      · have hnext : step m .handle =
            some (.running
              { m with handling := some (c, callbacks revents), actives := rest }) := by
          simp only [step, hnone, hactives]
          exact use_of_live hlive
        refine .head hnext (fails_of_handling ?_ rfl ?_)
        · intro m' hnone' hactives' hdangles
          exact ih hnone' hdangles hactives'
        · obtain ⟨c', hbatch, hdead⟩ := h
          refine ⟨c', ?_, hdead⟩
          simpa [batch, hnone, hactives] using hbatch
      · refine ⟨c, .single (a := .handle) ?_⟩
        simp only [machine, step, hnone, hactives]
        exact if_neg hlive

theorem fails_of_dangles {m : Mux} (h : Dangles m) : Fails m := by
  rcases hhandling : m.handling with _ | ⟨c, rest⟩
  · exact fails_of_idle hhandling h
  · exact fails_of_handling (fun _ hnone _ hdangles => fails_of_idle hnone hdangles) hhandling h

/-- The loop uses live channels only, in the runs whose steps spare what the batch
needs, and any other step leads to the use of a destroyed channel. -/
theorem uses_live_of_sparesBatch (s : State) :
    (machine.ReachableUnder SparesBatch s → ∃ m, s = .running m) ∧
    (∀ a t, machine.Reachable s → ¬ SparesBatch s a → machine.next s a = some t →
      ∃ c, machine.Leads t (.usedDestroyed c)) := by
  constructor
  · intro h
    obtain ⟨m, rfl, -⟩ := running_of_sparesBatch h
    exact ⟨m, rfl⟩
  · intro a t hreached hspares hnext
    rcases s with m | c
    · rcases dangles_of_not_spares (table hreached m rfl) hspares hnext with
        ⟨c, rfl⟩ | ⟨m', rfl, hdangles⟩
      · exact ⟨c, .refl _⟩
      · exact fails_of_dangles hdangles
    · cases hnext

def sampleInitial : Mux :=
  { rrChannels := []
    sockets := []
    nextSocket := 0
    locked := []
    channels := [.listener]
    actives := []
    handling := none }

def sampleReading : Mux :=
  { rrChannels := [0]
    sockets := [none]
    nextSocket := 0
    locked := []
    channels := [.listener, .rr 0]
    actives := []
    handling := some (.rr 0, [.onRead]) }

def sampleLabels : List Label :=
  [.poll (some [(.listener, POLLIN)]), .handle, .callback (.accepted 1), .handled,
    .poll (some [(.rr 0, POLLIN)]), .handle]

theorem sampleReading_reachable :
    machine.ReachableUnder SparesBatch (.running sampleReading) := by
  have hinitial : machine.ReachableUnder SparesBatch (.running sampleInitial) := .initial rfl
  have hexec : machine.exec (.running sampleInitial) sampleLabels =
      some (.running sampleReading) := by
    decide
  refine Machine.reachableUnder_of_exec hinitial ?_ hexec
  intro s a ha
  simp only [sampleLabels, List.mem_cons, List.not_mem_nil, or_false] at ha
  rcases ha with rfl | rfl | rfl | rfl | rfl | rfl <;> cases s <;> trivial

theorem uses_live_sample :
    (∃ m, State.running sampleReading = .running m) ∧
      ∃ c, machine.Leads
        (.running { sampleReading.removeRRChannel 0 with handling := some (.rr 0, []) }.destroy)
        (.usedDestroyed c) := by
  have huses := uses_live_of_sparesBatch (.running sampleReading)
  refine ⟨huses.1 sampleReading_reachable, ?_⟩
  refine huses.2 (.callback .removed) _ sampleReading_reachable.reachable ?_ rfl
  intro hspares
  exact absurd (hspares 0 rfl) (by decide)

/-- At the end of the file the channel destroys itself, then it sets its
`handlingEvents`. -/
theorem eof_uses_destroyed : ¬ ∀ s, machine.Reachable s → ∃ m, s = .running m := by
  intro hlive
  have hexec : machine.exec (.running sampleReading) [.callback .removed, .handled] =
      some (.usedDestroyed (.rr 0)) := by
    decide
  obtain ⟨m, ⟨⟩⟩ :=
    hlive _ (Machine.reachable_of_exec sampleReading_reachable.reachable hexec)

end MuQuinet.LiveChannels
