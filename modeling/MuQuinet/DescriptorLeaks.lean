import MuQuinet.LiveChannels

namespace MuQuinet.DescriptorLeaks

open MuQuinet.Lib.Machines
open MuQuinet.EventLoops hiding machine State
open MuQuinet.LiveChannels
open MuQuinet.Sockets

/-- A step of the two threads.  After the callback in which a channel destroyed itself
the store to its `handlingEvents` has no effect, and the run goes on; it does not where
a destroyed channel is used for more. -/
def nextMux (m : Mux) : Label → Option Mux
  | .handled =>
      match m.handling with
      | some (_, []) => some { m with handling := none }
      | _ => none
  | a =>
      match step m a with
      | some (.running m') => some m'
      | _ => none

inductive PipeEnd
  | read
  | write
deriving DecidableEq, Repr

/-- The descriptors of the daemon, apart from those that it has from its start. -/
inductive Descriptor
  /-- `ReqRespChannel::Impl::fd`. -/
  | conn (rrChannel : Nat)
  /-- `Socket::Impl::new_packet_notify_pipe`. -/
  | notifyPipe (socket : Nat) (pipeEnd : PipeEnd)
  /-- `TcpPcb::estab_notify_pipe`. -/
  | estabPipe (socket : Nat) (pipeEnd : PipeEnd)
deriving DecidableEq, Repr

/-- The daemon with the types of the sockets that it ever made. -/
structure Daemon where
  mux : Mux
  types : List SocketType
  descriptors : List Descriptor
deriving DecidableEq, Repr

/-- The socket that a step makes. -/
def made : Label → Option SocketType
  | .callback (.answered socketCall _) => socketCall
  | _ => none

/-- What the constructors of a `Socket` and its PCB open. -/
def pipes (s : Nat) : SocketType → List Descriptor
  | .UDP => [.notifyPipe s .read, .notifyPipe s .write]
  | .TCP => [.notifyPipe s .read, .notifyPipe s .write, .estabPipe s .read, .estabPipe s .write]

def opened (m : Mux) : Label → List Descriptor
  | .callback (.accepted connections) =>
      (List.range connections).map fun i => .conn (m.sockets.length + i)
  | a => (made a).elim [] (pipes m.nextSocket)

/-- `ReqRespChannel::~ReqRespChannel` closes its descriptor.  `Socket::~Socket` only
logs, and `TcpPcb` has no destructor of its own. -/
def closeDestroyed (m : Mux) (descriptors : List Descriptor) : List Descriptor :=
  descriptors.filter fun
    | .conn r => decide (r ∈ m.held)
    | _ => true

def next (d : Daemon) (a : Label) : Option Daemon :=
  (nextMux d.mux a).map fun m =>
    { mux := m
      types := d.types ++ (made a).toList
      descriptors := closeDestroyed m (d.descriptors ++ opened d.mux a) }

def machine : Machine Daemon Label where
  initial d := EventLoops.machine.initial (.running d.mux) ∧ d.types = [] ∧ d.descriptors = []
  next := next

theorem muxStep_of_nextMux {m m' : Mux} {a : Label} (h : nextMux m a = some m') :
    MuxStep m a m' := by
  unfold nextMux at h
  split at h
  · split at h
    · rename_i hhandling
      cases h
      exact .handled hhandling
    · cases h
  · split at h
    · rename_i hstep
      cases h
      exact muxStep_of_step hstep
    · cases h

section Accept

variable (m : Mux) (connections : Nat)

theorem nextSocket_addRRChannels :
    (Mux.addRRChannel^[connections] m).nextSocket = m.nextSocket := by
  induction connections generalizing m with
  | zero => rfl
  | succ connections ih => exact ih m.addRRChannel

theorem locked_addRRChannels : (Mux.addRRChannel^[connections] m).locked = m.locked := by
  induction connections generalizing m with
  | zero => rfl
  | succ connections ih => exact ih m.addRRChannel

theorem addRRChannels_eq :
    (Mux.addRRChannel^[connections] m).rrChannels =
        m.rrChannels ++ List.range' m.sockets.length connections ∧
      (Mux.addRRChannel^[connections] m).channels =
        m.channels ++ (List.range' m.sockets.length connections).map .rr := by
  induction connections generalizing m with
  | zero => exact ⟨(List.append_nil _).symm, (List.append_nil _).symm⟩
  | succ connections ih =>
      have hlength : m.addRRChannel.sockets.length = m.sockets.length + 1 := List.length_append
      obtain ⟨hrrChannels, hchannels⟩ := ih m.addRRChannel
      rw [hlength] at hrrChannels hchannels
      rw [Function.iterate_succ_apply, List.range'_succ]
      constructor
      · rw [hrrChannels, Mux.addRRChannel, List.append_assoc, List.singleton_append]
      · rw [hchannels, Mux.addRRChannel, List.append_assoc, List.singleton_append, List.map_cons]

theorem mem_rrChannels_addRRChannels (r : Nat) :
    r ∈ (Mux.addRRChannel^[connections] m).rrChannels ↔
      r ∈ m.rrChannels ∨ m.sockets.length ≤ r ∧ r < m.sockets.length + connections := by
  rw [(addRRChannels_eq m connections).1, List.mem_append, List.mem_range'_1]

theorem rr_mem_addRRChannels (r : Nat) :
    .rr r ∈ (Mux.addRRChannel^[connections] m).channels ↔
      .rr r ∈ m.channels ∨ m.sockets.length ≤ r ∧ r < m.sockets.length + connections := by
  rw [(addRRChannels_eq m connections).2, List.mem_append, ← List.mem_range'_1]
  simp

end Accept

theorem locked_run {m m' : Mux} {c : Channel} {callback : Callback} {outcome : Outcome}
    (h : m.run c callback outcome = some m') : m'.locked = m.locked := by
  rcases run_cases h with ⟨connections, rfl, -⟩ | ⟨r, rfl, -⟩ | ⟨r, type, _, gone, rfl, -⟩ |
    ⟨gone, rfl, -⟩
  · exact locked_addRRChannels m connections
  · rfl
  · rfl
  · rfl

theorem nextSocket_run {m m' : Mux} {c : Channel} {callback : Callback} {outcome : Outcome}
    (h : m.run c callback outcome = some m') :
    m'.nextSocket = m.nextSocket + (made (.callback outcome)).toList.length := by
  rcases run_cases h with ⟨connections, rfl, rfl⟩ | ⟨r, rfl, -, rfl⟩ |
    ⟨r, type, _, gone, rfl, -, rfl⟩ | ⟨gone, rfl, -, hanswered⟩
  · exact nextSocket_addRRChannels m connections
  · rfl
  · rfl
  · have hmade : made (.callback outcome) = none := by
      cases outcome with
      | answered socketCall writeFails =>
          rcases socketCall with _ | type
          · rfl
          · exact absurd rfl (hanswered type writeFails)
      | _ => rfl
    rw [hmade]
    rfl

section Steps

variable {m m' : Mux} {a : Label}

theorem nextSocket_muxStep (hstep : MuxStep m a m') :
    m'.nextSocket = m.nextSocket + (made a).toList.length := by
  cases hstep with
  | callback _ _ hrun =>
      have hnext := nextSocket_run hrun
      exact hnext
  | _ => rfl

/-- A channel to which a pointer leads was there before, or was just accepted. -/
theorem held_muxStep (hstep : MuxStep m a m') {r : Nat} (hr : r ∈ m'.held) :
    r ∈ m.held ∨ .conn r ∈ opened m a := by
  cases hstep with
  | poll | handle | handled | unregister => exact .inl hr
  | callback _ _ hrun =>
      rcases run_cases hrun with ⟨connections, rfl, rfl⟩ | ⟨r', rfl, -⟩ |
        ⟨r', type, _, gone, rfl, -⟩ | ⟨gone, rfl, -⟩
      · rcases mem_held.mp hr with hmux | hlocked
        · rcases (mem_rrChannels_addRRChannels m connections r).mp hmux with hold | ⟨hle, hlt⟩
          · exact .inl (mem_held.mpr (.inl hold))
          · right
            refine List.mem_map.mpr ⟨r - m.sockets.length, ?_, ?_⟩
            · rw [List.mem_range]
              omega
            · rw [Nat.add_sub_cancel' hle]
        · rw [show _ = m.locked from locked_addRRChannels m connections] at hlocked
          exact .inl (mem_held.mpr (.inr hlocked))
      · refine .inl (mem_held.mpr ((mem_held.mp hr).imp_left ?_))
        exact fun hmem => (List.mem_filter.mp hmem).1
      · exact .inl hr
      · exact .inl hr
  | lock halive =>
      left
      rcases mem_held.mp hr with hmux | hlocked
      · exact mem_held.mpr (.inl hmux)
      · rcases List.mem_cons.mp hlocked with rfl | hlocked
        · exact halive
        · exact mem_held.mpr (.inr hlocked)
  | unlock => exact .inl (mem_held.mpr ((mem_held.mp hr).imp_right List.mem_of_mem_erase))

end Steps

/-- The pipes of every socket ever made are open, and the connections of the channels
that are there. -/
structure Invariant (d : Daemon) : Prop where
  table : Table d.mux
  locked_lt : ∀ s, .socket s ∈ d.mux.locked ∨ .pcb s ∈ d.mux.locked → s < d.mux.nextSocket
  types_length : d.types.length = d.mux.nextSocket
  conn : ∀ r, .conn r ∈ d.descriptors ↔ r ∈ d.mux.held
  notifyPipe : ∀ s pipeEnd, .notifyPipe s pipeEnd ∈ d.descriptors ↔ s < d.mux.nextSocket
  estabPipe : ∀ s pipeEnd, .estabPipe s pipeEnd ∈ d.descriptors ↔ d.types[s]? = some .TCP

theorem mem_closeDestroyed {m : Mux} {descriptors : List Descriptor} {fd : Descriptor} :
    fd ∈ closeDestroyed m descriptors ↔
      fd ∈ descriptors ∧ ∀ r, fd = .conn r → r ∈ m.held := by
  rw [closeDestroyed, List.mem_filter]
  refine and_congr_right fun _ => ?_
  cases fd with
  | conn r => simp
  | _ => simp

theorem notifyPipe_mem_opened (m : Mux) (a : Label) (s : Nat) (pipeEnd : PipeEnd) :
    .notifyPipe s pipeEnd ∈ opened m a ↔ (made a).isSome ∧ s = m.nextSocket := by
  unfold opened
  split
  · simp [made]
  · rcases made a with _ | _ | _
    · simp
    · cases pipeEnd <;> simp [pipes]
    · cases pipeEnd <;> simp [pipes]

theorem estabPipe_mem_opened (m : Mux) (a : Label) (s : Nat) (pipeEnd : PipeEnd) :
    .estabPipe s pipeEnd ∈ opened m a ↔ made a = some .TCP ∧ s = m.nextSocket := by
  unfold opened
  split
  · simp [made]
  · rcases made a with _ | _ | _
    · simp
    · simp [pipes]
    · cases pipeEnd <;> simp [pipes]

theorem locked_lt_muxStep {m m' : Mux} {a : Label} (htable : Table m)
    (h : ∀ s, .socket s ∈ m.locked ∨ .pcb s ∈ m.locked → s < m.nextSocket)
    (hstep : MuxStep m a m') :
    ∀ s, .socket s ∈ m'.locked ∨ .pcb s ∈ m'.locked → s < m'.nextSocket := by
  have howned : ∀ s, Owned m s → s < m.nextSocket := by
    rintro s ⟨r, -, hs⟩
    exact htable.socket_lt r s hs
  cases hstep with
  | poll | handle | handled | unregister => exact h
  | callback _ _ hrun =>
      intro s hs
      rw [show _ = m.locked from locked_run hrun] at hs
      have hnext := nextSocket_run hrun
      exact Nat.lt_of_lt_of_le (h s hs) (hnext ▸ Nat.le_add_right _ _)
  | @lock o halive =>
      intro s hs
      have hcases : (o = .socket s ∨ o = .pcb s) ∨ .socket s ∈ m.locked ∨ .pcb s ∈ m.locked := by
        rcases hs with hs | hs
        · exact (List.mem_cons.mp hs).imp (fun heq => .inl heq.symm) .inl
        · exact (List.mem_cons.mp hs).imp (fun heq => .inr heq.symm) .inr
      rcases hcases with (rfl | rfl) | hlocked
      · exact halive.elim (fun hlocked => h s (.inl hlocked)) (howned s)
      · rcases halive with hlocked | hlocked | hs
        · exact h s (.inr hlocked)
        · exact h s (.inl hlocked)
        · exact howned s hs
      · exact h s hlocked
  | unlock =>
      intro s hs
      exact h s (hs.imp List.mem_of_mem_erase List.mem_of_mem_erase)

theorem getElem?_append_toList {α : Type} (xs : List α) (last : Option α) (i : Nat) (a : α) :
    (xs ++ last.toList)[i]? = some a ↔ xs[i]? = some a ∨ last = some a ∧ i = xs.length := by
  cases last with
  | none => simp
  | some b =>
      rw [Option.toList_some, List.getElem?_append]
      rcases Nat.lt_trichotomy i xs.length with hlt | rfl | hgt
      · simp [hlt, Nat.ne_of_lt hlt]
      · simp
      · simp [Nat.not_lt.mpr (Nat.le_of_lt hgt), Nat.ne_of_gt hgt, Nat.sub_ne_zero_of_lt hgt]

theorem invariant_next {d d' : Daemon} {a : Label} (h : Invariant d)
    (hnext : next d a = some d') : Invariant d' := by
  obtain ⟨m, hmux, rfl⟩ := Option.map_eq_some_iff.mp hnext
  have hstep := muxStep_of_nextMux hmux
  have hnextSocket := nextSocket_muxStep hstep
  constructor
  · exact table_muxStep h.table hstep
  · exact locked_lt_muxStep h.table h.locked_lt hstep
  · show (d.types ++ (made a).toList).length = m.nextSocket
    rw [List.length_append, h.types_length, hnextSocket]
  · intro r
    rw [mem_closeDestroyed, List.mem_append]
    constructor
    · intro hmem
      exact hmem.2 r rfl
    · intro hr
      refine ⟨(held_muxStep hstep hr).imp_left (h.conn r).mpr, ?_⟩
      rintro r' ⟨⟩
      exact hr
  · intro s pipeEnd
    rw [mem_closeDestroyed, List.mem_append, h.notifyPipe, notifyPipe_mem_opened]
    show _ ↔ s < m.nextSocket
    rw [hnextSocket]
    rcases made a with _ | type
    · simp
    · simp
      omega
  · intro s pipeEnd
    rw [mem_closeDestroyed, List.mem_append, h.estabPipe, estabPipe_mem_opened]
    show _ ↔ (d.types ++ (made a).toList)[s]? = some .TCP
    rw [getElem?_append_toList, h.types_length]
    simp

theorem invariant_initial {d : Daemon} (h : machine.initial d) : Invariant d := by
  obtain ⟨hmux, htypes, hdescriptors⟩ := h
  obtain ⟨m, types, descriptors⟩ := d
  obtain rfl := State.running.inj hmux
  subst htypes hdescriptors
  constructor
  · exact table (.initial rfl) _ rfl
  · rintro s (hs | hs) <;> cases hs
  · rfl
  · intro r
    exact iff_of_false List.not_mem_nil List.not_mem_nil
  · intro s pipeEnd
    exact iff_of_false List.not_mem_nil (Nat.not_lt_zero s)
  · intro s pipeEnd
    exact iff_of_false List.not_mem_nil (by simp)

theorem invariant {d : Daemon} (h : machine.Reachable d) : Invariant d :=
  h.invariant (I := Invariant) (fun _ hinitial => invariant_initial hinitial)
    fun _ _ _ hd _ hnext => invariant_next hd hnext

/-- The object that a descriptor belongs to is there. -/
def InUse (d : Daemon) : Descriptor → Prop
  | .conn r => d.mux.Alive (.rrChannel r)
  | .notifyPipe s _ => d.mux.Alive (.socket s)
  | .estabPipe s _ => d.mux.Alive (.pcb s) ∧ d.types[s]? = some .TCP

/-- The descriptors are one for each live `ReqRespChannel`, two for each live `Socket`
and two for each live `TcpPcb`. -/
def Balanced (d : Daemon) : Prop :=
  ∀ fd, fd ∈ d.descriptors ↔ InUse d fd

def AllAlive (m : Mux) : Prop :=
  ∀ s < m.nextSocket, m.Alive (.socket s)

theorem lt_of_alive_socket {d : Daemon} (h : Invariant d) {s : Nat}
    (hs : d.mux.Alive (.socket s)) : s < d.mux.nextSocket := by
  rcases hs with hlocked | ⟨r, -, hs⟩
  · exact h.locked_lt s (.inl hlocked)
  · exact h.table.socket_lt r s hs

theorem alive_pcb {m : Mux} {s : Nat} (h : m.Alive (.socket s)) : m.Alive (.pcb s) :=
  .inr h

/-- No pipe is ever closed, so they are in balance just as long as every socket lives. -/
theorem balanced_iff_allAlive {d : Daemon} (h : Invariant d) : Balanced d ↔ AllAlive d.mux := by
  constructor
  · intro hbalanced s hs
    exact (hbalanced (.notifyPipe s .read)).mp ((h.notifyPipe s .read).mpr hs)
  · intro hall fd
    cases fd with
    | conn r => exact h.conn r
    | notifyPipe s pipeEnd =>
        rw [h.notifyPipe]
        exact ⟨hall s, lt_of_alive_socket h⟩
    | estabPipe s pipeEnd =>
        rw [h.estabPipe]
        constructor
        · intro htype
          have hlt : s < d.mux.nextSocket := by
            rw [← h.types_length]
            exact (List.getElem?_eq_some_iff.mp htype).1
          exact ⟨alive_pcb (hall s hlt), htype⟩
        · exact fun hused => hused.2

/-- The channel has no socket but one that the IP thread holds. -/
def SocketLocked (m : Mux) (r : Nat) : Prop :=
  ∀ s, m.socketOf r = some s → .socket s ∈ m.locked

/-- The step does not let go of the last pointer to a socket: it does not remove a
channel with a socket, nor give such a channel another one, unless the IP thread holds
what goes, and the IP thread does not outlast the other owners. -/
def KeepsSockets (m : Mux) : Label → Prop
  | .callback .removed =>
      ∀ r, m.handling.map Prod.fst = some (.rr r) → .rrChannel r ∈ m.locked ∨ SocketLocked m r
  | .callback (.answered (some _) _) =>
      ∀ r, m.handling.map Prod.fst = some (.rr r) → SocketLocked m r
  | .unlock (.rrChannel r) =>
      r ∈ m.rrChannels ∨ .rrChannel r ∈ m.locked.erase (.rrChannel r) ∨ SocketLocked m r
  | .unlock (.socket s) => Owned m s ∨ .socket s ∈ m.locked.erase (.socket s)
  | _ => True

theorem keepsSockets_of_ne {m : Mux} {outcome : Outcome} (hremoved : outcome ≠ .removed)
    (hanswered : ∀ type writeFails, outcome ≠ .answered (some type) writeFails) :
    KeepsSockets m (.callback outcome) := by
  cases outcome with
  | removed => exact absurd rfl hremoved
  | answered socketCall writeFails =>
      rcases socketCall with _ | type
      · trivial
      · exact absurd rfl (hanswered type writeFails)
  | _ => trivial

section Keep

variable {m : Mux} {r s : Nat}

/-- Where no pointer leads to a channel any more, its socket lives in the hands of the
IP thread only. -/
theorem socketLocked_of_allAlive {m' : Mux} (htable : Table m) (hall : AllAlive m')
    (hnext : m.nextSocket ≤ m'.nextSocket) (hlocked : ∀ o ∈ m'.locked, o ∈ m.locked)
    (hunowned : ∀ s, m.socketOf r = some s → ¬ Owned m' s) : SocketLocked m r := by
  intro s hs
  have halive := hall s (Nat.lt_of_lt_of_le (htable.socket_lt r s hs) hnext)
  rcases halive with hmem | howned
  · exact hlocked _ hmem
  · exact absurd howned (hunowned s hs)

theorem allAlive_removed_iff (htable : Table m) (hall : AllAlive m) :
    AllAlive (m.removeRRChannel r) ↔ .rrChannel r ∈ m.locked ∨ SocketLocked m r := by
  constructor
  · intro hall'
    by_cases hlocked : .rrChannel r ∈ m.locked
    · exact .inl hlocked
    · right
      apply socketLocked_of_allAlive htable hall' (Nat.le_refl _) fun _ ho => ho
      rintro s hs ⟨r', hr', hs'⟩
      obtain rfl := htable.unshared r' r s hs' hs
      rcases mem_held.mp hr' with hmux | hmem
      · exact of_decide_eq_true (List.mem_filter.mp hmux).2 rfl
      · exact hlocked hmem
  · rintro (hlocked | hsocket) s hs
    · exact live_removeRRChannel (c := .newPacket s) (hall s hs) hlocked
    · rcases hall s hs with hmem | ⟨r', hr', hs'⟩
      · exact .inl hmem
      · rcases eq_or_ne r' r with rfl | hne
        · exact .inl (hsocket s hs')
        · refine .inr ⟨r', mem_held.mpr ((mem_held.mp hr').imp_left fun hmem => ?_), hs'⟩
          exact List.mem_filter.mpr ⟨hmem, by simpa using hne⟩

theorem allAlive_socketCall_iff (htable : Table m) (hall : AllAlive m) (type : SocketType)
    (hr : r ∈ m.held) : AllAlive (m.socketCall r type) ↔ SocketLocked m r := by
  constructor
  · intro hall'
    apply socketLocked_of_allAlive htable hall' (Nat.le_succ _) fun _ ho => ho
    intro s hs
    exact not_owned_socketCall htable type hs
  · intro hsocket s hs
    rcases Nat.lt_or_eq_of_le (Nat.le_of_lt_succ hs) with hlt | rfl
    · rcases hall s hlt with hmem | howned
      · exact .inl hmem
      · by_cases hold : m.socketOf r = some s
        · exact .inl (hsocket s hold)
        · exact .inr (owned_socketCall type howned hold)
    · exact .inr ⟨r, hr, socketOf_socketCall_self type (htable.held_lt r hr)⟩

theorem allAlive_unlock_rrChannel_iff (htable : Table m) (hall : AllAlive m) :
    AllAlive (m.unlock (.rrChannel r)) ↔
      r ∈ m.rrChannels ∨ .rrChannel r ∈ m.locked.erase (.rrChannel r) ∨ SocketLocked m r := by
  constructor
  · intro hall'
    by_cases hheld : r ∈ (m.unlock (.rrChannel r)).held
    · exact (mem_held.mp hheld).imp_right .inl
    · refine .inr (.inr ?_)
      apply socketLocked_of_allAlive htable hall' (Nat.le_refl _)
        fun _ ho => List.mem_of_mem_erase ho
      rintro s hs ⟨r', hr', hs'⟩
      obtain rfl := htable.unshared r' r s hs' hs
      exact hheld hr'
  · intro hkept s hs
    rcases hall s hs with hmem | ⟨r', hr', hs'⟩
    · exact .inl (locked_unlock_of_ne (by simp) hmem)
    · rcases eq_or_ne r' r with rfl | hne
      · rcases hkept with hmux | hlocked | hsocket
        · exact .inr ⟨r', mem_held.mpr (.inl hmux), hs'⟩
        · exact .inr ⟨r', mem_held.mpr (.inr hlocked), hs'⟩
        · exact .inl (locked_unlock_of_ne (by simp) (hsocket s hs'))
      · exact .inr ⟨r', held_unlock_of_ne (by simpa using hne) hr', hs'⟩

theorem allAlive_unlock_socket_iff (hall : AllAlive m) (hlt : s < m.nextSocket) :
    AllAlive (m.unlock (.socket s)) ↔ Owned m s ∨ .socket s ∈ m.locked.erase (.socket s) := by
  have hkept : ∀ s', Owned m s' → Owned (m.unlock (.socket s)) s' :=
    fun s' => owned_unlock (by simp)
  constructor
  · intro hall'
    rcases hall' s hlt with hlocked | ⟨r, hr, hs⟩
    · exact .inr hlocked
    · exact .inl ⟨r, mem_held.mpr ((mem_held.mp hr).imp_right List.mem_of_mem_erase), hs⟩
  · intro hspare s' hs'
    rcases eq_or_ne s' s with rfl | hne
    · exact hspare.elim (fun howned => .inr (hkept s' howned)) .inl
    · exact (hall s' hs').imp (locked_unlock_of_ne (by simpa using hne)) (hkept s')

theorem allAlive_muxStep_iff {m' : Mux} {a : Label} (htable : Table m)
    (hlocked : ∀ s, .socket s ∈ m.locked ∨ .pcb s ∈ m.locked → s < m.nextSocket)
    (hall : AllAlive m) (hstep : MuxStep m a m') : AllAlive m' ↔ KeepsSockets m a := by
  cases hstep with
  | poll | handle | handled | unregister => exact iff_of_true hall trivial
  | callback hhandling hlive hrun =>
      rcases run_cases hrun with ⟨connections, rfl, rfl⟩ | ⟨r, rfl, rfl, rfl⟩ |
        ⟨r, type, writeFails, gone, rfl, rfl, rfl⟩ | ⟨gone, rfl, hremoved, hanswered⟩
      · refine iff_of_true ?_ trivial
        intro s hs
        refine live_addRRChannels (c := .newPacket s) connections (hall s ?_)
        exact (nextSocket_addRRChannels m connections) ▸ hs
      · refine (allAlive_removed_iff htable hall).trans ?_
        simp only [KeepsSockets, hhandling, Option.map_some, Option.some.injEq, Channel.rr.injEq,
          forall_eq']
      · refine (allAlive_socketCall_iff htable hall type hlive).trans ?_
        simp only [KeepsSockets, hhandling, Option.map_some, Option.some.injEq, Channel.rr.injEq,
          forall_eq']
      · exact iff_of_true hall (keepsSockets_of_ne hremoved hanswered)
  | lock halive =>
      refine iff_of_true ?_ trivial
      intro s hs
      refine (hall s hs).imp (List.mem_cons_of_mem _) ?_
      rintro ⟨r, hr, hs⟩
      exact ⟨r, mem_held.mpr ((mem_held.mp hr).imp_right (List.mem_cons_of_mem _)), hs⟩
  | @unlock o hmem =>
      cases o with
      | rrChannel r => exact allAlive_unlock_rrChannel_iff htable hall
      | socket s => exact allAlive_unlock_socket_iff hall (hlocked s (.inl hmem))
      | pcb s =>
          refine iff_of_true ?_ trivial
          intro s' hs'
          exact (hall s' hs').imp (locked_unlock_of_ne (by simp)) (owned_unlock (by simp))

end Keep

/-- The descriptors are in balance in the runs whose steps keep every socket, and no
longer after a step that does not. -/
theorem balanced_iff_keepsSockets (d : Daemon) :
    (machine.ReachableUnder (fun d a => KeepsSockets d.mux a) d → Balanced d) ∧
      ∀ d' a, machine.Reachable d → Balanced d → machine.next d a = some d' →
        (Balanced d' ↔ KeepsSockets d.mux a) := by
  have hstep : ∀ d d' a, Invariant d → Balanced d → machine.next d a = some d' →
      (Balanced d' ↔ KeepsSockets d.mux a) := by
    intro d d' a hd hbalanced hnext
    obtain ⟨m, hmux, rfl⟩ := Option.map_eq_some_iff.mp hnext
    rw [balanced_iff_allAlive (invariant_next hd hnext)]
    exact allAlive_muxStep_iff hd.table hd.locked_lt ((balanced_iff_allAlive hd).mp hbalanced)
      (muxStep_of_nextMux hmux)
  constructor
  · intro h
    refine (h.invariant (I := fun d => Invariant d ∧ Balanced d) ?_ ?_).2
    · intro d hinitial
      have hd := invariant_initial hinitial
      refine ⟨hd, (balanced_iff_allAlive hd).mpr ?_⟩
      intro s hs
      rw [State.running.inj hinitial.1] at hs
      exact absurd hs (Nat.not_lt_zero s)
    · rintro d a d' ⟨hd, hbalanced⟩ hguard hnext
      exact ⟨invariant_next hd hnext, (hstep d d' a hd hbalanced hnext).mpr hguard⟩
  · intro d' a hreach hbalanced hnext
    exact hstep d d' a (invariant hreach) hbalanced hnext

def sampleInitial : Daemon :=
  { mux := LiveChannels.sampleInitial
    types := []
    descriptors := [] }

def sampleReading : Daemon :=
  { mux := LiveChannels.sampleReading
    types := []
    descriptors := [.conn 0] }

/-- A hang-up is seen on a channel with a UDP socket. -/
def sampleClosing : Daemon :=
  { mux :=
      { rrChannels := [0]
        sockets := [some 0]
        nextSocket := 1
        locked := []
        channels := [.listener, .rr 0, .newPacket 0]
        actives := []
        handling := some (.rr 0, [.onClose]) }
    types := [.UDP]
    descriptors := [.conn 0, .notifyPipe 0 .read, .notifyPipe 0 .write] }

def sampleClosed : Daemon :=
  { mux :=
      { rrChannels := []
        sockets := [some 0]
        nextSocket := 1
        locked := []
        channels := [.listener]
        actives := []
        handling := some (.rr 0, []) }
    types := [.UDP]
    descriptors := [.notifyPipe 0 .read, .notifyPipe 0 .write] }

theorem sampleInitial_initial : machine.initial sampleInitial :=
  ⟨rfl, rfl, rfl⟩

theorem sampleReading_reachable :
    machine.ReachableUnder (fun d a => KeepsSockets d.mux a) sampleReading := by
  have hexec : machine.exec sampleInitial sampleLabels = some sampleReading := by
    decide
  refine Machine.reachableUnder_of_exec (.initial sampleInitial_initial) ?_ hexec
  intro d a ha
  simp only [sampleLabels, List.mem_cons, List.not_mem_nil, or_false] at ha
  rcases ha with rfl | rfl | rfl | rfl | rfl | rfl <;> trivial

theorem sampleClosing_reachable :
    machine.ReachableUnder (fun d a => KeepsSockets d.mux a) sampleClosing := by
  have hsocket : KeepsSockets sampleReading.mux (.callback (.answered (some .UDP) false)) := by
    rintro r ⟨⟩ s ⟨⟩
  obtain ⟨d, hnext⟩ : ∃ d, machine.next sampleReading (.callback (.answered (some .UDP) false)) =
      some d := ⟨_, rfl⟩
  have hexec : machine.exec sampleReading
      [.callback (.answered (some .UDP) false), .handled, .poll (some [(.rr 0, POLLHUP)]),
        .handle] = some sampleClosing := by
    decide
  rw [Machine.exec, hnext, Option.bind_some] at hexec
  refine Machine.reachableUnder_of_exec (.step sampleReading_reachable hsocket hnext) ?_ hexec
  intro d a ha
  simp only [List.mem_cons, List.not_mem_nil, or_false] at ha
  rcases ha with rfl | rfl | rfl <;> trivial

theorem balanced_sample :
    Balanced sampleClosing ∧
      (Balanced sampleClosed ↔ KeepsSockets sampleClosing.mux (.callback .removed)) := by
  have hsample := balanced_iff_keepsSockets sampleClosing
  have hbalanced := hsample.1 sampleClosing_reachable
  refine ⟨hbalanced, ?_⟩
  exact hsample.2 _ (.callback .removed) sampleClosing_reachable.reachable hbalanced (by decide)

/-- A client made a UDP socket and went away, and the notify pipe stays open. -/
theorem hangUp_leaks : ¬ ∀ d, machine.Reachable d → Balanced d := by
  intro hbalanced
  have hnext : machine.next sampleClosing (.callback .removed) = some sampleClosed := by
    decide
  have hreach : machine.Reachable sampleClosed :=
    .step sampleClosing_reachable.reachable trivial hnext
  have hused := (hbalanced _ hreach (.notifyPipe 0 .read)).mp (by decide)
  exact absurd hused (by decide : ¬ sampleClosed.mux.Alive (.socket 0))

end MuQuinet.DescriptorLeaks
