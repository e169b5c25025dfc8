import MuQuinet.EventLoops
import MuQuinet.Lib.Registries

namespace MuQuinet.PollSet

open MuQuinet.Lib.Machines
open MuQuinet.Lib.Registries
open MuQuinet.EventLoops

def noneEvent : UInt32 := 0
def readEvent : UInt32 := POLLIN ||| POLLPRI
def writeEvent : UInt32 := POLLOUT

/-- `ownerLoop` says whether that member points to the event loop; if not, it is null. -/
structure SelectableChannel where
  fd : Int
  eventsInterested : UInt32
  ownerLoop : Bool
deriving DecidableEq, Repr

/-- The channels that there are, those that the `EventLoop` knows, and the descriptors
that are registered with the epoll instance of its `Poller`, with their masks. -/
structure EventLoop (C : Type*) where
  channel : C → SelectableChannel
  channels : List C
  epoll : Registry Int UInt32

variable {C : Type*} [DecidableEq C]

namespace EventLoop

variable (l : EventLoop C) (c : C)

def fd (c : C) : Int :=
  (l.channel c).fd

def eventsInterested (c : C) : UInt32 :=
  (l.channel c).eventsInterested

def addChannel : EventLoop C :=
  if c ∈ l.channels then l
  else
    { l with
      epoll := add l.epoll (l.fd c) (l.eventsInterested c)
      channels := l.channels ++ [c] }

def removeChannel : EventLoop C :=
  if c ∈ l.channels then
    { l with
      epoll := delete l.epoll (l.fd c)
      channels := l.channels.erase c }
  else l

def updateChannel : EventLoop C :=
  if c ∈ l.channels then { l with epoll := modify l.epoll (l.fd c) (l.eventsInterested c) }
  else l

def setChannel (channel : SelectableChannel) : EventLoop C :=
  { l with channel := Function.update l.channel c channel }

def setOwnerEventLoop (ownerLoop : Bool) : EventLoop C :=
  l.setChannel c { l.channel c with ownerLoop := ownerLoop }

def unregisterSelf : EventLoop C :=
  let l := if (l.channel c).ownerLoop then l.removeChannel c else l
  l.setOwnerEventLoop c false

/-- `~SelectableChannel`. -/
def destroy : EventLoop C :=
  if (l.channel c).ownerLoop then l.removeChannel c else l

/-- What the five functions have in common that change the mask. -/
def setEvents (eventsInterested : UInt32) : EventLoop C :=
  let l := l.setChannel c { l.channel c with eventsInterested := eventsInterested }
  if (l.channel c).ownerLoop then l.updateChannel c else l

def enableReading : EventLoop C :=
  l.setEvents c (l.eventsInterested c ||| readEvent)

-- The mask is not `~readEvent` here, as it is in the sibling.
def disableReading : EventLoop C :=
  l.setEvents c (l.eventsInterested c &&& noneEvent)

def enableWriting : EventLoop C :=
  l.setEvents c (l.eventsInterested c ||| writeEvent)

def disableWriting : EventLoop C :=
  l.setEvents c (l.eventsInterested c &&& ~~~writeEvent)

def disableAll : EventLoop C :=
  l.setEvents c (l.eventsInterested c &&& noneEvent)

end EventLoop

inductive Call
  /-- `addChannel`, and the `setOwnerEventLoop` that follows it. -/
  | addChannel
  | removeChannel
  | unregisterSelf
  | destroy
  | enableReading
  | disableReading
  | enableWriting
  | disableWriting
  | disableAll
deriving DecidableEq, Repr

def EventLoop.call (l : EventLoop C) (c : C) : Call → EventLoop C
  | .addChannel => (l.addChannel c).setOwnerEventLoop c true
  | .removeChannel => l.removeChannel c
  | .unregisterSelf => l.unregisterSelf c
  | .destroy => l.destroy c
  | .enableReading => l.enableReading c
  | .disableReading => l.disableReading c
  | .enableWriting => l.enableWriting c
  | .disableWriting => l.disableWriting c
  | .disableAll => l.disableAll c

/-- What the last calls asked for that affect reading and writing. -/
structure Interest where
  read : Bool
  write : Bool
deriving DecidableEq, Repr

def Interest.after (wants : Interest) : Call → Interest
  | .enableReading => { wants with read := true }
  | .disableReading => { wants with read := false }
  | .enableWriting => { wants with write := true }
  | .disableWriting => { wants with write := false }
  | .disableAll => { read := false, write := false }
  | .addChannel | .removeChannel | .unregisterSelf | .destroy => wants

def Interest.mask (wants : Interest) : UInt32 :=
  (if wants.read then readEvent else noneEvent) ||| (if wants.write then writeEvent else noneEvent)

structure State (C : Type*) where
  loop : EventLoop C
  wants : C → Interest
  destroyed : List C

structure Label (C : Type*) where
  c : C
  call : Call

def next (s : State C) (a : Label C) : Option (State C) :=
  if a.c ∈ s.destroyed then none
  else
    some
      { loop := s.loop.call a.c a.call
        wants := Function.update s.wants a.c ((s.wants a.c).after a.call)
        destroyed := if a.call = .destroy then a.c :: s.destroyed else s.destroyed }

/-- New channels with descriptors of their own. -/
def machine : Machine (State C) (Label C) where
  initial s := Function.Injective s.loop.fd ∧
    (∀ c, s.loop.eventsInterested c = noneEvent ∧ (s.loop.channel c).ownerLoop = false ∧
      s.wants c = { read := false, write := false }) ∧
    s.loop.channels = [] ∧ s.loop.epoll = (fun _ => none) ∧ s.destroyed = []
  next := next

/-- The list of the loop and the epoll instance are in step. -/
structure InStep (l : EventLoop C) : Prop where
  nodup : l.channels.Nodup
  registered_iff : ∀ fd, (l.epoll fd).isSome ↔ ∃ c ∈ l.channels, l.fd c = fd

/-- Each mask that epoll holds is the one that the last calls asked for. -/
structure Refines (s : State C) : Prop where
  inStep : InStep s.loop
  read_bits : ∀ c ∈ s.loop.channels, ∀ mask, s.loop.epoll (s.loop.fd c) = some mask →
    mask &&& readEvent = if (s.wants c).read then readEvent else noneEvent
  write_bits : ∀ c ∈ s.loop.channels, ∀ mask, s.loop.epoll (s.loop.fd c) = some mask →
    mask &&& writeEvent = if (s.wants c).write then writeEvent else noneEvent

/-- `disableReading` finds no interest in writing that it would clear. -/
def KeepsWriting (s : State C) (a : Label C) : Prop :=
  a.call = .disableReading → (s.wants a.c).write = false

/-- The channels of the list are registered under their descriptors with the masks that
they have themselves. -/
structure Consistent (l : EventLoop C) : Prop where
  nodup : l.channels.Nodup
  fd_injective : Function.Injective l.fd
  mirrors : Mirrors l.channels l.fd l.eventsInterested l.epoll

theorem Consistent.inStep {C : Type*} {l : EventLoop C} (h : Consistent l) : InStep l :=
  ⟨h.nodup, h.mirrors.isSome_iff⟩

def Owned (l : EventLoop C) : Prop :=
  ∀ c ∈ l.channels, (l.channel c).ownerLoop = true

namespace EventLoop

variable {l : EventLoop C} {c : C}

@[simp] theorem channel_setChannel (l : EventLoop C) (c : C) (channel : SelectableChannel) :
    (l.setChannel c channel).channel = Function.update l.channel c channel :=
  rfl

theorem fd_setChannel {channel : SelectableChannel} (h : channel.fd = l.fd c) :
    (l.setChannel c channel).fd = l.fd := by
  funext c'
  unfold fd
  rw [channel_setChannel]
  rcases eq_or_ne c' c with rfl | hne
  · rw [Function.update_self, h]
    rfl
  · rw [Function.update_of_ne hne]

theorem eventsInterested_setChannel (l : EventLoop C) (c : C) (channel : SelectableChannel) :
    (l.setChannel c channel).eventsInterested =
      Function.update l.eventsInterested c channel.eventsInterested := by
  funext c'
  unfold eventsInterested
  rw [channel_setChannel]
  rcases eq_or_ne c' c with rfl | hne
  · rw [Function.update_self, Function.update_self]
  · rw [Function.update_of_ne hne, Function.update_of_ne hne]

theorem eventsInterested_setOwnerEventLoop (l : EventLoop C) (c : C) (ownerLoop : Bool) :
    (l.setOwnerEventLoop c ownerLoop).eventsInterested = l.eventsInterested := by
  rw [setOwnerEventLoop, eventsInterested_setChannel]
  exact Function.update_eq_self c l.eventsInterested

theorem channel_addChannel (l : EventLoop C) (c : C) :
    (l.addChannel c).channel = l.channel := by
  unfold addChannel
  split <;> rfl

theorem channel_removeChannel (l : EventLoop C) (c : C) :
    (l.removeChannel c).channel = l.channel := by
  unfold removeChannel
  split <;> rfl

theorem channel_updateChannel (l : EventLoop C) (c : C) :
    (l.updateChannel c).channel = l.channel := by
  unfold updateChannel
  split <;> rfl

theorem consistent_addChannel (h : Consistent l) (c : C) : Consistent (l.addChannel c) := by
  obtain ⟨hnodup, hinjective, hmirrors⟩ := h
  unfold addChannel
  split
  · exact ⟨hnodup, hinjective, hmirrors⟩
  · rename_i hmem
    refine ⟨?_, hinjective, hmirrors.add hinjective hmem⟩
    exact List.nodup_append_comm.mp (List.nodup_cons.mpr ⟨hmem, hnodup⟩)

theorem consistent_removeChannel (h : Consistent l) (c : C) : Consistent (l.removeChannel c) := by
  obtain ⟨hnodup, hinjective, hmirrors⟩ := h
  unfold removeChannel
  split
  · exact ⟨hnodup.erase c, hinjective, hmirrors.delete hinjective hnodup⟩
  · exact ⟨hnodup, hinjective, hmirrors⟩

theorem consistent_setOwnerEventLoop (h : Consistent l) (c : C) (ownerLoop : Bool) :
    Consistent (l.setOwnerEventLoop c ownerLoop) := by
  have hfd : (l.setOwnerEventLoop c ownerLoop).fd = l.fd := fd_setChannel rfl
  obtain ⟨hnodup, hinjective, hmirrors⟩ := h
  refine ⟨hnodup, hfd ▸ hinjective, ?_⟩
  rw [hfd, eventsInterested_setOwnerEventLoop]
  exact hmirrors

/-- The mask is handed on wherever epoll has one to be replaced. -/
theorem consistent_setEvents (h : Consistent l) (howned : Owned l) (c : C)
    (eventsInterested : UInt32) : Consistent (l.setEvents c eventsInterested) := by
  obtain ⟨hnodup, hinjective, hmirrors⟩ := h
  let changed := l.setChannel c { l.channel c with eventsInterested := eventsInterested }
  have hfd : changed.fd = l.fd := fd_setChannel rfl
  have hevents : changed.eventsInterested =
      Function.update l.eventsInterested c eventsInterested :=
    eventsInterested_setChannel l c _
  have howner : (changed.channel c).ownerLoop = (l.channel c).ownerLoop := by
    simp only [changed, channel_setChannel, Function.update_self]
  show Consistent (if (changed.channel c).ownerLoop then changed.updateChannel c else changed)
  by_cases hmem : c ∈ l.channels
  · have hmem' : c ∈ changed.channels := hmem
    rw [howner, howned c hmem, if_pos rfl, updateChannel, if_pos hmem']
    refine ⟨hnodup, hfd ▸ hinjective, ?_⟩
    show Mirrors l.channels changed.fd changed.eventsInterested
      (modify l.epoll (changed.fd c) (changed.eventsInterested c))
    rw [hfd, hevents, Function.update_self]
    exact hmirrors.modify hinjective hmem eventsInterested
  · have hchanged : Consistent changed := by
      refine ⟨hnodup, hfd ▸ hinjective, ?_⟩
      rw [hfd, hevents]
      exact hmirrors.update_value hmem eventsInterested
    have hmem' : c ∉ changed.channels := hmem
    rw [updateChannel, if_neg hmem', ite_self]
    exact hchanged

theorem channels_setEvents (l : EventLoop C) (c : C) (eventsInterested : UInt32) :
    (l.setEvents c eventsInterested).channels = l.channels := by
  unfold setEvents updateChannel
  dsimp only
  split
  · split <;> rfl
  · rfl

theorem channel_setEvents (l : EventLoop C) (c : C) (eventsInterested : UInt32) :
    (l.setEvents c eventsInterested).channel =
      Function.update l.channel c { l.channel c with eventsInterested := eventsInterested } := by
  unfold setEvents
  dsimp only
  split
  · rw [channel_updateChannel, channel_setChannel]
  · rfl

theorem owned_setEvents (h : Owned l) (c : C) (eventsInterested : UInt32) :
    Owned (l.setEvents c eventsInterested) := by
  intro c' hmem
  rw [channels_setEvents] at hmem
  rw [channel_setEvents]
  rcases eq_or_ne c' c with rfl | hne
  · rw [Function.update_self]
    exact h c' hmem
  · rw [Function.update_of_ne hne]
    exact h c' hmem

theorem eventsInterested_setEvents (l : EventLoop C) (c : C) (events : UInt32) :
    (l.setEvents c events).eventsInterested = Function.update l.eventsInterested c events := by
  have hchanged := eventsInterested_setChannel l c { l.channel c with eventsInterested := events }
  funext c'
  rw [← congrFun hchanged c', eventsInterested, channel_setEvents, eventsInterested,
    channel_setChannel]

theorem mem_channels_addChannel {c' : C} :
    c' ∈ (l.addChannel c).channels ↔ c' ∈ l.channels ∨ c' = c := by
  unfold addChannel
  split
  · rename_i hmem
    refine ⟨.inl, ?_⟩
    rintro (hmem' | rfl)
    · exact hmem'
    · exact hmem
  · rw [List.mem_append, List.mem_singleton]

theorem mem_channels_removeChannel (h : l.channels.Nodup) {c' : C} :
    c' ∈ (l.removeChannel c).channels ↔ c' ≠ c ∧ c' ∈ l.channels := by
  unfold removeChannel
  split
  · exact h.mem_erase_iff
  · rename_i hmem
    refine ⟨fun hmem' => ⟨?_, hmem'⟩, And.right⟩
    rintro rfl
    exact hmem hmem'

/-- A channel that the loop knows has an owner, and so it removes itself. -/
theorem mem_channels_destroy (h : l.channels.Nodup) (howned : Owned l) {c' : C} :
    c' ∈ (l.destroy c).channels ↔ c' ≠ c ∧ c' ∈ l.channels := by
  unfold destroy
  split
  · exact mem_channels_removeChannel h
  · rename_i howner
    refine ⟨fun hmem => ⟨?_, hmem⟩, And.right⟩
    rintro rfl
    exact howner (howned c' hmem)

theorem consistent_destroy (h : Consistent l) (c : C) : Consistent (l.destroy c) := by
  unfold destroy
  split
  · exact consistent_removeChannel h c
  · exact h

theorem channel_destroy (l : EventLoop C) (c : C) : (l.destroy c).channel = l.channel := by
  unfold destroy
  split
  · exact channel_removeChannel l c
  · rfl

end EventLoop

/-- The mask of a channel after a call. -/
def Call.mask (events : UInt32) : Call → UInt32
  | .enableReading => events ||| readEvent
  | .disableReading | .disableAll => events &&& noneEvent
  | .enableWriting => events ||| writeEvent
  | .disableWriting => events &&& ~~~writeEvent
  | .addChannel | .removeChannel | .unregisterSelf | .destroy => events

section Calls

open EventLoop

variable {l : EventLoop C}

theorem consistent_call (h : Consistent l) (howned : Owned l) (c : C) (call : Call) :
    Consistent (l.call c call) := by
  cases call with
  | addChannel => exact consistent_setOwnerEventLoop (consistent_addChannel h c) c true
  | removeChannel => exact consistent_removeChannel h c
  | unregisterSelf => exact consistent_setOwnerEventLoop (consistent_destroy h c) c false
  | destroy => exact consistent_destroy h c
  | enableReading | disableReading | enableWriting | disableWriting | disableAll =>
      exact consistent_setEvents h howned c _

theorem owned_call (h : Owned l) (hnodup : l.channels.Nodup) (c : C) (call : Call) :
    Owned (l.call c call) := by
  cases call with
  | addChannel =>
      intro c' hmem
      show (Function.update (l.addChannel c).channel c _ c').ownerLoop = true
      rcases eq_or_ne c' c with rfl | hne
      · rw [Function.update_self]
      · rw [Function.update_of_ne hne, channel_addChannel]
        exact h c' ((mem_channels_addChannel.mp hmem).resolve_right hne)
  | removeChannel =>
      intro c' hmem
      rw [EventLoop.call, channel_removeChannel]
      exact h c' ((mem_channels_removeChannel hnodup).mp hmem).2
  | unregisterSelf =>
      intro c' hmem
      obtain ⟨hne, hmem'⟩ := (mem_channels_destroy hnodup h).mp hmem
      show (Function.update (l.destroy c).channel c _ c').ownerLoop = true
      rw [Function.update_of_ne hne, channel_destroy]
      exact h c' hmem'
  | destroy =>
      intro c' hmem
      rw [EventLoop.call, channel_destroy]
      exact h c' ((mem_channels_destroy hnodup h).mp hmem).2
  | enableReading | disableReading | enableWriting | disableWriting | disableAll =>
      exact owned_setEvents h c _

theorem eventsInterested_call (l : EventLoop C) (c : C) (call : Call) :
    (l.call c call).eventsInterested =
      Function.update l.eventsInterested c (call.mask (l.eventsInterested c)) := by
  have hsame : Function.update l.eventsInterested c (l.eventsInterested c) = l.eventsInterested :=
    Function.update_eq_self c l.eventsInterested
  cases call with
  | addChannel =>
      rw [EventLoop.call, eventsInterested_setOwnerEventLoop, Call.mask, hsame]
      unfold eventsInterested
      rw [channel_addChannel]
  | removeChannel =>
      rw [EventLoop.call, Call.mask, hsame]
      unfold eventsInterested
      rw [channel_removeChannel]
  | unregisterSelf =>
      show ((l.destroy c).setOwnerEventLoop c false).eventsInterested = _
      rw [eventsInterested_setOwnerEventLoop, Call.mask, hsame]
      unfold eventsInterested
      rw [channel_destroy]
  | destroy =>
      rw [EventLoop.call, Call.mask, hsame]
      unfold eventsInterested
      rw [channel_destroy]
  | enableReading | disableReading | enableWriting | disableWriting | disableAll =>
      exact eventsInterested_setEvents l c _

/-- Only `addChannel` makes a channel known to the loop. -/
theorem mem_channels_call (h : Owned l) (hnodup : l.channels.Nodup) {c c' : C} {call : Call}
    (hmem : c' ∈ (l.call c call).channels) : c' ∈ l.channels ∨ c' = c ∧ call = .addChannel := by
  cases call with
  | addChannel =>
      rcases mem_channels_addChannel.mp hmem with hmem | rfl
      · exact .inl hmem
      · exact .inr ⟨rfl, rfl⟩
  | removeChannel => exact .inl ((mem_channels_removeChannel hnodup).mp hmem).2
  | unregisterSelf => exact .inl ((mem_channels_destroy hnodup h).mp hmem).2
  | destroy => exact .inl ((mem_channels_destroy hnodup h).mp hmem).2
  | enableReading | disableReading | enableWriting | disableWriting | disableAll =>
      exact .inl (channels_setEvents l c _ ▸ hmem)

end Calls

section Masks

variable (wants : Interest)

theorem mask_and_readEvent :
    wants.mask &&& readEvent = if wants.read then readEvent else noneEvent := by
  rcases wants with ⟨_ | _, _ | _⟩ <;> rfl

theorem mask_and_writeEvent :
    wants.mask &&& writeEvent = if wants.write then writeEvent else noneEvent := by
  rcases wants with ⟨_ | _, _ | _⟩ <;> rfl

/-- The masks do what the calls ask for, but for `disableReading` where writing is
wanted. -/
theorem mask_call {call : Call} (h : call = .disableReading → wants.write = false) :
    call.mask wants.mask = (wants.after call).mask := by
  rcases wants with ⟨read, write⟩
  cases call with
  | disableReading =>
      obtain rfl : write = false := h rfl
      cases read <;> rfl
  | addChannel | removeChannel | unregisterSelf | destroy => rfl
  | enableReading | enableWriting | disableWriting | disableAll =>
      cases read <;> cases write <;> rfl

end Masks

structure Invariant (s : State C) : Prop where
  consistent : Consistent s.loop
  owned : Owned s.loop
  live : ∀ c ∈ s.loop.channels, c ∉ s.destroyed

/-- The masks of the channels themselves are those asked for. -/
def MasksKept (s : State C) : Prop :=
  ∀ c, s.loop.eventsInterested c = (s.wants c).mask

theorem next_eq_some {s s' : State C} {a : Label C} (h : next s a = some s') :
    a.c ∉ s.destroyed ∧ s'.loop = s.loop.call a.c a.call ∧
      s'.wants = Function.update s.wants a.c ((s.wants a.c).after a.call) ∧
      s'.destroyed = if a.call = .destroy then a.c :: s.destroyed else s.destroyed := by
  unfold next at h
  split at h
  · cases h
  · rename_i hlive
    cases h
    exact ⟨hlive, rfl, rfl, rfl⟩

section Runs

variable {s s' : State C} {a : Label C}

theorem invariant_next (h : Invariant s) (hnext : next s a = some s') : Invariant s' := by
  obtain ⟨hconsistent, howned, hlive⟩ := h
  obtain ⟨hexists, hloop, -, hdestroyed⟩ := next_eq_some hnext
  constructor
  · rw [hloop]
    exact consistent_call hconsistent howned a.c a.call
  · rw [hloop]
    exact owned_call howned hconsistent.nodup a.c a.call
  · intro c hmem
    rw [hloop] at hmem
    rw [hdestroyed]
    split
    · rename_i hcall
      rw [hcall] at hmem
      obtain ⟨hne, hmem⟩ := (EventLoop.mem_channels_destroy hconsistent.nodup howned).mp hmem
      exact List.not_mem_cons_of_ne_of_not_mem hne (hlive c hmem)
    · rcases mem_channels_call howned hconsistent.nodup hmem with hmem | ⟨rfl, -⟩
      · exact hlive c hmem
      · exact hexists

theorem invariant_of_reachable {guard : State C → Label C → Prop}
    (h : machine.ReachableUnder guard s) : Invariant s := by
  refine h.invariant (I := Invariant) ?_ ?_
  · rintro s ⟨hinjective, -, hchannels, hepoll, -⟩
    constructor
    · refine ⟨?_, hinjective, ?_⟩
      · rw [hchannels]
        exact List.nodup_nil
      · rw [hchannels, hepoll]
        exact mirrors_nil _ _
    · simp [Owned, hchannels]
    · simp [hchannels]
  · intro s a s' hs _ hnext
    exact invariant_next hs hnext

theorem refines_of_masks {C : Type*} {s : State C} (h : Consistent s.loop)
    (hmasks : ∀ c ∈ s.loop.channels, s.loop.eventsInterested c = (s.wants c).mask) : Refines s := by
  have hheld : ∀ c ∈ s.loop.channels, ∀ mask, s.loop.epoll (s.loop.fd c) = some mask →
      mask = (s.wants c).mask := by
    intro c hmem mask hmask
    rw [← hmasks c hmem]
    exact Option.some.inj (hmask.symm.trans (h.mirrors.held c hmem))
  refine ⟨h.inStep, ?_, ?_⟩
  · intro c hmem mask hmask
    rw [hheld c hmem mask hmask, mask_and_readEvent]
  · intro c hmem mask hmask
    rw [hheld c hmem mask hmask, mask_and_writeEvent]

/-- Whatever the call, the masks of the other channels are kept. -/
theorem masks_next {c : C} (hmasks : MasksKept s) (hnext : next s a = some s')
    (h : c = a.c → KeepsWriting s a) : s'.loop.eventsInterested c = (s'.wants c).mask := by
  obtain ⟨-, hloop, hwants, -⟩ := next_eq_some hnext
  rw [hloop, hwants, eventsInterested_call]
  rcases eq_or_ne c a.c with rfl | hne
  · rw [Function.update_self, Function.update_self, hmasks a.c]
    exact mask_call (s.wants a.c) (h rfl)
  · rw [Function.update_of_ne hne, Function.update_of_ne hne, hmasks c]

theorem masksKept_of_reachable (h : machine.ReachableUnder KeepsWriting s) : MasksKept s := by
  refine h.invariant (I := MasksKept) ?_ ?_
  · rintro s ⟨-, hnew, -⟩ c
    obtain ⟨hevents, -, hwants⟩ := hnew c
    rw [hevents, hwants]
    rfl
  · intro s a s' hmasks hguard hnext c
    exact masks_next hmasks hnext fun _ => hguard

/-- The list of the loop and epoll stay in step in every run.  The masks are those asked
for while `disableReading` is not called where writing is wanted, and the first such call
on a registered channel takes the writing away. -/
theorem refines_of_keepsWriting (s : State C) :
    (machine.Reachable s → InStep s.loop ∧ ∀ c ∈ s.loop.channels, c ∉ s.destroyed) ∧
    (machine.ReachableUnder KeepsWriting s →
      Refines s ∧ ∀ a s', next s a = some s' →
        (Refines s' ↔ (a.c ∈ s.loop.channels → KeepsWriting s a))) := by
  constructor
  · intro h
    have hs := invariant_of_reachable h
    exact ⟨hs.consistent.inStep, hs.live⟩
  · intro h
    have hs := invariant_of_reachable h
    have hmasks := masksKept_of_reachable h
    refine ⟨refines_of_masks hs.consistent fun c _ => hmasks c, ?_⟩
    intro a s' hnext
    have hs' := invariant_next hs hnext
    obtain ⟨-, hloop, hwants, -⟩ := next_eq_some hnext
    constructor
    · intro hrefines hmem hcall
      have hmem' : a.c ∈ s'.loop.channels := by
        rw [hloop, hcall]
        exact (EventLoop.channels_setEvents s.loop a.c _).symm ▸ hmem
      have hmask := hs'.consistent.mirrors.held a.c hmem'
      have hbits := hrefines.write_bits a.c hmem' _ hmask
      rw [hloop, hwants, eventsInterested_call, Function.update_self, Function.update_self, hcall,
        Call.mask] at hbits
      by_contra hwrite
      rw [Interest.after, if_pos (Bool.eq_true_of_not_eq_false hwrite), noneEvent, UInt32.and_zero,
        UInt32.zero_and] at hbits
      exact absurd hbits (by decide)
    · intro hguard
      refine refines_of_masks hs'.consistent ?_
      intro c hmem
      refine masks_next hmasks hnext ?_
      rintro rfl hcall
      rw [hloop] at hmem
      rcases mem_channels_call hs.owned hs.consistent.nodup hmem with hmem | ⟨-, hadd⟩
      · exact hguard hmem hcall
      · rw [hcall] at hadd
        cases hadd

end Runs

/-- One channel for each number, of a descriptor above those of the standard streams. -/
def sampleState : State Nat :=
  { loop :=
      { channel := fun c => { fd := c + 3, eventsInterested := noneEvent, ownerLoop := false }
        channels := []
        epoll := fun _ => none }
    wants := fun _ => { read := false, write := false }
    destroyed := [] }

theorem sampleState_initial : machine.initial sampleState := by
  refine ⟨?_, fun _ => ⟨rfl, rfl, rfl⟩, rfl, rfl, rfl⟩
  intro c c' h
  have hfd : (c : Int) + 3 = c' + 3 := h
  omega

/-- A channel that is registered for reading, and then for writing too. -/
def sampleLabels : List (Label Nat) :=
  [⟨0, .enableReading⟩, ⟨0, .addChannel⟩, ⟨0, .enableWriting⟩]

theorem sample_refines :
    ∃ s, machine.exec sampleState sampleLabels = some s ∧ s.loop.channels = [0] ∧ Refines s := by
  obtain ⟨s, hexec, hchannels⟩ : ∃ s, machine.exec sampleState sampleLabels = some s ∧
      s.loop.channels = [0] := ⟨_, rfl, rfl⟩
  have hguard : ∀ s, ∀ a ∈ sampleLabels, KeepsWriting s a := by
    intro s a hmem hcall
    rcases a with ⟨c, call⟩
    simp only [sampleLabels, List.mem_cons, Label.mk.injEq, List.not_mem_nil, or_false] at hmem
    rcases hmem with ⟨-, rfl⟩ | ⟨-, rfl⟩ | ⟨-, rfl⟩ <;> cases hcall
  have hreach := Machine.reachableUnder_of_exec (.initial sampleState_initial) hguard hexec
  exact ⟨s, hexec, hchannels, ((refines_of_keepsWriting s).2 hreach).1⟩

/-- `disableReading` on that channel leaves epoll with an empty mask. -/
theorem disableReading_stops_writing :
    ∃ s, machine.Reachable s ∧ s.loop.channels = [0] ∧ s.loop.epoll 3 = some noneEvent ∧
      s.wants 0 = { read := false, write := true } ∧ ¬ Refines s := by
  obtain ⟨s, hexec, hchannels, hmask, hwants, hfd⟩ : ∃ s,
      machine.exec sampleState (sampleLabels ++ [⟨0, .disableReading⟩]) = some s ∧
      s.loop.channels = [0] ∧ s.loop.epoll 3 = some noneEvent ∧
      s.wants 0 = { read := false, write := true } ∧ s.loop.fd 0 = 3 :=
    ⟨_, rfl, rfl, rfl, rfl, rfl⟩
  have hreach := Machine.reachable_of_exec (.initial sampleState_initial) hexec
  refine ⟨s, hreach, hchannels, hmask, hwants, ?_⟩
  intro hrefines
  have hbits := hrefines.write_bits 0 (by simp [hchannels]) noneEvent (hfd ▸ hmask)
  rw [hwants] at hbits
  exact absurd hbits (by decide)

end MuQuinet.PollSet
