import MuQuinet.Lib.Machines
import MuQuinet.Sockets

namespace MuQuinet.EventLoops

open MuQuinet.Lib.Machines
open MuQuinet.Sockets

inductive Channel
  | listener
  | rr (rrChannel : Nat)
  /-- `getAsyncNewPacketNotifyChannel` of a socket. -/
  | newPacket (socket : Nat)
  /-- `getConnEstabNotifyChannel` of the PCB of a TCP socket. -/
  | connEstab (socket : Nat)
deriving DecidableEq, Repr

/-- What a `shared_ptr` points to.  A PCB has the number of its socket. -/
inductive Object
  | rrChannel (r : Nat)
  | socket (s : Nat)
  | pcb (s : Nat)
deriving DecidableEq, Repr

def Object.rrChannel? : Object → Option Nat
  | .rrChannel r => some r
  | _ => none

def POLLIN : UInt32 := 0x001
def POLLPRI : UInt32 := 0x002
def POLLOUT : UInt32 := 0x004
def POLLERR : UInt32 := 0x008
def POLLHUP : UInt32 := 0x010
def POLLNVAL : UInt32 := 0x020
def POLLRDHUP : UInt32 := 0x2000

def maxEventsReceivedEachPoll : Nat := 64

inductive Callback
  | onClose
  | onError
  | onRead
  | onWrite
deriving DecidableEq, Repr

/-- The callbacks that `handleEventsReceived` runs one after the other. -/
def callbacks (revents : UInt32) : List Callback :=
  (if revents &&& POLLHUP ≠ 0 ∧ revents &&& POLLIN = 0 then [.onClose] else []) ++
    (if revents &&& (POLLERR ||| POLLNVAL) ≠ 0 then [.onError] else []) ++
    (if revents &&& (POLLIN ||| POLLPRI ||| POLLRDHUP) ≠ 0 then [.onRead] else []) ++
    (if revents &&& POLLOUT ≠ 0 then [.onWrite] else [])

/-- The owners of the channels and the event loop: the `rrChannels` of `Mux`, what
`rrChannel->socket()` of each one ever made points to, the objects that the IP
thread holds through a `lock()`, the channels known to `EventLoop` and `Poller`,
the rest of `actives`, and the channel whose `handleEventsReceived` runs with the
callbacks left to it. -/
structure Mux where
  rrChannels : List Nat
  sockets : List (Option Nat)
  nextSocket : Nat
  locked : List Object
  channels : List Channel
  actives : List (Channel × UInt32)
  handling : Option (Channel × List Callback)
deriving DecidableEq, Repr

namespace Mux

def socketOf (m : Mux) (r : Nat) : Option Nat :=
  m.sockets.getD r none

/-- The `ReqRespChannel`s to which a `shared_ptr` is left. -/
def held (m : Mux) : List Nat :=
  m.rrChannels ++ m.locked.filterMap Object.rrChannel?

/-- `shared_ptr`s lead from `Mux`, or from the IP thread, to the object. -/
def Alive (m : Mux) : Object → Prop
  | .rrChannel r => r ∈ m.held
  | .socket s => .socket s ∈ m.locked ∨ ∃ r ∈ m.held, m.socketOf r = some s
  | .pcb s =>
      .pcb s ∈ m.locked ∨ .socket s ∈ m.locked ∨ ∃ r ∈ m.held, m.socketOf r = some s

instance (m : Mux) (o : Object) : Decidable (m.Alive o) :=
  match o with
  | .rrChannel _ => inferInstanceAs (Decidable (_ ∈ _))
  | .socket _ => inferInstanceAs (Decidable (_ ∨ ∃ r ∈ m.held, _))
  | .pcb _ => inferInstanceAs (Decidable (_ ∨ _ ∨ ∃ r ∈ m.held, _))

def Live (m : Mux) : Channel → Prop
  | .listener => True
  | .rr r => m.Alive (.rrChannel r)
  | .newPacket s => m.Alive (.socket s)
  | .connEstab s => m.Alive (.pcb s)

instance (m : Mux) (c : Channel) : Decidable (m.Live c) :=
  match c with
  | .listener => inferInstanceAs (Decidable True)
  | .rr r => inferInstanceAs (Decidable (m.Alive (.rrChannel r)))
  | .newPacket s => inferInstanceAs (Decidable (m.Alive (.socket s)))
  | .connEstab s => inferInstanceAs (Decidable (m.Alive (.pcb s)))

/-- The destructors of the channels that went take them out of the loop. -/
def destroy (m : Mux) : Mux :=
  { m with channels := m.channels.filter fun c => decide (m.Live c) }

def unregister (m : Mux) (gone : List Channel) : Mux :=
  { m with channels := m.channels.filter fun c => decide (c ∉ gone) }

def addRRChannel (m : Mux) : Mux :=
  { m with
    rrChannels := m.rrChannels ++ [m.sockets.length]
    sockets := m.sockets ++ [none]
    channels := m.channels ++ [.rr m.sockets.length] }

def removeRRChannel (m : Mux) (r : Nat) : Mux :=
  { m with rrChannels := m.rrChannels.filter fun r' => decide (r' ≠ r) }

def socketCall (m : Mux) (r : Nat) (type : SocketType) : Mux :=
  { m with
    sockets := m.sockets.set r (some m.nextSocket)
    nextSocket := m.nextSocket + 1
    channels := m.channels ++ [.newPacket m.nextSocket] ++
      (match type with
        | .UDP => []
        | .TCP => [.connEstab m.nextSocket]) }

end Mux

inductive Outcome
  /-- It is not set, or it found nothing to do. -/
  | nothing
  | accepted (connections : Nat)
  /-- `Mux::removeRRChannel`, at the end of the file or on a hang-up. -/
  | removed
  /-- A request was answered.  The channel is unregistered if `::write` failed. -/
  | answered (socketCall : Option SocketType) (writeFails : Bool)
  | unregistered (channels : List Channel)
deriving DecidableEq, Repr

/-- A callback of a channel, `none` where it does not have that outcome.  Only the
read callbacks and the close callback of a `ReqRespChannel` are set. -/
def Mux.run (m : Mux) : Channel → Callback → Outcome → Option Mux
  | .listener, .onRead, .accepted connections => some (Mux.addRRChannel^[connections] m)
  | .rr r, .onClose, .removed | .rr r, .onRead, .removed => some (m.removeRRChannel r)
  | .rr r, .onRead, .answered socketCall writeFails =>
      let m := socketCall.elim m (m.socketCall r)
      some (if writeFails then m.unregister [.rr r] else m)
  | .newPacket _, .onRead, .unregistered gone | .connEstab _, .onRead, .unregistered gone =>
      some (m.unregister gone)
  | .rr _, .onClose, .nothing => none
  | _, _, .nothing => some m
  | _, _, _ => none

/-- The daemon, or the channel that was used after its destruction. -/
inductive State
  | running (m : Mux)
  | usedDestroyed (c : Channel)
deriving DecidableEq, Repr

/-- The steps of the loop thread, and those of the IP thread between them. -/
inductive Label
  | poll (result : Option (List (Channel × UInt32)))
  /-- `handleEventsReceived` of the next of `actives` begins. -/
  | handle
  /-- It runs its next callback, at the end of which its local pointers go. -/
  | callback (outcome : Outcome)
  /-- It sets `handlingEvents` to false. -/
  | handled
  | lock (o : Object)
  | unlock (o : Object)
  | unregister (c : Channel)
deriving DecidableEq, Repr

def use (m : Mux) (c : Channel) (r : Option Mux) : Option State :=
  if m.Live c then r.map .running else some (.usedDestroyed c)

def Mux.lock (m : Mux) (o : Object) : Mux :=
  { m with locked := o :: m.locked }

def Mux.unlock (m : Mux) (o : Object) : Mux :=
  { m with locked := m.locked.erase o }.destroy

def step (m : Mux) : Label → Option State
  -- On -1, `poll` takes `active_fds.back()` of an empty vector.
  | .poll none => none
  | .poll (some actives) =>
      if m.handling = none ∧ m.actives = [] ∧ actives.length ≤ maxEventsReceivedEachPoll ∧
          (actives.map Prod.fst).Nodup ∧ ∀ active ∈ actives, active.1 ∈ m.channels then
        some (.running { m with actives := actives })
      else none
  | .handle =>
      match m.handling, m.actives with
      | none, (c, revents) :: rest =>
          use m c (some { m with handling := some (c, callbacks revents), actives := rest })
      | _, _ => none
  | .callback outcome =>
      match m.handling with
      | some (c, callback :: rest) =>
          use m c ((m.run c callback outcome).map fun m =>
            { m with handling := some (c, rest) }.destroy)
      | _ => none
  | .handled =>
      match m.handling with
      | some (c, []) => use m c (some { m with handling := none })
      | _ => none
  | .lock o => if m.Alive o then some (.running (m.lock o)) else none
  | .unlock o => if o ∈ m.locked then some (.running (m.unlock o)) else none
  | .unregister c => if m.Live c then some (.running (m.unregister [c])) else none

def machine : Machine State Label where
  initial s := s = .running
    { rrChannels := []
      sockets := []
      nextSocket := 0
      locked := []
      channels := [.listener]
      actives := []
      handling := none }
  next
    | .running m, a => step m a
    | .usedDestroyed _, _ => none

end MuQuinet.EventLoops
