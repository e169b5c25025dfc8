import MuQuinet.Sockets
import MuQuinet.Wire

namespace MuQuinet.Pcbs

open MuQuinet.IpHeaders
open MuQuinet.Buffers
open MuQuinet.Sockets
open MuQuinet.Wire

def ENOTCONN : Int := 107
def EISCONN : Int := 106

structure Pcb where
  faddr : UInt32
  fport : UInt16
  laddr : UInt32
  lport : UInt16
deriving DecidableEq, Repr

namespace Pcb

def new (stackAddr : UInt32) : Pcb :=
  { faddr := 0, fport := 0, laddr := stackAddr, lport := 0 }

/-- `nextAvailPort`, which each protocol has with a counter of its own.  The
first component is the counter after the call. -/
def nextAvailPort (port : UInt16) : UInt16 × UInt16 :=
  (port + 1, cpuToBe16 (port + 1))

/-- `Pcb::bind`, where it comes back to its caller: it is an `int` function without a
`return`. -/
def bind (port : UInt16) (pcb : Pcb) : UInt16 × Pcb :=
  if pcb.lport = 0 then
    let (port', lport) := nextAvailPort port
    (port', { pcb with lport := lport })
  else (port, pcb)

def connect (port : UInt16) (pcb : Pcb) (faddr : UInt32) (fport : UInt16) :
    UInt16 × Pcb :=
  bind port { pcb with faddr := faddr, fport := fport }

def disconnect (pcb : Pcb) : Pcb :=
  { pcb with faddr := 0, fport := 0 }

/-- `Pcb::send(buf)`.  The error code it returns is not used by its callers. -/
def send (port : UInt16) (pcb : Pcb) : UInt16 × Pcb × Int :=
  let (port', pcb') := bind port pcb
  (port', pcb', if pcb'.fport = 0 then ENOTCONN else 0)

/-- `Pcb::send(faddr, fport, buf)`, which tests its own parameter `fport`. -/
def sendto (port : UInt16) (pcb : Pcb) (fport : UInt16) : UInt16 × Pcb × Int :=
  let (port', pcb') := bind port pcb
  (port', pcb', if fport ≠ 0 then EISCONN else 0)

end Pcb

structure FourTuple where
  faddr : UInt32
  fport : UInt16
  laddr : UInt32
  lport : UInt16
deriving DecidableEq, Repr

def inAddrMatch (ours theirs : UInt32) : Int :=
  if ours = 0 then 0
  else if ours = theirs then 1
  else -1

/-- The body of the loop of `Pcbs::find` on a live PCB: `accum` and `m` when it
reaches the final comparison, `none` when it continues before. -/
def score (t : FourTuple) (curr : Pcb) : Option (Int × Int) :=
  if curr.lport ≠ t.lport then none
  else if curr.fport ≠ 0 ∧ curr.fport ≠ t.fport then none
  else
    let accum : Int := 1 + if curr.fport ≠ 0 then 1 else 0
    let m := inAddrMatch curr.faddr t.faddr
    if m = -1 then none
    else
      let accum := accum + m
      let m := inAddrMatch curr.laddr t.laddr
      if m = -1 then none
      else some (accum + m, m)

/-- The loop of `Pcbs::find`: `pcb` is the candidate so far, `i` the position of
the iterator, and an expired `weak_ptr` is `none`.  `accum` is compared with the
`m` of the same iteration. -/
def findLoop (t : FourTuple) : Option Nat → Nat → List (Option Pcb) → Option Nat
  | pcb, _, [] => pcb
  | pcb, i, none :: rest => findLoop t pcb (i + 1) rest
  | pcb, i, some curr :: rest =>
      match score t curr with
      | some (accum, m) =>
          findLoop t (if accum > m then some i else pcb) (i + 1) rest
      | none => findLoop t pcb (i + 1) rest

def find (pcbs : List (Option Pcb)) (t : FourTuple) : Option Nat :=
  findLoop t none 0 pcbs

/-- An element of a protocol's list of PCBs: the PCB that its `weak_ptr` locks
to, and the socket that the PCB's own `weak_ptr` locks to. -/
structure Slot (P : Type) where
  pcb : Option P
  socket : Option Socket
deriving DecidableEq, Repr

def Slot.expired {P : Type} : Slot P := { pcb := none, socket := none }

/-- What the receive path does besides changing its state, in order. -/
inductive Event
  | transport (networkHdr transportHdr : Nat)
  | lookup (index : Nat)
  /-- A transport header of some size was read through `transport_hdr`. -/
  | headerRead (transportHdr size payloadEnd : Nat)
  | received (slot : Nat)
  | dropped
  | queued (skbuf : SocketBuffer)
  | acked (segment : TcpSegment)
  | onConnEstab (rrChannel : Nat)
  | assertFailed
  /-- `socket().lock()` was null and was used. -/
  | nullSocket
  /-- `prev->next` was assigned through a null `prev`. -/
  | nullPrev
deriving DecidableEq, Repr

def Slot.deliver {P : Type} (slot : Slot P) (peeraddr : SockaddrIn)
    (skbuf : SocketBuffer) (next : List SocketBuffer) : Slot P × List Event :=
  match slot.socket with
  | none => (slot, [.nullSocket])
  | some so =>
      ({ slot with socket := some (so.putToRecvQ peeraddr (skbuf :: next)) },
        if so.recvQ.length > recvQlimit then [] else [.queued skbuf])

end MuQuinet.Pcbs
