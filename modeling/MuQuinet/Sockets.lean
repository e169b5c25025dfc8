import MuQuinet.Buffers

namespace MuQuinet.Sockets

open MuQuinet.Lib.Words
open MuQuinet.Buffers

def sizeofSockaddrIn : Nat := 16

/-- `struct sockaddr_in`, its members as they lie in memory. -/
structure SockaddrIn where
  sinFamily : UInt16
  sinPort : UInt16
  sinAddr : UInt32
  sinZero : UInt64
deriving DecidableEq, Repr

def SockaddrIn.zero : SockaddrIn :=
  { sinFamily := 0, sinPort := 0, sinAddr := 0, sinZero := 0 }

def SockaddrIn.bytes (addr : SockaddrIn) : List UInt8 :=
  bytesLE 2 addr.sinFamily.toNat ++ bytesLE 2 addr.sinPort.toNat ++
    bytesLE 4 addr.sinAddr.toNat ++ bytesLE 8 addr.sinZero.toNat

@[simp] theorem SockaddrIn.length_bytes (addr : SockaddrIn) :
    addr.bytes.length = sizeofSockaddrIn := by
  simp [SockaddrIn.bytes, sizeofSockaddrIn]

inductive SocketType
  | UDP
  | TCP
deriving DecidableEq, Repr

/-- The callbacks `recvfromCall` binds, with the arguments it binds them to. -/
inductive OnAsyncNewPacket
  | onAsyncNewUdpPacket (rrChannel : Nat) (requireAddr : Bool)
  | onAsyncNewTcpPacket (rrChannel : Nat)
deriving DecidableEq, Repr

def OnAsyncNewPacket.requireAddr : OnAsyncNewPacket → Bool
  | .onAsyncNewUdpPacket _ requireAddr => requireAddr
  | .onAsyncNewTcpPacket _ => false

def OnAsyncNewPacket.rrChannel : OnAsyncNewPacket → Nat
  | .onAsyncNewUdpPacket rrChannel _ => rrChannel
  | .onAsyncNewTcpPacket rrChannel => rrChannel

/-- `Socket::Impl`.  The notification pipe is the number of bytes in it; the
pointers to the channel and to the PCB are kept by their owners. -/
structure Socket where
  type : SocketType
  nonblocking : Bool
  notifyPipe : Nat := 0
  waiting : Bool := false
  onAsyncNewPacket : Option OnAsyncNewPacket := none
  recvQ : List (SockaddrIn × List SocketBuffer) := []
deriving DecidableEq, Repr

def recvQlimit : Nat := 128

/-- What a pipe holds before a non-blocking `write` fails. -/
def pipeCapacity : Nat := 65536

namespace Socket

def setWaiting (so : Socket) (v : Bool) : Socket :=
  { so with waiting := v }

def setOnAsyncNewPacketCB (so : Socket) (cb : OnAsyncNewPacket) : Socket :=
  { so with onAsyncNewPacket := some cb }

def enqueue (so : Socket) (entry : SockaddrIn × List SocketBuffer) : Socket :=
  { so with recvQ := so.recvQ ++ [entry] }

def markSChannelAsReadable (so : Socket) : Socket :=
  if so.notifyPipe < pipeCapacity then { so with notifyPipe := so.notifyPipe + 1 }
  else so

def putToRecvQ (so : Socket) (peeraddr : SockaddrIn)
    (skbuf : List SocketBuffer) : Socket :=
  if so.recvQ.length > recvQlimit then so
  else (so.enqueue (peeraddr, skbuf)).markSChannelAsReadable

/-- `try_takeFromRecvQ`, and `takeFromRecvQ` where it does not block. -/
def tryTakeFromRecvQ (so : Socket) :
    Option ((SockaddrIn × List SocketBuffer) × Socket) :=
  match so.recvQ with
  | [] => none
  | entry :: rest => some (entry, { so with recvQ := rest })

def readNotifyPipe (so : Socket) : Socket :=
  { so with notifyPipe := so.notifyPipe - 8 }

def drainNotifyPipe (so : Socket) : Socket :=
  { so with notifyPipe := 0 }

@[simp] theorem recvQ_markSChannelAsReadable (so : Socket) :
    so.markSChannelAsReadable.recvQ = so.recvQ := by
  unfold markSChannelAsReadable
  split <;> rfl

@[simp] theorem type_markSChannelAsReadable (so : Socket) :
    so.markSChannelAsReadable.type = so.type := by
  unfold markSChannelAsReadable
  split <;> rfl

@[simp] theorem waiting_markSChannelAsReadable (so : Socket) :
    so.markSChannelAsReadable.waiting = so.waiting := by
  unfold markSChannelAsReadable
  split <;> rfl

@[simp] theorem onAsyncNewPacket_markSChannelAsReadable (so : Socket) :
    so.markSChannelAsReadable.onAsyncNewPacket = so.onAsyncNewPacket := by
  unfold markSChannelAsReadable
  split <;> rfl

theorem notifyPipe_markSChannelAsReadable_pos (so : Socket) :
    0 < so.markSChannelAsReadable.notifyPipe := by
  unfold markSChannelAsReadable
  split
  · exact Nat.succ_pos _
  · rename_i hfull
    exact Nat.lt_of_lt_of_le (by decide) (Nat.not_lt.mp hfull)

@[simp] theorem type_putToRecvQ (so : Socket) (peeraddr : SockaddrIn)
    (skbuf : List SocketBuffer) : (so.putToRecvQ peeraddr skbuf).type = so.type := by
  unfold putToRecvQ
  split
  · rfl
  · exact type_markSChannelAsReadable _

@[simp] theorem waiting_putToRecvQ (so : Socket) (peeraddr : SockaddrIn)
    (skbuf : List SocketBuffer) : (so.putToRecvQ peeraddr skbuf).waiting = so.waiting := by
  unfold putToRecvQ
  split
  · rfl
  · exact waiting_markSChannelAsReadable _

@[simp] theorem onAsyncNewPacket_putToRecvQ (so : Socket) (peeraddr : SockaddrIn)
    (skbuf : List SocketBuffer) :
    (so.putToRecvQ peeraddr skbuf).onAsyncNewPacket = so.onAsyncNewPacket := by
  unfold putToRecvQ
  split
  · rfl
  · exact onAsyncNewPacket_markSChannelAsReadable _

theorem recvQ_putToRecvQ_of_room {so : Socket} (hroom : so.recvQ.length ≤ recvQlimit)
    (peeraddr : SockaddrIn) (skbuf : List SocketBuffer) :
    (so.putToRecvQ peeraddr skbuf).recvQ = so.recvQ ++ [(peeraddr, skbuf)] := by
  simp [putToRecvQ, Nat.not_lt.mpr hroom, enqueue]

end Socket

end MuQuinet.Sockets
