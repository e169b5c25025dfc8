import MuQuinet.Builds
import MuQuinet.IpLayer
import MuQuinet.Rpc

namespace MuQuinet.RequestHandler

open MuQuinet.Lib.Words
open MuQuinet.Buffers
open MuQuinet.Builds
open MuQuinet.IpLayer
open MuQuinet.Pcbs
open MuQuinet.Rpc
open MuQuinet.Sockets
open MuQuinet.TcpLayer
open MuQuinet.UdpLayer

inductive Fault
  | nullSocket
  | nullPcb
  /-- `memcpy` of a `sockaddr_in` out of a shorter `addr`. -/
  | addrOverread
  /-- `ParseFromArray` of a negative number of bytes. -/
  | negativeLength
  /-- `std::length_error` from `append`. -/
  | lengthError
  /-- An assertion is false.  A build without assertions goes on behind it; where to is
  not followed. -/
  | assertFailed
  /-- `wait_dequeue` on an empty queue. -/
  | blocked
  /-- The end of `Pcb::bind` in a build in which it does not return. -/
  | noReturn
deriving DecidableEq, Repr

def AF_INET : Int32 := 2
def SOCK_STREAM : Int32 := 1
def SOCK_DGRAM : Int32 := 2
def SOCK_NONBLOCK : Int32 := 0o4000
def EAGAIN : Int32 := 11
def EINPROGRESS : Int32 := 115

/-- Which element of which protocol's list of PCBs a socket owns. -/
structure SocketRef where
  type : SocketType
  index : Nat
deriving DecidableEq, Repr

/-- `ReqRespChannel::Impl`.  `registered` is whether the event loop still polls
the channel. -/
structure ReqRespChannel where
  socket : Option SocketRef := none
  peer : List UInt8 := []
  peerPid : UInt64 := 0
  registered : Bool := true
deriving DecidableEq, Repr

/-- The channels of `Mux` by their number, `none` once removed, and the stack. -/
structure Daemon where
  rrChannels : List (Option ReqRespChannel)
  stack : Stack
  stackAddr : UInt32
deriving DecidableEq, Repr

/-- What memory holds where a `TcpPcb` is made: its constructor leaves these. -/
structure Uninit where
  sendUnack : UInt32
  sendNext : UInt32
  irs : UInt32
  recvNext : UInt32
deriving DecidableEq, Repr

namespace Daemon

def rrChannel (d : Daemon) (ch : Nat) : Option ReqRespChannel :=
  d.rrChannels.getD ch none

def setRRChannel (d : Daemon) (ch : Nat) (rrChannel : Option ReqRespChannel) : Daemon :=
  { d with rrChannels := d.rrChannels.set ch rrChannel }

def udpSlot (d : Daemon) (i : Nat) : Slot Pcb :=
  d.stack.udp.pcbs.getD i .expired

def tcpSlot (d : Daemon) (i : Nat) : Slot TcpPcb :=
  d.stack.tcp.pcbs.getD i .expired

def setUdpSlot (d : Daemon) (i : Nat) (slot : Slot Pcb) : Daemon :=
  { d with stack.udp.pcbs := d.stack.udp.pcbs.set i slot }

def setTcpSlot (d : Daemon) (i : Nat) (slot : Slot TcpPcb) : Daemon :=
  { d with stack.tcp.pcbs := d.stack.tcp.pcbs.set i slot }

def setUdpPort (d : Daemon) (port : UInt16) : Daemon :=
  { d with stack.udp.port := port }

def setTcpPort (d : Daemon) (port : UInt16) : Daemon :=
  { d with stack.tcp.port := port }

def socketAt (d : Daemon) (ref : SocketRef) : Option Socket :=
  match ref.type with
  | .UDP => (d.udpSlot ref.index).socket
  | .TCP => (d.tcpSlot ref.index).socket

def setSocketAt (d : Daemon) (ref : SocketRef) (so : Socket) : Daemon :=
  match ref.type with
  | .UDP => d.setUdpSlot ref.index { d.udpSlot ref.index with socket := some so }
  | .TCP => d.setTcpSlot ref.index { d.tcpSlot ref.index with socket := some so }

/-- The last `shared_ptr` to a socket goes, and its PCB with it. -/
def release (d : Daemon) : Option SocketRef → Daemon
  | none => d
  | some { type := .UDP, index } => d.setUdpSlot index .expired
  | some { type := .TCP, index } => d.setTcpSlot index .expired

def socketOf (d : Daemon) (ch : Nat) : Option SocketRef :=
  (d.rrChannel ch).bind ReqRespChannel.socket

/-- `rrChannel->socket()`, which is dereferenced. -/
def socket (d : Daemon) (ch : Nat) : Except Fault (SocketRef × Socket) :=
  match d.socketOf ch with
  | none => .error .nullSocket
  | some ref =>
      match d.socketAt ref with
      | none => .error .nullSocket
      | some so => .ok (ref, so)

def udpPcb (d : Daemon) (i : Nat) : Except Fault Pcb :=
  match (d.udpSlot i).pcb with
  | none => .error .nullPcb
  | some pcb => .ok pcb

def tcpPcb (d : Daemon) (i : Nat) : Except Fault TcpPcb :=
  match (d.tcpSlot i).pcb with
  | none => .error .nullPcb
  | some pcb => .ok pcb

def removeRRChannel (d : Daemon) (ch : Nat) : Daemon :=
  (d.release (d.socketOf ch)).setRRChannel ch none

end Daemon

def retOk (returning : Returning) : Response :=
  { returning := some returning, retCode := some .OK }

def destAddr (addr : List UInt8) : Except Fault SockaddrIn :=
  if addr.length < sizeofSockaddrIn then .error .addrOverread
  else
    .ok
      { sinFamily := load16 addr 0
        sinPort := load16 addr 2
        sinAddr := load32 addr 4
        sinZero := .ofNat ((load32 addr 8).toNat + 4294967296 * (load32 addr 12).toNat) }

def socketCall (d : Daemon) (mem : Uninit) (ch : Nat) (domain type : Int32) :
    Except Fault (Daemon × Response) :=
  if domain ≠ AF_INET then .error .assertFailed
  else if type &&& SOCK_STREAM = 0 ∧ type &&& SOCK_DGRAM = 0 then .error .assertFailed
  else
    let nonblocking := type &&& SOCK_NONBLOCK ≠ 0
    let (ref, created) : SocketRef × Daemon :=
      if type &&& SOCK_STREAM ≠ 0 then
        let pcb := TcpPcb.new d.stackAddr mem.sendUnack mem.sendNext mem.irs mem.recvNext
        ({ type := .TCP, index := d.stack.tcp.pcbs.length },
          { d with
            stack.tcp := d.stack.tcp.newPcb pcb { type := .TCP, nonblocking := nonblocking } })
      else
        ({ type := .UDP, index := d.stack.udp.pcbs.length },
          { d with
            stack.udp :=
              d.stack.udp.newPcb d.stackAddr { type := .UDP, nonblocking := nonblocking } })
    -- rrChannel->setSocket(so) lets go of the socket that was there.
    let released := created.release (d.socketOf ch)
    let rrChannel := (d.rrChannel ch).map fun rr => { rr with socket := some ref }
    .ok (released.setRRChannel ch rrChannel, retOk (.socketCall 0 none))

/-- On a UDP socket the response gets no return code. -/
def connectCall (d : Daemon) (ch : Nat) (addr : List UInt8) :
    Except Fault (Daemon × Response) := do
  let dest ← destAddr addr
  let (ref, so) ← d.socket ch
  match so.type with
  | .UDP =>
      let pcb ← d.udpPcb ref.index
      let (port, pcb) := pcb.connect d.stack.udp.port dest.sinAddr dest.sinPort
      let d := d.setUdpSlot ref.index { d.udpSlot ref.index with pcb := some pcb }
      return (d.setUdpPort port,
        { returning := some (.connectCall 0 none), retCode := none })
  | .TCP =>
      if so.nonblocking then
        return (d, retOk (.recvfromCall EINPROGRESS none none none))
      else
        let pcb ← d.tcpPcb ref.index
        let (port, pcb, _) := { pcb with onConnEstabCB := some ch }.connect
          d.stack.tcp.port dest.sinAddr dest.sinPort
        let d := d.setTcpSlot ref.index { d.tcpSlot ref.index with pcb := some pcb }
        return (d.setTcpPort port, { returning := none, retCode := some .WAIT_NEXT })

def closeCall (d : Daemon) : Except Fault (Daemon × Response) :=
  .ok (d, retOk (.closeCall 0 none))

def sendtoCall (d : Daemon) (ch : Nat) (buf : List UInt8) (addr : Option (List UInt8)) :
    Except Fault (Daemon × Response) := do
  let (ref, so) ← d.socket ch
  match so.type with
  | .UDP =>
      let (port, pcb, nwritten, _) ←
        match addr with
        | some addr => do
            let dest ← destAddr addr
            let pcb ← d.udpPcb ref.index
            pure (UdpPcb.sendto d.stack.udp.port pcb dest.sinAddr dest.sinPort buf)
        | none => do
            let pcb ← d.udpPcb ref.index
            pure (UdpPcb.send d.stack.udp.port pcb buf)
      let d := d.setUdpSlot ref.index { d.udpSlot ref.index with pcb := some pcb }
      return (d.setUdpPort port, retOk (.sendtoCall (.ofInt nwritten) none))
  | .TCP =>
      let pcb ← d.tcpPcb ref.index
      let (port, pcb, nwritten, _) := TcpPcb.send d.stack.tcp.port pcb buf
      let d := d.setTcpSlot ref.index { d.tcpSlot ref.index with pcb := some pcb }
      return (d.setTcpPort port, retOk (.sendtoCall (.ofInt nwritten) none))

/-- The response that `recvfromCall` and the asynchronous callbacks make of a
packet.  None of them looks at the length the client asked for. -/
def packetResponse (requireAddr : Bool) (entry : SockaddrIn × List SocketBuffer) :
    Except Fault Response :=
  match collect entry.2 with
  | none => .error .lengthError
  | some buf =>
      .ok (retOk (.recvfromCall (.ofInt buf.length) none (some buf)
        (if requireAddr then some entry.1.bytes else none)))

def recvfrom (so : Socket) (ch : Nat) (requireAddr : Bool) :
    Except Fault (Socket × Response) :=
  match so.tryTakeFromRecvQ with
  | some (entry, so) => (packetResponse requireAddr entry).map fun resp => (so, resp)
  | none =>
      if so.nonblocking then .ok (so, retOk (.recvfromCall EAGAIN none none none))
      else
        let cb : OnAsyncNewPacket :=
          match so.type with
          | .UDP => .onAsyncNewUdpPacket ch requireAddr
          | .TCP => .onAsyncNewTcpPacket ch
        .ok ((so.setOnAsyncNewPacketCB cb).setWaiting true,
          { returning := none, retCode := some .WAIT_NEXT })

def recvfromCall (d : Daemon) (ch : Nat) (requireAddr : Bool) :
    Except Fault (Daemon × Response) := do
  let (ref, so) ← d.socket ch
  let (so, resp) ← recvfrom so ch requireAddr
  return (d.setSocketAt ref so, resp)

def nameOf (d : Daemon) (ch : Nat) (name : Pcb → SockaddrIn) : Except Fault (List UInt8) := do
  let (ref, _) ← d.socket ch
  match ref.type with
  | .UDP => return (name (← d.udpPcb ref.index)).bytes
  | .TCP => return (name (← d.tcpPcb ref.index).toPcb).bytes

def getpeernameCall (d : Daemon) (ch : Nat) : Except Fault (Daemon × Response) := do
  let peername ← nameOf d ch fun pcb =>
    { sinFamily := UdpLayer.AF_INET, sinPort := pcb.fport, sinAddr := pcb.faddr, sinZero := 0 }
  return (d, retOk (.getpeernameCall 0 none (some peername)))

def getsocknameCall (d : Daemon) (ch : Nat) : Except Fault (Daemon × Response) := do
  let sockname ← nameOf d ch fun pcb =>
    { sinFamily := UdpLayer.AF_INET, sinPort := pcb.lport, sinAddr := pcb.laddr, sinZero := 0 }
  return (d, retOk (.getsocknameCall 0 none (some sockname)))

def atstartAction (d : Daemon) (ch : Nat) (progname : List UInt8) (pid : UInt64) :
    Except Fault (Daemon × Response) :=
  let rrChannel := (d.rrChannel ch).map fun rr => { rr with peer := progname, peerPid := pid }
  .ok (d.setRRChannel ch rrChannel, retOk (.atstartAction 4096 (some 1024)))

/-- `handleRequest`; the response of a case without a handler stays empty. -/
def handleRequest (d : Daemon) (mem : Uninit) (ch : Nat) (req : Request) :
    Except Fault (Daemon × Response) :=
  match req.calling with
  | .socketCall domain type _ => socketCall d mem ch domain type
  | .connectCall addr => connectCall d ch addr
  | .closeCall => closeCall d
  | .recvfromCall _ _ requireAddr => recvfromCall d ch requireAddr
  | .sendtoCall buf _ addr => sendtoCall d ch buf addr
  | .getpeernameCall => getpeernameCall d ch
  | .getsocknameCall => getsocknameCall d ch
  | .atstartAction progname => atstartAction d ch progname req.pid
  | .pollCall | .selectCall | .getsockoptCall | .setsockoptCall | .fcntlCall | .notSet =>
      .ok (d, { returning := none, retCode := none })

/-- The PCB whose `connect` or `send` a handler comes to call, if it gets that far. -/
def calledPcb (d : Daemon) (ch : Nat) : Calling → Except Fault (Option Pcb)
  | .connectCall addr => do
      let _ ← destAddr addr
      let (ref, so) ← d.socket ch
      match so.type with
      | .UDP => return some (← d.udpPcb ref.index)
      | .TCP =>
          if so.nonblocking then return none else return some (← d.tcpPcb ref.index).toPcb
  | .sendtoCall _ _ addr => do
      let (ref, so) ← d.socket ch
      match so.type with
      | .UDP =>
          match addr with
          | some addr => do
              let _ ← destAddr addr
              return some (← d.udpPcb ref.index)
          | none => return some (← d.udpPcb ref.index)
      | .TCP => return some (← d.tcpPcb ref.index).toPcb
  | _ => .ok none

/-- Both `connect` and `send` of a PCB call `bind` where it has no local port. -/
def callsBind (d : Daemon) (ch : Nat) (calling : Calling) : Bool :=
  match calledPcb d ch calling with
  | .ok (some pcb) => pcb.lport = 0
  | _ => false

/-- `ReqRespChannel::Impl::write` up to its `::write`. -/
def write (resp : Response) : Except Fault Response :=
  if resp.isInitialized = false then .error .assertFailed
  else if rpcMessageMaxSize < resp.byteSize then .error .assertFailed
  else .ok resp

def onAsyncNewPacket (so : Socket) (cb : OnAsyncNewPacket) :
    Except Fault (Socket × Response) := do
  match so.tryTakeFromRecvQ with
  | none => .error .blocked
  | some (entry, so) =>
      let resp ← packetResponse cb.requireAddr entry
      return (so, ← write resp)

/-- `Socket::Impl::sChannelReadCb`, run without interruption. -/
def sChannelReadCb (so : Socket) : Except Fault (Socket × Option Response) :=
  let so := so.drainNotifyPipe
  if so.waiting then
    match so.onAsyncNewPacket with
    | none => .ok (so.setWaiting false, none)
    | some cb =>
        (onAsyncNewPacket so cb).map fun (so, resp) => (so.setWaiting false, some resp)
  else .ok (so, none)

/-- What the event loop does with a socket, whatever becomes of the response. -/
inductive SocketOp
  | recvfrom (rrChannel : Nat) (requireAddr : Bool)
  | sChannelReadCb
deriving DecidableEq, Repr

def SocketOp.run (so : Socket) : SocketOp → Except Fault Socket
  | .recvfrom rrChannel requireAddr =>
      (RequestHandler.recvfrom so rrChannel requireAddr).map Prod.fst
  | .sChannelReadCb => (RequestHandler.sChannelReadCb so).map Prod.fst

inductive ReadResult
  | message (req : Request)
  | eof
  | again
  | error
deriving DecidableEq, Repr

/-- `ReqRespChannel::Impl::onReadReady`, with the response it writes.
`writeFails` is whether that `::write` returns -1. -/
def onReadReady (d : Daemon) (mem : Uninit) (ch : Nat) (result : ReadResult)
    (writeFails : Bool) : Except Fault (Daemon × Option Response) :=
  match result with
  | .again => .ok (d, none)
  | .eof => .ok (d.removeRRChannel ch, none)
  | .error => .error .negativeLength
  | .message req => do
      let (d, resp) ← handleRequest d mem ch req
      let resp ← write resp
      if writeFails then
        let rrChannel := (d.rrChannel ch).map fun rr => { rr with registered := false }
        return (d.setRRChannel ch rrChannel, none)
      else return (d, some resp)

def ReadResult.callsBind (d : Daemon) (ch : Nat) : ReadResult → Bool
  | .message req => RequestHandler.callsBind d ch req.calling
  | _ => false

/-- `onReadReady` in a build: where `Pcb::bind` does not return, neither does what calls
it.  `onReadReady` is that of the builds where it does. -/
def onReadReadyIn (build : Build) (d : Daemon) (mem : Uninit) (ch : Nat) (result : ReadResult)
    (writeFails : Bool) : Except Fault (Daemon × Option Response) :=
  if build.bindReturns = false ∧ result.callsBind d ch = true then .error .noReturn
  else onReadReady d mem ch result writeFails

end MuQuinet.RequestHandler
