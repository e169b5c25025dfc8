import MuQuinet.Pcbs

namespace MuQuinet.TcpLayer

open MuQuinet.Buffers
open MuQuinet.Sockets
open MuQuinet.Pcbs
open MuQuinet.IpHeaders
open MuQuinet.Wire

inductive TcpState
  | CLOSED
  | LISTEN
  | SYN_SENT
  | SYN_RECEIVED
  | ESTABLISHED
  | FIN_WAIT_1
  | FIN_WAIT_2
  | CLOSING
  | TIME_WAIT
  | CLOSE_WAIT
  | LAST_ACK
deriving DecidableEq, Repr

/-- The members of `TcpPcb` that its functions use.  `onConnEstabCB` is the
channel that the only callback `connectCall` sets answers on. -/
structure TcpPcb extends Pcb where
  connState : TcpState
  onConnEstabCB : Option Nat
  sendUnack : UInt32
  sendNext : UInt32
  irs : UInt32
  recvNext : UInt32
deriving DecidableEq, Repr

def iss : UInt32 := 1

namespace TcpPcb

/-- The constructor leaves the sequence variables as it finds them. -/
def new (stackAddr sendUnack sendNext irs recvNext : UInt32) : TcpPcb :=
  { toPcb := .new stackAddr
    connState := .CLOSED
    onConnEstabCB := none
    sendUnack := sendUnack
    sendNext := sendNext
    irs := irs
    recvNext := recvNext }

def socketBufferOfTcpTempl (pcb : TcpPcb) : TcpHeader :=
  { source := pcb.lport
    dest := pcb.fport
    doff := 20 / 4
    window := htons 4096 }

def prepareBeforeIpTx (pcb : TcpPcb) (hdr : TcpHeader) (buf : List UInt8) : TcpSegment :=
  let ipovly : IpHeaderOverlay :=
    { protocol := 6
      protocolLen := htons (.ofNat (buf.length + 20))
      saddr := pcb.laddr
      daddr := pcb.faddr }
  let sum := wordSum 0 buf
  let check := checksum ((ipovly.bytes ++ hdr.bytes).take (hdr.doff * 4 + 20)) sum
  { ipovly :=
      { ipovly with
        ttl := 64
        tos := 0
        len := htons (.ofNat (buf.length + 40))
        protocolLen := 0 }
    hdr := { hdr with check := check.toUInt16 }
    buf := buf }

def ack2peer (pcb : TcpPcb) (value : UInt32) : TcpSegment :=
  let hdr :=
    { pcb.socketBufferOfTcpTempl with
      ack := true
      ackSeq := htonl value
      seq := htonl pcb.sendNext }
  pcb.prepareBeforeIpTx hdr []

/-- `TcpPcb::send`: the port counter and the PCB after it, its result and the
segment it sends, if any. -/
def send (port : UInt16) (pcb : TcpPcb) (buf : List UInt8) :
    UInt16 × TcpPcb × Int × Option TcpSegment :=
  let (port', base, _) := pcb.toPcb.send port
  let pcb := { pcb with toPcb := base }
  let tcphdr := pcb.socketBufferOfTcpTempl
  match pcb.connState with
  | .CLOSED =>
      let tcphdr := { tcphdr with seq := htonl iss, syn := true }
      let pcb := { pcb with
        sendUnack := iss
        sendNext := iss + 1
        connState := .SYN_SENT }
      (port', pcb, buf.length, some (pcb.prepareBeforeIpTx tcphdr buf))
  | .ESTABLISHED =>
      let tcphdr := { tcphdr with
        seq := htonl pcb.sendNext
        ack := true
        ackSeq := htonl pcb.recvNext }
      let pcb := { pcb with sendNext := pcb.sendNext + .ofNat buf.length }
      (port', pcb, buf.length, some (pcb.prepareBeforeIpTx tcphdr buf))
  | _ => (port', pcb, 0, none)

/-- `TcpPcb::connect`, which sends the first SYN only. -/
def connect (port : UInt16) (pcb : TcpPcb) (faddr : UInt32) (fport : UInt16) :
    UInt16 × TcpPcb × Option TcpSegment :=
  let (port₁, base) := pcb.toPcb.connect port faddr fport
  let (port₂, pcb', _, sent) := send port₁ { pcb with toPcb := base } []
  (port₂, pcb', sent)

def locatePayload (skbuf : SocketBuffer) : SocketBuffer :=
  { skbuf with
    userPayloadBegin := some (skbuf.transport + (tcphdr skbuf).doff * 4) }

/-- `TcpPcb::recv` in state `SYN_SENT`.  The assertion is compiled out of a
Release build, so the function goes on after it. -/
def recvSynSent (pcb : TcpPcb) (hdr : TcpHeader) : TcpPcb × List Event :=
  let pcb := { pcb with
    irs := ntohl hdr.seq
    recvNext := ntohl hdr.seq + 1
    sendUnack := pcb.sendUnack + 1
    connState := .ESTABLISHED }
  (pcb,
    (if hdr.syn && hdr.ack then [] else [.assertFailed]) ++
      [.acked (pcb.ack2peer pcb.recvNext)] ++
      (pcb.onConnEstabCB.map Event.onConnEstab).toList)

/-- The acknowledgment processing of `TcpPcb::recv` in state `ESTABLISHED`. -/
def recvAck (pcb : TcpPcb) (hdr : TcpHeader) : TcpPcb :=
  if hdr.ack && decide (ntohl hdr.ackSeq > pcb.sendUnack) then
    { pcb with sendUnack := ntohl hdr.ackSeq }
  else pcb

def nextAfter (skbuf : SocketBuffer) : UInt32 :=
  ntohl (tcphdr skbuf).seq + .ofNat skbuf.payloadEnd - .ofNat skbuf.payloadBegin

/-- `TcpPcb::recv`; `peerAddr` is the uninitialised local of that name. -/
def recv (slot : Slot TcpPcb) (pcb : TcpPcb) (peerAddr : SockaddrIn)
    (skbuf : SocketBuffer) (next : List SocketBuffer) : Slot TcpPcb × List Event :=
  match pcb.connState with
  | .SYN_SENT =>
      let (pcb, events) := pcb.recvSynSent (tcphdr skbuf)
      ({ slot with pcb := some pcb }, events)
  | .ESTABLISHED =>
      let pcb := pcb.recvAck (tcphdr skbuf)
      let skbuf := locatePayload skbuf
      if skbuf.payloadLen ≠ 0 then
        let (slot, queued) := slot.deliver peerAddr skbuf next
        if slot.socket = none then (slot, queued)
        else
          let pcb := { pcb with recvNext := nextAfter skbuf }
          ({ slot with pcb := some pcb }, queued ++ [.acked (pcb.ack2peer pcb.recvNext)])
      else ({ slot with pcb := some pcb }, [])
  | _ => (slot, [])

end TcpPcb

structure Tcp where
  pcbs : List (Slot TcpPcb)
  port : UInt16
deriving DecidableEq, Repr

namespace Tcp

/-- `Tcp::newPcb`, and the `setSocket` that follows it in `socketCall`. -/
def newPcb (tcp : Tcp) (pcb : TcpPcb) (so : Socket) : Tcp :=
  { tcp with pcbs := tcp.pcbs ++ [{ pcb := some pcb, socket := some so }] }

def fourTuple (skbuf : SocketBuffer) : FourTuple :=
  let hdr := iphdr skbuf
  let tcp := tcphdr skbuf
  { faddr := hdr.saddr, fport := tcp.source, laddr := hdr.daddr, lport := tcp.dest }

def find (tcp : Tcp) (t : FourTuple) : Option Nat :=
  Pcbs.find (tcp.pcbs.map fun slot => slot.pcb.map TcpPcb.toPcb) t

def rx (tcp : Tcp) (uninit : SockaddrIn) (skbuf : SocketBuffer)
    (next : List SocketBuffer) : Tcp × List Event :=
  let read := .headerRead skbuf.transport sizeofTcpHeader skbuf.payloadEnd
  match tcp.find (fourTuple skbuf) with
  | none => (tcp, [read, .dropped])
  | some i =>
      let slot := tcp.pcbs.getD i .expired
      match slot.pcb with
      | none => (tcp, [read, .dropped])
      | some pcb =>
          let (slot, events) := TcpPcb.recv slot pcb uninit skbuf next
          ({ tcp with pcbs := tcp.pcbs.set i slot }, read :: .received i :: events)

end Tcp

end MuQuinet.TcpLayer
