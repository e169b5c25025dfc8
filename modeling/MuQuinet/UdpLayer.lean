import MuQuinet.Pcbs

namespace MuQuinet.UdpLayer

open MuQuinet.Buffers
open MuQuinet.Sockets
open MuQuinet.Pcbs
open MuQuinet.IpHeaders
open MuQuinet.Wire

def AF_INET : UInt16 := 2

namespace UdpPcb

def datagram (pcb : Pcb) (buf : List UInt8) : UdpDatagram :=
  { ipovly :=
      { protocol := 17
        protocolLen := 0
        saddr := pcb.laddr
        daddr := pcb.faddr
        ttl := 64
        tos := 0
        len := htons (.ofNat (buf.length + 28)) }
    hdr :=
      { source := pcb.lport
        dest := pcb.fport
        len := htons (.ofNat (buf.length + 8))
        check := 0 }
    buf := buf }

/-- `UdpPcb::send(buf)`: the port counter and the PCB after it, its result and
the packet it sends. -/
def send (port : UInt16) (pcb : Pcb) (buf : List UInt8) :
    UInt16 × Pcb × Int × UdpDatagram :=
  let (port', pcb', _) := pcb.send port
  (port', pcb', buf.length, datagram pcb' buf)

def sendto (port : UInt16) (pcb : Pcb) (faddr : UInt32) (fport : UInt16)
    (buf : List UInt8) : UInt16 × Pcb × Int × UdpDatagram :=
  let (port₁, pcb₁, _) := pcb.sendto port fport
  let (port₂, pcb₂) := pcb₁.connect port₁ faddr fport
  let (port₃, pcb₃, ret, sent) := send port₂ pcb₂ buf
  (port₃, pcb₃.disconnect, ret, sent)

def locatePayload (skbuf : SocketBuffer) : SocketBuffer :=
  { skbuf with userPayloadBegin := some (skbuf.transport + 8) }

def recv (slot : Slot Pcb) (peeraddr : SockaddrIn) (skbuf : SocketBuffer)
    (next : List SocketBuffer) : Slot Pcb × List Event :=
  slot.deliver peeraddr (locatePayload skbuf) next

end UdpPcb

structure Udp where
  pcbs : List (Slot Pcb)
  port : UInt16
deriving DecidableEq, Repr

namespace Udp

/-- `Udp::newPcb`, and the `setSocket` that follows it in `socketCall`. -/
def newPcb (udp : Udp) (stackAddr : UInt32) (so : Socket) : Udp :=
  { udp with pcbs := udp.pcbs ++ [{ pcb := some (.new stackAddr), socket := some so }] }

def fourTuple (skbuf : SocketBuffer) : FourTuple :=
  let hdr := iphdr skbuf
  let udp := udphdr skbuf
  { faddr := hdr.saddr, fport := udp.source, laddr := hdr.daddr, lport := udp.dest }

def find (udp : Udp) (t : FourTuple) : Option Nat :=
  Pcbs.find (udp.pcbs.map (·.pcb)) t

/-- `Udp::rx`.  `bzero(&peeraddr, 0)` clears nothing, so `sin_zero` is what the
stack held. -/
def rx (udp : Udp) (uninit : SockaddrIn) (skbuf : SocketBuffer)
    (next : List SocketBuffer) : Udp × List Event :=
  let t := fourTuple skbuf
  let read := .headerRead skbuf.transport sizeofUdpHeader skbuf.payloadEnd
  match udp.find t with
  | none => (udp, [read, .dropped])
  | some i =>
      let peeraddr : SockaddrIn :=
        { uninit with sinFamily := AF_INET, sinPort := t.fport, sinAddr := t.faddr }
      let (slot, events) :=
        UdpPcb.recv (udp.pcbs.getD i .expired) peeraddr skbuf next
      ({ udp with pcbs := udp.pcbs.set i slot }, read :: .received i :: events)

end Udp

end MuQuinet.UdpLayer
