import MuQuinet.Reassembly
import MuQuinet.TcpLayer
import MuQuinet.UdpLayer

namespace MuQuinet.IpLayer

open MuQuinet.Buffers
open MuQuinet.IpHeaders
open MuQuinet.Pcbs
open MuQuinet.Reassembly
open MuQuinet.Sockets
open MuQuinet.TcpLayer
open MuQuinet.UdpLayer

structure Stack where
  defrager : Defrager
  udp : Udp
  tcp : Tcp
deriving DecidableEq, Repr

/-- `skbuf->transport_hdr = skbuf->network_hdr + iphdr->ihl * 4`, where `iphdr`
is the header of the buffer taken from `rxQ` last. -/
def locateTransport (ihl : Nat) (skbuf : SocketBuffer) : SocketBuffer :=
  { skbuf with transportHdr := some (skbuf.network + ihl * 4) }

/-- Step 3 of the loop of `Ip::start`. -/
def demultiplex (st : Stack) (uninit : SockaddrIn) (hdr : IpHeader)
    (skbuf : SocketBuffer) (next : List SocketBuffer) : Stack × List Event :=
  let skbuf := locateTransport hdr.ihl skbuf
  let located := [.transport skbuf.network skbuf.transport, .lookup hdr.protocol.toNat]
  match protoxmap hdr.protocol with
  | some .UDP =>
      let (udp, events) := st.udp.rx uninit skbuf next
      ({ st with udp := udp }, located ++ events)
  | some .TCP =>
      let (tcp, events) := st.tcp.rx uninit skbuf next
      ({ st with tcp := tcp }, located ++ events)
  | _ => (st, located)

/-- `Ip::enRxQue`, then one round of the loop of `Ip::start`.  The test of
`IpHeaders::checksum` is left out: that function returns true. -/
def rx (st : Stack) (uninit : SockaddrIn) (skbuf : SocketBuffer) : Stack × List Event :=
  let hdr := iphdr skbuf
  if hdr.version ≠ 4 then (st, [.dropped])
  else if skbuf.payloadEnd - skbuf.hdrsBegin.getD 0 < 20 then (st, [.dropped])
  else if isFrag skbuf then
    match defrag st.defrager skbuf with
    | none => (st, [.nullPrev])
    | some (defrager, []) => ({ st with defrager := defrager }, [])
    | some (defrager, packet :: next) =>
        demultiplex { st with defrager := defrager } uninit hdr packet next
  else demultiplex st uninit hdr skbuf []

end MuQuinet.IpLayer
