import MuQuinet.IpHeaders

namespace MuQuinet.Wire

open MuQuinet.Lib.Words
open MuQuinet.Buffers

/-- `htons`, `htonl` and `ntohl` on a little-endian host. -/
def htons (word : UInt16) : UInt16 := swap16 word
def htonl (word : UInt32) : UInt32 := swap32 word
def ntohl (word : UInt32) : UInt32 := swap32 word

@[simp] theorem ntohl_htonl (word : UInt32) : ntohl (htonl word) = word :=
  swap32_swap32 word

/-- The sum of the 16-bit words of a buffer, in a 32-bit accumulator, with the
left-over byte, if any. -/
def wordSum : UInt32 → List UInt8 → UInt32
  | sum, low :: high :: rest =>
      wordSum (sum + .ofNat (low.toNat + 256 * high.toNat)) rest
  | sum, [low] => sum + .ofNat low.toNat
  | sum, [] => sum

def foldSum (sum : Nat) : Nat :=
  if sum / 65536 = 0 then sum
  else foldSum (sum % 65536 + sum / 65536)
termination_by sum

def checksum (bytes : List UInt8) (startSum : UInt32) : UInt32 :=
  ~~~ UInt32.ofNat (foldSum (wordSum startSum bytes).toNat)

structure IpHeaderOverlay where
  tos : UInt8 := 0
  len : UInt16 := 0
  ttl : UInt8 := 0
  protocol : UInt8
  protocolLen : UInt16
  saddr : UInt32
  daddr : UInt32
deriving DecidableEq, Repr

def IpHeaderOverlay.bytes (ipovly : IpHeaderOverlay) : List UInt8 :=
  [0, ipovly.tos] ++ bytesLE 2 ipovly.len.toNat ++ [0, 0, 0, 0] ++
    [ipovly.ttl, ipovly.protocol] ++ bytesLE 2 ipovly.protocolLen.toNat ++
    bytesLE 4 ipovly.saddr.toNat ++ bytesLE 4 ipovly.daddr.toNat

@[simp] theorem IpHeaderOverlay.length_bytes (ipovly : IpHeaderOverlay) :
    ipovly.bytes.length = 20 := by
  simp [IpHeaderOverlay.bytes]

structure UdpHeader where
  source : UInt16
  dest : UInt16
  len : UInt16
  check : UInt16
deriving DecidableEq, Repr

def sizeofUdpHeader : Nat := 8

def UdpHeader.at (bytes : List UInt8) (offset : Nat) : UdpHeader :=
  { source := load16 bytes offset
    dest := load16 bytes (offset + 2)
    len := load16 bytes (offset + 4)
    check := load16 bytes (offset + 6) }

def UdpHeader.bytes (hdr : UdpHeader) : List UInt8 :=
  bytesLE 2 hdr.source.toNat ++ bytesLE 2 hdr.dest.toNat ++ bytesLE 2 hdr.len.toNat ++
    bytesLE 2 hdr.check.toNat

@[simp] theorem UdpHeader.length_bytes (hdr : UdpHeader) : hdr.bytes.length = 8 := by
  simp [UdpHeader.bytes]

def udphdr (skbuf : SocketBuffer) : UdpHeader :=
  .at skbuf.rawBytes skbuf.transport

/-- `tcphdr`; the flags that no function sets or reads are left out. -/
structure TcpHeader where
  source : UInt16
  dest : UInt16
  seq : UInt32 := 0
  ackSeq : UInt32 := 0
  doff : Nat
  syn : Bool := false
  ack : Bool := false
  window : UInt16
  check : UInt16 := 0
deriving DecidableEq, Repr

def sizeofTcpHeader : Nat := 20

def TcpHeader.at (bytes : List UInt8) (offset : Nat) : TcpHeader :=
  { source := load16 bytes offset
    dest := load16 bytes (offset + 2)
    seq := load32 bytes (offset + 4)
    ackSeq := load32 bytes (offset + 8)
    doff := byteAt bytes (offset + 12) / 16
    syn := byteAt bytes (offset + 13) / 2 % 2 = 1
    ack := byteAt bytes (offset + 13) / 16 % 2 = 1
    window := load16 bytes (offset + 14)
    check := load16 bytes (offset + 16) }

def tcphdr (skbuf : SocketBuffer) : TcpHeader :=
  .at skbuf.rawBytes skbuf.transport

def TcpHeader.bytes (hdr : TcpHeader) : List UInt8 :=
  bytesLE 2 hdr.source.toNat ++ bytesLE 2 hdr.dest.toNat ++
    bytesLE 4 hdr.seq.toNat ++ bytesLE 4 hdr.ackSeq.toNat ++
    [.ofNat (16 * hdr.doff), .ofNat (2 * hdr.syn.toNat + 16 * hdr.ack.toNat)] ++
    bytesLE 2 hdr.window.toNat ++ bytesLE 2 hdr.check.toNat ++ [0, 0]

@[simp] theorem TcpHeader.length_bytes (hdr : TcpHeader) : hdr.bytes.length = 20 := by
  simp [TcpHeader.bytes]

structure UdpDatagram where
  ipovly : IpHeaderOverlay
  hdr : UdpHeader
  buf : List UInt8
deriving DecidableEq, Repr

structure TcpSegment where
  ipovly : IpHeaderOverlay
  hdr : TcpHeader
  buf : List UInt8
deriving DecidableEq, Repr

end MuQuinet.Wire
