import MuQuinet.Buffers

namespace MuQuinet.IpHeaders

open MuQuinet.Lib.Words
open MuQuinet.Buffers

def ipOffMask : Nat := 0x1fff
def ipMfMask : Nat := 0x2000

/-- `__be16_to_cpu` and `__cpu_to_be16` on a little-endian host. -/
def be16ToCpu (word : UInt16) : UInt16 := swap16 word
def cpuToBe16 (word : UInt16) : UInt16 := swap16 word

/-- The fields of `iphdr` that the receive path reads, as they lie in memory:
the 16- and 32-bit ones in network byte order. -/
structure IpHeader where
  ihl : Nat
  version : Nat
  totLen : UInt16
  id : UInt16
  fragOff : UInt16
  protocol : UInt8
  saddr : UInt32
  daddr : UInt32
deriving DecidableEq, Repr

def IpHeader.at (bytes : List UInt8) (offset : Nat) : IpHeader :=
  { ihl := byteAt bytes offset % 16
    version := byteAt bytes offset / 16
    totLen := load16 bytes (offset + 2)
    id := load16 bytes (offset + 4)
    fragOff := load16 bytes (offset + 6)
    protocol := bytes.getD (offset + 9) 0
    saddr := load32 bytes (offset + 12)
    daddr := load32 bytes (offset + 16) }

/-- `(IpHeader*)skbuf->network_hdr`. -/
def iphdr (skbuf : SocketBuffer) : IpHeader :=
  .at skbuf.rawBytes skbuf.network

/-- `__be16_to_cpu(iphdr->frag_off) & IP_OFF_MASK`. -/
def hostOff (skbuf : SocketBuffer) : Nat :=
  (be16ToCpu (iphdr skbuf).fragOff).toNat &&& ipOffMask

/-- `iphdr->frag_off & IP_OFF_MASK`, the same mask on the unswapped field. -/
def rawOff (skbuf : SocketBuffer) : Nat :=
  (iphdr skbuf).fragOff.toNat &&& ipOffMask

def hostTotLen (skbuf : SocketBuffer) : Nat :=
  (be16ToCpu (iphdr skbuf).totLen).toNat

def moreFrag (skbuf : SocketBuffer) : Bool :=
  (be16ToCpu (iphdr skbuf).fragOff).toNat &&& ipMfMask != 0

def isFrag (skbuf : SocketBuffer) : Bool :=
  !(hostOff skbuf == 0 && !moreFrag skbuf)

inductive ProtocolX
  | IP
  | ICMP
  | IGMP
  | UDP
  | TCP
deriving DecidableEq, Repr

def protoxmapLength : Nat := 255

/-- `protoxmap[protocol]`, `none` where the index is past the array. -/
def protoxmap (protocol : UInt8) : Option ProtocolX :=
  if protocol.toNat < protoxmapLength then
    match protocol with
    | 1 => some .ICMP
    | 2 => some .IGMP
    | 6 => some .TCP
    | 17 => some .UDP
    | _ => some .IP
  else none

theorem protoxmap_eq_udp_iff {protocol : UInt8} :
    protoxmap protocol = some .UDP ↔ protocol = 17 := by
  constructor
  · unfold protoxmap
    split
    · split <;> simp
    · simp
  · rintro rfl
    rfl

theorem protoxmap_eq_tcp_iff {protocol : UInt8} :
    protoxmap protocol = some .TCP ↔ protocol = 6 := by
  constructor
  · unfold protoxmap
    split
    · split <;> simp
    · simp
  · rintro rfl
    rfl

end MuQuinet.IpHeaders
