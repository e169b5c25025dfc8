import MuQuinet.TcpLayer
import MuQuinet.UdpLayer

namespace MuQuinet.Transmit

open MuQuinet.Lib.Words
open MuQuinet.IpHeaders
open MuQuinet.Wire

structure IpIdGenerator where
  last : UInt16
deriving DecidableEq, Repr

/-- `IpIdGenerator::next`: the generator after the call, and the identification
in network byte order. -/
def IpIdGenerator.next (gen : IpIdGenerator) : IpIdGenerator × UInt16 :=
  let last := if gen.last = 65535 then 0 else gen.last
  ({ last := last + 1 }, cpuToBe16 (last + 1))

/-- `TunDevice::tx`: one `writev` of the headers and the payload of the only
buffer there is. -/
def tunDeviceTx (hdrs userPayload : List UInt8) : List UInt8 :=
  hdrs ++ userPayload

/-- `Ip::tx` on the bytes from `hdrs_begin` to `hdrs_end` and the payload, with
the bytes that reach the device. -/
def tx (gen : IpIdGenerator) (hdrs userPayload : List UInt8) : IpIdGenerator × List UInt8 :=
  let (gen, id) := gen.next
  let version := 4
  let ihl := 20 / 4
  let hdrs := hdrs.set 0 (.ofNat (16 * version + ihl))
  let hdrs := store16 hdrs 4 id
  let hdrs := store16 hdrs 10 (checksum (hdrs.take (ihl * 4)) 0).toUInt16
  (gen, tunDeviceTx hdrs userPayload)

def txUdp (gen : IpIdGenerator) (datagram : UdpDatagram) : IpIdGenerator × List UInt8 :=
  tx gen (datagram.ipovly.bytes ++ datagram.hdr.bytes) datagram.buf

def txTcp (gen : IpIdGenerator) (segment : TcpSegment) : IpIdGenerator × List UInt8 :=
  tx gen (segment.ipovly.bytes ++ segment.hdr.bytes) segment.buf

/-- The first three words of an IP header as `Ip::tx` leaves it. -/
def ipHeaderStart (id check : UInt16) (ipovly : IpHeaderOverlay) : List UInt8 :=
  [0x45, ipovly.tos] ++ bytesLE 2 ipovly.len.toNat ++ bytesLE 2 id.toNat ++ [0, 0] ++
    [ipovly.ttl, ipovly.protocol] ++ bytesLE 2 check.toNat

def ipHeader (id check : UInt16) (ipovly : IpHeaderOverlay) : List UInt8 :=
  ipHeaderStart id check ipovly ++ (bytesLE 4 ipovly.saddr.toNat ++ bytesLE 4 ipovly.daddr.toNat)

@[simp] theorem length_ipHeaderStart (id check : UInt16) (ipovly : IpHeaderOverlay) :
    (ipHeaderStart id check ipovly).length = 12 := by
  simp [ipHeaderStart]

@[simp] theorem length_ipHeader (id check : UInt16) (ipovly : IpHeaderOverlay) :
    (ipHeader id check ipovly).length = 20 := by
  simp [ipHeader]

theorem bytesLE_word (word : UInt16) :
    bytesLE 2 word.toNat = [.ofNat (word.toNat % 256), .ofNat (word.toNat / 256)] := by
  have hword : word.toNat < 65536 := word.toNat_lt
  have hhigh : word.toNat / 256 % 256 = word.toNat / 256 := Nat.mod_eq_of_lt (by omega)
  rw [bytesLE, bytesLE, bytesLE, hhigh]

/-- The check is taken over the header with what the overlay left in its place. -/
theorem tx_eq (gen : IpIdGenerator) (ipovly : IpHeaderOverlay) (rest userPayload : List UInt8) :
    (tx gen (ipovly.bytes ++ rest) userPayload).2 =
      ipHeader gen.next.2
        (checksum (ipHeader gen.next.2 ipovly.protocolLen ipovly) 0).toUInt16 ipovly ++
        (rest ++ userPayload) := by
  have hid : ∀ id : UInt16,
      store16 ((ipovly.bytes ++ rest).set 0 (.ofNat (16 * 4 + 20 / 4))) 4 id =
        ipHeader id ipovly.protocolLen ipovly ++ rest := by
    intro id
    rw [ipHeader, ipHeaderStart, bytesLE_word id]
    rfl
  have hcheck : ∀ id check : UInt16,
      store16 (ipHeader id ipovly.protocolLen ipovly ++ rest) 10 check =
        ipHeader id check ipovly ++ rest := by
    intro id check
    rw [ipHeader, ipHeader, ipHeaderStart, ipHeaderStart, bytesLE_word check]
    rfl
  have htake : ∀ id : UInt16, (ipHeader id ipovly.protocolLen ipovly ++ rest).take (20 / 4 * 4) =
      ipHeader id ipovly.protocolLen ipovly := by
    intro id
    exact List.take_left' (length_ipHeader id ipovly.protocolLen ipovly)
  simp only [tx, tunDeviceTx]
  rw [hid, htake, hcheck, List.append_assoc]

theorem saddr_ipHeader (id check : UInt16) (ipovly : IpHeaderOverlay) (rest : List UInt8) :
    load32 (ipHeader id check ipovly ++ rest) 12 = ipovly.saddr := by
  rw [ipHeader, List.append_assoc, List.append_assoc, ← length_ipHeaderStart id check ipovly]
  exact load32_bytesLE _ ipovly.saddr _

theorem daddr_ipHeader (id check : UInt16) (ipovly : IpHeaderOverlay) (rest : List UInt8) :
    load32 (ipHeader id check ipovly ++ rest) 16 = ipovly.daddr := by
  have hlength : (ipHeaderStart id check ipovly ++ bytesLE 4 ipovly.saddr.toNat).length = 16 := by
    simp
  rw [ipHeader, ← List.append_assoc, List.append_assoc, ← hlength]
  exact load32_bytesLE _ ipovly.daddr _

theorem at_ipHeader (id check : UInt16) (ipovly : IpHeaderOverlay) (rest : List UInt8) :
    IpHeader.at (ipHeader id check ipovly ++ rest) 0 =
      { ihl := 5
        version := 4
        totLen := ipovly.len
        id := id
        fragOff := 0
        protocol := ipovly.protocol
        saddr := ipovly.saddr
        daddr := ipovly.daddr } := by
  have htotLen : load16 (ipHeader id check ipovly ++ rest) 2 = ipovly.len :=
    load16_bytesLE [0x45, ipovly.tos] ipovly.len _
  have hid : load16 (ipHeader id check ipovly ++ rest) 4 = id :=
    load16_bytesLE ([0x45, ipovly.tos] ++ bytesLE 2 ipovly.len.toNat) id _
  have hversion : byteAt (ipHeader id check ipovly ++ rest) 0 = 0x45 := rfl
  have hfragOff : load16 (ipHeader id check ipovly ++ rest) 6 = 0 := rfl
  have hprotocol : (ipHeader id check ipovly ++ rest).getD 9 0 = ipovly.protocol := rfl
  simp only [IpHeader.at, Nat.zero_add, htotLen, hid, hversion, hfragOff, hprotocol,
    saddr_ipHeader, daddr_ipHeader]

end MuQuinet.Transmit
