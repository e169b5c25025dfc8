import MuQuinet.Lib.Words

namespace MuQuinet.Buffers

open MuQuinet.Lib.Words

def maxRawBytesSize : Nat := 1518

/-- A packet buffer.  The header and payload pointers are offsets into
`rawBytes`, `none` being the null pointer; `rawBytes` lists the bytes written so
far of an array that `make_shared` filled with zeros.  The `next` pointers are
left to the lists of buffers below: a chain is the list of the buffers that
`next` visits, and `[]` is the null `shared_ptr`. -/
structure SocketBuffer where
  rawBytes : List UInt8
  transportHdr : Option Nat := none
  networkHdr : Option Nat := none
  hdrsBegin : Option Nat := none
  hdrsEnd : Option Nat := none
  userPayloadBegin : Option Nat := none
  userPayloadEnd : Option Nat := none
deriving DecidableEq, Repr

namespace SocketBuffer

/-- The offset a pointer holds.  The code only follows pointers it has set. -/
def network (skbuf : SocketBuffer) : Nat := skbuf.networkHdr.getD 0
def transport (skbuf : SocketBuffer) : Nat := skbuf.transportHdr.getD 0
def payloadBegin (skbuf : SocketBuffer) : Nat := skbuf.userPayloadBegin.getD 0
def payloadEnd (skbuf : SocketBuffer) : Nat := skbuf.userPayloadEnd.getD 0

/-- `user_payload_end - user_payload_begin`, which may be negative. -/
def payloadLen (skbuf : SocketBuffer) : Int :=
  (skbuf.payloadEnd : Int) - skbuf.payloadBegin

def payload (skbuf : SocketBuffer) : List UInt8 :=
  slice skbuf.rawBytes skbuf.payloadBegin skbuf.payloadEnd

theorem payload_length {skbuf : SocketBuffer}
    (hend : skbuf.payloadEnd ≤ skbuf.rawBytes.length) :
    skbuf.payload.length = skbuf.payloadEnd - skbuf.payloadBegin :=
  slice_length hend

end SocketBuffer

/-- The loop by which `recvfromCall` and both asynchronous callbacks append the
payload of every buffer of a chain.  `std::string::append` takes the length as a
`size_t` and throws `length_error` when it was negative. -/
def collect : List SocketBuffer → Option (List UInt8)
  | [] => some []
  | curr :: next =>
      if curr.payloadLen < 0 then none
      else (collect next).map (curr.payload ++ ·)

@[simp] theorem collect_nil : collect [] = some [] := rfl

theorem collect_cons_eq_some {curr : SocketBuffer} {next : List SocketBuffer}
    {bytes : List UInt8} :
    collect (curr :: next) = some bytes ↔
      curr.payloadBegin ≤ curr.payloadEnd ∧
        ∃ rest, collect next = some rest ∧ curr.payload ++ rest = bytes := by
  by_cases hneg : curr.payloadLen < 0
  · simp only [collect, if_pos hneg, reduceCtorEq, false_iff]
    rintro ⟨hle, -⟩
    simp only [SocketBuffer.payloadLen] at hneg
    omega
  · have hle : curr.payloadBegin ≤ curr.payloadEnd := by
      simp only [SocketBuffer.payloadLen] at hneg
      omega
    simp only [collect, if_neg hneg, Option.map_eq_some_iff, hle, true_and]

/-- `TunDevice::rx`: a buffer that holds the bytes one `read` returned. -/
def tunDeviceRx (bytes : List UInt8) : SocketBuffer :=
  { rawBytes := bytes
    networkHdr := some 0
    hdrsBegin := some 0
    userPayloadEnd := some bytes.length }

end MuQuinet.Buffers
