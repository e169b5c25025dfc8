import Mathlib.Data.Nat.Log
import MuQuinet.Sockets

namespace MuQuinet.Rpc

open MuQuinet.Sockets

def rpcMessageMaxSize : Nat := 81920

/-- The `oneof calling` of a request.  A field that the parser did not find has
its default value. -/
inductive Calling
  | socketCall (domain type protocol : Int32)
  | connectCall (addr : List UInt8)
  | closeCall
  | recvfromCall (len flags : Int32) (requireAddr : Bool)
  | sendtoCall (buf : List UInt8) (flags : Int32) (addr : Option (List UInt8))
  | pollCall
  | selectCall
  | getpeernameCall
  | getsocknameCall
  | getsockoptCall
  | setsockoptCall
  | fcntlCall
  | atstartAction (progname : List UInt8)
  | notSet
deriving DecidableEq, Repr

structure Request where
  calling : Calling
  pid : UInt64
deriving DecidableEq, Repr

inductive RetCode
  | OK
  | ERROR
  | WAIT_NEXT
deriving DecidableEq, Repr

inductive Returning
  | socketCall (ret : Int32) (errno : Option Int32)
  | connectCall (ret : Int32) (errno : Option Int32)
  | closeCall (ret : Int32) (errno : Option Int32)
  | recvfromCall (ret : Int32) (errno : Option Int32) (buf addr : Option (List UInt8))
  | sendtoCall (ret : Int32) (errno : Option Int32)
  | getpeernameCall (ret : Int32) (errno : Option Int32) (peername : Option (List UInt8))
  | getsocknameCall (ret : Int32) (errno : Option Int32) (sockname : Option (List UInt8))
  | atstartAction (startfd : Int32) (count : Option Int32)
deriving DecidableEq, Repr

structure Response where
  returning : Option Returning
  retCode : Option RetCode
deriving DecidableEq, Repr

/-- `IsInitialized`: of the required fields, only `retCode` can be missing. -/
def Response.isInitialized (resp : Response) : Bool :=
  resp.retCode.isSome

def varintSize (n : Nat) : Nat :=
  Nat.log2 n / 7 + 1

/-- A negative `int32` is sign-extended to 64 bits. -/
def int32Size (x : Int32) : Nat :=
  if x.toInt < 0 then 10 else varintSize x.toInt.toNat

def int32FieldSize (x : Int32) : Nat :=
  1 + int32Size x

def bytesFieldSize (bytes : List UInt8) : Nat :=
  1 + varintSize bytes.length + bytes.length

def optionalSize {α : Type} (size : α → Nat) (field : Option α) : Nat :=
  field.elim 0 size

def Returning.fieldsSize : Returning → Nat
  | .socketCall ret errno | .connectCall ret errno | .closeCall ret errno
  | .sendtoCall ret errno => int32FieldSize ret + optionalSize int32FieldSize errno
  | .recvfromCall ret errno buf addr =>
      int32FieldSize ret + optionalSize int32FieldSize errno +
        optionalSize bytesFieldSize buf + optionalSize bytesFieldSize addr
  | .getpeernameCall ret errno name | .getsocknameCall ret errno name =>
      int32FieldSize ret + optionalSize int32FieldSize errno +
        optionalSize bytesFieldSize name
  | .atstartAction startfd count =>
      int32FieldSize startfd + optionalSize int32FieldSize count

/-- The tag of a field takes one byte up to field number 15. -/
def Returning.byteSize (returning : Returning) : Nat :=
  let tagSize :=
    match returning with
    | .atstartAction _ _ => 2
    | _ => 1
  tagSize + varintSize returning.fieldsSize + returning.fieldsSize

def Response.byteSize (resp : Response) : Nat :=
  optionalSize Returning.byteSize resp.returning + optionalSize (fun _ => 2) resp.retCode

def Calling.fieldsSize : Calling → Nat
  | .socketCall domain type protocol =>
      int32FieldSize domain + int32FieldSize type + int32FieldSize protocol
  | .connectCall addr => bytesFieldSize addr
  | .recvfromCall len flags _ => int32FieldSize len + int32FieldSize flags + 2
  | .sendtoCall buf flags addr =>
      bytesFieldSize buf + int32FieldSize flags + optionalSize bytesFieldSize addr
  | .atstartAction progname => bytesFieldSize progname
  | .closeCall | .pollCall | .selectCall | .getpeernameCall | .getsocknameCall | .getsockoptCall
  | .setsockoptCall | .fcntlCall | .notSet => 0

def Calling.byteSize (calling : Calling) : Nat :=
  let fieldSize := varintSize calling.fieldsSize + calling.fieldsSize
  match calling with
  | .notSet => 0
  | .atstartAction _ => 2 + fieldSize
  | _ => 1 + fieldSize

/-- How many bytes encode a request. -/
def Request.byteSize (req : Request) : Nat :=
  req.calling.byteSize + (1 + varintSize req.pid.toNat)

theorem toInt_ofInt_of_le {n : Nat} (h : n ≤ rpcMessageMaxSize) : (Int32.ofInt n).toInt = n := by
  unfold rpcMessageMaxSize at h
  exact Int32.toInt_ofInt_of_le (by omega) (by omega)

theorem varintSize_mono {m n : Nat} (h : m ≤ n) : varintSize m ≤ varintSize n := by
  have hlog : Nat.log2 m ≤ Nat.log2 n := by
    rw [Nat.log2_eq_log_two, Nat.log2_eq_log_two]
    exact Nat.log_mono_right h
  exact Nat.add_le_add_right (Nat.div_le_div_right hlog) 1

theorem varintSize_le_of_lt {n k : Nat} (hk : 0 < k) (h : n < 2 ^ (7 * k)) : varintSize n ≤ k := by
  have hlog : Nat.log2 n < 7 * k := by
    rcases Nat.eq_zero_or_pos n with rfl | hpos
    · rw [Nat.log2_zero]
      omega
    · exact (Nat.log2_lt (Nat.ne_of_gt hpos)).mpr h
  rw [varintSize]
  omega

theorem varintSize_of_lt {n : Nat} (h : n < 128) : varintSize n = 1 :=
  Nat.le_antisymm (varintSize_le_of_lt Nat.one_pos h) (Nat.le_add_left 1 _)

theorem int32Size_le (x : Int32) : int32Size x ≤ 10 := by
  unfold int32Size
  split
  · exact Nat.le_refl _
  · have hlt : x.toInt.toNat < 2 ^ (7 * 10) := by
      have hupper := x.toInt_lt
      omega
    exact varintSize_le_of_lt (by decide) hlt

theorem byteSize_le_of_fieldsSize {returning : Returning} {retCode : Option RetCode}
    (h : returning.fieldsSize < 128) :
    Response.byteSize { returning := some returning, retCode := retCode } ≤ rpcMessageMaxSize := by
  have hcode : optionalSize (fun _ => 2) retCode ≤ 2 := by
    cases retCode <;> simp [optionalSize]
  have htag : returning.byteSize ≤ 2 + 1 + returning.fieldsSize := by
    unfold Returning.byteSize
    rw [varintSize_of_lt h]
    cases returning <;> simp
  simp only [Response.byteSize, optionalSize, Option.elim_some, rpcMessageMaxSize] at hcode ⊢
  omega

/-- Whatever its other fields hold, a request is short enough that carries an address of
sixteen bytes at most and 81872 bytes of payload. -/
theorem byteSize_sendto_le {buf : List UInt8} {addr : Option (List UInt8)} (flags : Int32)
    (pid : UInt64) (hbuf : buf.length ≤ 81872)
    (haddr : ∀ bytes ∈ addr, bytes.length ≤ sizeofSockaddrIn) :
    Request.byteSize { calling := .sendtoCall buf flags addr, pid := pid } ≤ rpcMessageMaxSize := by
  have hbufSize : varintSize buf.length ≤ 3 := varintSize_le_of_lt (by decide) (by omega)
  have hpid : varintSize pid.toNat ≤ 10 :=
    varintSize_le_of_lt (by decide) (pid.toNat_lt.trans (by decide))
  have hflags := int32Size_le flags
  have haddrSize : optionalSize bytesFieldSize addr ≤ 18 := by
    cases addr with
    | none => exact Nat.zero_le 18
    | some bytes =>
        have hlength : bytes.length ≤ 16 := haddr bytes rfl
        have hvarint : varintSize bytes.length = 1 := varintSize_of_lt (by omega)
        simp only [optionalSize, Option.elim_some, bytesFieldSize, hvarint]
        omega
  have hfields : Calling.fieldsSize (.sendtoCall buf flags addr) ≤ buf.length + 33 := by
    simp only [Calling.fieldsSize, bytesFieldSize, int32FieldSize]
    omega
  have hvarint : varintSize (Calling.fieldsSize (.sendtoCall buf flags addr)) ≤ 3 :=
    varintSize_le_of_lt (by decide) (by omega)
  simp only [Request.byteSize, Calling.byteSize, rpcMessageMaxSize]
  omega

end MuQuinet.Rpc
