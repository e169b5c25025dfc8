import MuQuinet.FieldSizes
import MuQuinet.Lib.Base128
import MuQuinet.Lib.Encodings

namespace MuQuinet.ResponseCodec

open MuQuinet.Lib.Encodings
open MuQuinet.Lib.WireFormat
open MuQuinet.FieldSizes
open MuQuinet.Rpc

/-! The classes that the daemon serializes, and what the interceptor unpacks into.  An
absent value is a field that is not set. -/

/-- `Socket`, `Connect`, `Close`, `Sendto`, `Poll`, `Select`, `Getsockopt`, `Setsockopt`
and `Fcntl` have the same fields. -/
structure ResponseCall where
  ret : Option Int32 := none
  errno : Option Int32 := none
deriving DecidableEq, Repr

structure ResponseRecvfrom where
  ret : Option Int32 := none
  errno : Option Int32 := none
  buf : Option (List UInt8) := none
  addr : Option (List UInt8) := none
deriving DecidableEq, Repr

/-- `Getpeername` and `Getsockname`. -/
structure ResponseName where
  ret : Option Int32 := none
  errno : Option Int32 := none
  name : Option (List UInt8) := none
deriving DecidableEq, Repr

structure ResponseAtstart where
  startfd : Option Int32 := none
  count : Option Int32 := none
deriving DecidableEq, Repr

inductive ResponseReturning
  | socketCall (sub : ResponseCall)
  | connectCall (sub : ResponseCall)
  | closeCall (sub : ResponseCall)
  | recvfromCall (sub : ResponseRecvfrom)
  | sendtoCall (sub : ResponseCall)
  | pollCall (sub : ResponseCall)
  | selectCall (sub : ResponseCall)
  | getpeernameCall (sub : ResponseName)
  | getsocknameCall (sub : ResponseName)
  | getsockoptCall (sub : ResponseCall)
  | setsockoptCall (sub : ResponseCall)
  | fcntlCall (sub : ResponseCall)
  | atstartAction (sub : ResponseAtstart)
  | notSet
deriving DecidableEq, Repr

def retCodeValue : RetCode → Int32
  | .OK => 0
  | .ERROR => 1
  | .WAIT_NEXT => 2

structure ResponseMessage where
  returning : ResponseReturning := .notSet
  retCode : Option RetCode := none
deriving DecidableEq, Repr

/-- The response as its handler set it. -/
def messageOf (resp : Response) : ResponseMessage :=
  { returning :=
      match resp.returning with
      | none => .notSet
      | some (.socketCall ret errno) => .socketCall { ret := some ret, errno := errno }
      | some (.connectCall ret errno) => .connectCall { ret := some ret, errno := errno }
      | some (.closeCall ret errno) => .closeCall { ret := some ret, errno := errno }
      | some (.recvfromCall ret errno buf addr) =>
          .recvfromCall { ret := some ret, errno := errno, buf := buf, addr := addr }
      | some (.sendtoCall ret errno) => .sendtoCall { ret := some ret, errno := errno }
      | some (.getpeernameCall ret errno peername) =>
          .getpeernameCall { ret := some ret, errno := errno, name := peername }
      | some (.getsocknameCall ret errno sockname) =>
          .getsocknameCall { ret := some ret, errno := errno, name := sockname }
      | some (.atstartAction startfd count) =>
          .atstartAction { startfd := some startfd, count := count }
    retCode := resp.retCode }

/-! `ByteSize` of each class, which `SerializeToArray` writes before a message inside
another. -/

def ResponseCall.byteSize (sub : ResponseCall) : Nat :=
  optionalSize int32FieldSize sub.ret + optionalSize int32FieldSize sub.errno

def ResponseRecvfrom.byteSize (sub : ResponseRecvfrom) : Nat :=
  optionalSize int32FieldSize sub.ret + optionalSize int32FieldSize sub.errno +
    optionalSize bytesFieldSize sub.buf + optionalSize bytesFieldSize sub.addr

def ResponseName.byteSize (sub : ResponseName) : Nat :=
  optionalSize int32FieldSize sub.ret + optionalSize int32FieldSize sub.errno +
    optionalSize bytesFieldSize sub.name

def ResponseAtstart.byteSize (sub : ResponseAtstart) : Nat :=
  optionalSize int32FieldSize sub.startfd + optionalSize int32FieldSize sub.count

section Serializers

variable (w : Writer)

def ResponseCall.writers : List (FieldWriter ResponseCall) :=
  [.int32 w 1 ResponseCall.ret, .int32 w 2 ResponseCall.errno]

def ResponseRecvfrom.writers : List (FieldWriter ResponseRecvfrom) :=
  [.int32 w 1 ResponseRecvfrom.ret, .int32 w 2 ResponseRecvfrom.errno,
    .bytes w 3 ResponseRecvfrom.buf, .bytes w 4 ResponseRecvfrom.addr]

def ResponseName.writers : List (FieldWriter ResponseName) :=
  [.int32 w 1 ResponseName.ret, .int32 w 2 ResponseName.errno, .bytes w 3 ResponseName.name]

def ResponseAtstart.writers : List (FieldWriter ResponseAtstart) :=
  [.int32 w 1 ResponseAtstart.startfd, .int32 w 2 ResponseAtstart.count]

namespace ResponseMessage

def callWriter (number : Nat) (get : ResponseMessage → Option ResponseCall) :
    FieldWriter ResponseMessage :=
  .message w number get ResponseCall.byteSize (ResponseCall.writers w)

def nameWriter (number : Nat) (get : ResponseMessage → Option ResponseName) :
    FieldWriter ResponseMessage :=
  .message w number get ResponseName.byteSize (ResponseName.writers w)

def writers : List (FieldWriter ResponseMessage) :=
  [callWriter w 1 fun resp =>
      match resp.returning with | .socketCall sub => some sub | _ => none,
    callWriter w 2 fun resp =>
      match resp.returning with | .connectCall sub => some sub | _ => none,
    callWriter w 3 fun resp =>
      match resp.returning with | .closeCall sub => some sub | _ => none,
    .message w 4
      (fun resp => match resp.returning with | .recvfromCall sub => some sub | _ => none)
      ResponseRecvfrom.byteSize (ResponseRecvfrom.writers w),
    callWriter w 5 fun resp =>
      match resp.returning with | .sendtoCall sub => some sub | _ => none,
    callWriter w 6 fun resp =>
      match resp.returning with | .pollCall sub => some sub | _ => none,
    callWriter w 7 fun resp =>
      match resp.returning with | .selectCall sub => some sub | _ => none,
    nameWriter w 8 fun resp =>
      match resp.returning with | .getpeernameCall sub => some sub | _ => none,
    nameWriter w 9 fun resp =>
      match resp.returning with | .getsocknameCall sub => some sub | _ => none,
    callWriter w 10 fun resp =>
      match resp.returning with | .getsockoptCall sub => some sub | _ => none,
    callWriter w 11 fun resp =>
      match resp.returning with | .setsockoptCall sub => some sub | _ => none,
    callWriter w 12 fun resp =>
      match resp.returning with | .fcntlCall sub => some sub | _ => none,
    .int32 w 15 fun resp => resp.retCode.map retCodeValue,
    .message w 16
      (fun resp => match resp.returning with | .atstartAction sub => some sub | _ => none)
      ResponseAtstart.byteSize (ResponseAtstart.writers w)]

def serializeToArray (resp : ResponseMessage) : List UInt8 :=
  serialize w (writers w) resp

end ResponseMessage

end Serializers

/-! The descriptors by which the interceptor unpacks. -/

/-- The structure that `response__unpack` fills, with the value of an enumerator as it
was received. -/
structure UnpackedResponse where
  returning : ResponseReturning := .notSet
  retCode : Option Int32 := none
deriving DecidableEq, Repr

/-- The structure that holds a response. -/
def unpackedOf (resp : Response) : UnpackedResponse :=
  { returning := (messageOf resp).returning, retCode := resp.retCode.map retCodeValue }

/-- Whether the fields are there that are labelled as required, also inside. -/
def UnpackedResponse.complete (resp : UnpackedResponse) : Bool :=
  resp.retCode.isSome &&
    match resp.returning with
    | .socketCall sub | .connectCall sub | .closeCall sub | .sendtoCall sub | .pollCall sub
    | .selectCall sub | .getsockoptCall sub | .setsockoptCall sub | .fcntlCall sub =>
        sub.ret.isSome
    | .recvfromCall sub => sub.ret.isSome
    | .getpeernameCall sub | .getsocknameCall sub => sub.ret.isSome
    | .atstartAction sub => sub.startfd.isSome
    | .notSet => true

section Descriptors

variable (w : Writer)

def callDescriptors : List (FieldFormat ResponseCall) :=
  [.int32 w 1 ResponseCall.ret, .int32 w 2 ResponseCall.errno]

def recvfromDescriptors : List (FieldFormat ResponseRecvfrom) :=
  [.int32 w 1 ResponseRecvfrom.ret, .int32 w 2 ResponseRecvfrom.errno,
    .bytes w 3 ResponseRecvfrom.buf, .bytes w 4 ResponseRecvfrom.addr]

def nameDescriptors : List (FieldFormat ResponseName) :=
  [.int32 w 1 ResponseName.ret, .int32 w 2 ResponseName.errno, .bytes w 3 ResponseName.name]

def atstartDescriptors : List (FieldFormat ResponseAtstart) :=
  [.int32 w 1 ResponseAtstart.startfd, .int32 w 2 ResponseAtstart.count]

/-- A member of the union `returning` that tells the result of a call. -/
def callMember (number : Nat) (get : UnpackedResponse → Option ResponseCall) :
    FieldFormat UnpackedResponse :=
  .message w number get (callDescriptors w)

def nameMember (number : Nat) (get : UnpackedResponse → Option ResponseName) :
    FieldFormat UnpackedResponse :=
  .message w number get (nameDescriptors w)

def responseDescriptors : List (FieldFormat UnpackedResponse) :=
  [callMember w 1 fun resp =>
      match resp.returning with | .socketCall sub => some sub | _ => none,
    callMember w 2 fun resp =>
      match resp.returning with | .connectCall sub => some sub | _ => none,
    callMember w 3 fun resp =>
      match resp.returning with | .closeCall sub => some sub | _ => none,
    .message w 4
      (fun resp => match resp.returning with | .recvfromCall sub => some sub | _ => none)
      (recvfromDescriptors w),
    callMember w 5 fun resp =>
      match resp.returning with | .sendtoCall sub => some sub | _ => none,
    callMember w 6 fun resp =>
      match resp.returning with | .pollCall sub => some sub | _ => none,
    callMember w 7 fun resp =>
      match resp.returning with | .selectCall sub => some sub | _ => none,
    nameMember w 8 fun resp =>
      match resp.returning with | .getpeernameCall sub => some sub | _ => none,
    nameMember w 9 fun resp =>
      match resp.returning with | .getsocknameCall sub => some sub | _ => none,
    callMember w 10 fun resp =>
      match resp.returning with | .getsockoptCall sub => some sub | _ => none,
    callMember w 11 fun resp =>
      match resp.returning with | .setsockoptCall sub => some sub | _ => none,
    callMember w 12 fun resp =>
      match resp.returning with | .fcntlCall sub => some sub | _ => none,
    .int32 w 15 UnpackedResponse.retCode,
    .message w 16
      (fun resp => match resp.returning with | .atstartAction sub => some sub | _ => none)
      (atstartDescriptors w)]

/-- What `response__unpack` has from the library: of bytes that encode a message by its
descriptors it gives the message, and null where a required field is missing. -/
def Unpacks (unpack : List UInt8 → Option UnpackedResponse) : Prop :=
  ∀ resp bytes, Encodes w (responseDescriptors w) resp bytes → bytes.length ≤ rpcMessageMaxSize →
    unpack bytes = if resp.complete then some resp else none

end Descriptors

section Sizes

variable (w : Writer)

theorem length_call (sub : ResponseCall) :
    (serialize w (ResponseCall.writers w) sub).length = sub.byteSize := by
  simp (disch := decide) only [ResponseCall.writers, length_serialize_cons, length_serialize_nil,
    length_record_int32, ResponseCall.byteSize]
  omega

theorem length_atstart (sub : ResponseAtstart) :
    (serialize w (ResponseAtstart.writers w) sub).length = sub.byteSize := by
  simp (disch := decide) only [ResponseAtstart.writers, length_serialize_cons,
    length_serialize_nil, length_record_int32, ResponseAtstart.byteSize]
  omega

theorem length_bytes_lt {field : Option (List UInt8)} {total : Nat} (h : total < 4294967296)
    (hle : optionalSize bytesFieldSize field ≤ total) :
    ∀ bytes ∈ field, bytes.length < 4294967296 := by
  rintro bytes ⟨⟩
  simp only [optionalSize, Option.elim_some, bytesFieldSize] at hle
  omega

theorem length_record_short {σ : Type} {number : Nat} (hnumber : number < 16)
    (get : σ → Option (List UInt8)) {m : σ}
    (hlength : ∀ bytes ∈ get m, bytes.length < 4294967296) :
    (record w (.bytes w number get) m).length = optionalSize bytesFieldSize (get m) :=
  length_record_bytes w hnumber get fun bytes hbytes =>
    (hlength bytes hbytes).trans (by decide)

theorem length_recvfrom {sub : ResponseRecvfrom} (h : sub.byteSize < 4294967296) :
    (serialize w (ResponseRecvfrom.writers w) sub).length = sub.byteSize := by
  have hbuf : ∀ bytes ∈ sub.buf, bytes.length < 4294967296 := by
    refine length_bytes_lt h ?_
    unfold ResponseRecvfrom.byteSize
    omega
  have haddr : ∀ bytes ∈ sub.addr, bytes.length < 4294967296 := by
    refine length_bytes_lt h ?_
    unfold ResponseRecvfrom.byteSize
    omega
  simp (disch := decide) only [ResponseRecvfrom.writers, length_serialize_cons,
    length_serialize_nil, length_record_int32, ResponseRecvfrom.byteSize]
  rw [length_record_short w (by decide) ResponseRecvfrom.buf hbuf,
    length_record_short w (by decide) ResponseRecvfrom.addr haddr]
  omega

theorem length_name {sub : ResponseName} (h : sub.byteSize < 4294967296) :
    (serialize w (ResponseName.writers w) sub).length = sub.byteSize := by
  have hname : ∀ bytes ∈ sub.name, bytes.length < 4294967296 := by
    refine length_bytes_lt h ?_
    unfold ResponseName.byteSize
    omega
  simp (disch := decide) only [ResponseName.writers, length_serialize_cons,
    length_serialize_nil, length_record_int32, ResponseName.byteSize]
  rw [length_record_short w (by decide) ResponseName.name hname]
  omega

end Sizes

/-- The result of a call, whichever it is. -/
def callOf : ResponseReturning → Option ResponseCall
  | .socketCall sub | .connectCall sub | .closeCall sub | .sendtoCall sub | .pollCall sub
  | .selectCall sub | .getsockoptCall sub | .setsockoptCall sub | .fcntlCall sub => some sub
  | _ => none

def nameOf : ResponseReturning → Option ResponseName
  | .getpeernameCall sub | .getsocknameCall sub => some sub
  | _ => none

section Members

variable {resp : Response}

theorem call_fits (hfits : resp.byteSize ≤ rpcMessageMaxSize) {sub : ResponseCall}
    (h : callOf (messageOf resp).returning = some sub) : sub.byteSize < 4294967296 := by
  obtain ⟨_ | returning, retCode⟩ := resp
  · cases h
  · unfold Response.byteSize rpcMessageMaxSize at hfits
    cases returning <;> cases h <;>
      simp only [optionalSize, Option.elim_some, Returning.byteSize,
        Returning.fieldsSize] at hfits <;>
      simp only [ResponseCall.byteSize, optionalSize, Option.elim_some] <;>
      omega

theorem name_fits (hfits : resp.byteSize ≤ rpcMessageMaxSize) {sub : ResponseName}
    (h : nameOf (messageOf resp).returning = some sub) : sub.byteSize < 4294967296 := by
  obtain ⟨_ | returning, retCode⟩ := resp
  · cases h
  · unfold Response.byteSize rpcMessageMaxSize at hfits
    cases returning <;> cases h <;>
      simp only [optionalSize, Option.elim_some, Returning.byteSize,
        Returning.fieldsSize] at hfits <;>
      simp only [ResponseName.byteSize, optionalSize, Option.elim_some] <;>
      omega

theorem recvfrom_fits (hfits : resp.byteSize ≤ rpcMessageMaxSize) {sub : ResponseRecvfrom}
    (h : (messageOf resp).returning = .recvfromCall sub) : sub.byteSize < 4294967296 := by
  obtain ⟨_ | returning, retCode⟩ := resp
  · cases h
  · unfold Response.byteSize rpcMessageMaxSize at hfits
    cases returning <;> cases h
    simp only [optionalSize, Option.elim_some, Returning.byteSize, Returning.fieldsSize] at hfits
    simp only [ResponseRecvfrom.byteSize, optionalSize, Option.elim_some]
    omega

theorem atstart_fits (hfits : resp.byteSize ≤ rpcMessageMaxSize) {sub : ResponseAtstart}
    (h : (messageOf resp).returning = .atstartAction sub) : sub.byteSize < 4294967296 := by
  obtain ⟨_ | returning, retCode⟩ := resp
  · cases h
  · unfold Response.byteSize rpcMessageMaxSize at hfits
    cases returning <;> cases h
    simp only [optionalSize, Option.elim_some, Returning.byteSize, Returning.fieldsSize] at hfits
    simp only [ResponseAtstart.byteSize, optionalSize, Option.elim_some]
    omega

end Members

theorem length_message {σ : Type} (w : Writer) {number : Nat} (hnumber : number < 2048)
    (get : ResponseMessage → Option σ) (byteSize : σ → Nat) (fields : List (FieldWriter σ))
    (resp : ResponseMessage)
    (hsub : ∀ sub, get resp = some sub →
      (serialize w fields sub).length = byteSize sub ∧ byteSize sub < 4294967296) :
    (record w (.message w number get byteSize fields) resp).length =
      optionalSize (fun sub => (if number < 16 then 1 else 2) +
        (varintSize (byteSize sub) + byteSize sub)) (get resp) := by
  rcases hget : get resp with _ | sub
  · exact length_record_message_of_none w get byteSize fields hget
  · obtain ⟨hlength, hlt⟩ := hsub sub hget
    exact length_record_message w get byteSize fields hget hlength.symm (hlt.trans (by decide))
      hnumber

section MemberSizes

variable (w : Writer) {resp : Response} (hfits : resp.byteSize ≤ rpcMessageMaxSize)
include hfits

theorem length_callMember {number : Nat} (hnumber : number < 16)
    {get : ResponseMessage → Option ResponseCall}
    (hget : ∀ m sub, get m = some sub → callOf m.returning = some sub) :
    (record w (ResponseMessage.callWriter w number get) (messageOf resp)).length =
      optionalSize (fun sub => 1 + (varintSize sub.byteSize + sub.byteSize))
        (get (messageOf resp)) := by
  have hlength := length_message w (hnumber.trans (by decide)) get ResponseCall.byteSize
    (ResponseCall.writers w) (messageOf resp)
    fun sub hsub => ⟨length_call w sub, call_fits hfits (hget _ sub hsub)⟩
  rwa [if_pos hnumber] at hlength

theorem length_nameMember {number : Nat} (hnumber : number < 16)
    {get : ResponseMessage → Option ResponseName}
    (hget : ∀ m sub, get m = some sub → nameOf m.returning = some sub) :
    (record w (ResponseMessage.nameWriter w number get) (messageOf resp)).length =
      optionalSize (fun sub => 1 + (varintSize sub.byteSize + sub.byteSize))
        (get (messageOf resp)) := by
  have hsub : ∀ sub, get (messageOf resp) = some sub →
      (serialize w (ResponseName.writers w) sub).length = sub.byteSize ∧
        sub.byteSize < 4294967296 := by
    intro sub hsub
    have hlt := name_fits hfits (hget _ sub hsub)
    exact ⟨length_name w hlt, hlt⟩
  have hlength := length_message w (hnumber.trans (by decide)) get ResponseName.byteSize
    (ResponseName.writers w) (messageOf resp) hsub
  rwa [if_pos hnumber] at hlength

theorem length_recvfromMember :
    (record w (.message w 4
      (fun resp => match resp.returning with | .recvfromCall sub => some sub | _ => none)
      ResponseRecvfrom.byteSize (ResponseRecvfrom.writers w)) (messageOf resp)).length =
      optionalSize (fun sub => 1 + (varintSize sub.byteSize + sub.byteSize))
        (match (messageOf resp).returning with
          | .recvfromCall sub => some sub
          | _ => none) := by
  refine length_message w (by decide) _ _ _ _ ?_
  intro sub hsub
  split at hsub
  · rename_i heq
    cases hsub
    have hlt := recvfrom_fits hfits heq
    exact ⟨length_recvfrom w hlt, hlt⟩
  · cases hsub

theorem length_atstartMember :
    (record w (.message w 16
      (fun resp => match resp.returning with | .atstartAction sub => some sub | _ => none)
      ResponseAtstart.byteSize (ResponseAtstart.writers w)) (messageOf resp)).length =
      optionalSize (fun sub => 2 + (varintSize sub.byteSize + sub.byteSize))
        (match (messageOf resp).returning with
          | .atstartAction sub => some sub
          | _ => none) := by
  refine length_message w (by decide) _ _ _ _ ?_
  intro sub hsub
  split at hsub
  · rename_i heq
    cases hsub
    exact ⟨length_atstart w sub, atstart_fits hfits heq⟩
  · cases hsub

end MemberSizes

theorem size_retCode (retCode : Option RetCode) :
    optionalSize int32FieldSize (retCode.map retCodeValue) = optionalSize (fun _ => 2) retCode := by
  rcases retCode with _ | retCode
  · rfl
  · cases retCode <;> decide

/-- `ByteSize` is the number of bytes that `SerializeToArray` writes. -/
theorem length_serialized (w : Writer) {resp : Response}
    (hfits : resp.byteSize ≤ rpcMessageMaxSize) :
    (ResponseMessage.serializeToArray w (messageOf resp)).length = resp.byteSize := by
  have hretCode := length_record_int32 w (show 15 < 16 by decide)
    (fun resp : ResponseMessage => resp.retCode.map retCodeValue) (messageOf resp)
  rw [show (messageOf resp).retCode = resp.retCode from rfl, size_retCode] at hretCode
  rw [ResponseMessage.serializeToArray]
  simp only [ResponseMessage.writers, length_serialize_cons, length_serialize_nil]
  rw [length_recvfromMember w hfits, length_atstartMember w hfits, hretCode]
  iterate 9 rw [length_callMember w hfits (by decide)]
  iterate 2 rw [length_nameMember w hfits (by decide)]
  · obtain ⟨_ | returning, retCode⟩ := resp
    · simp only [messageOf, Response.byteSize, optionalSize, Option.elim_none, Nat.zero_add,
        Nat.add_zero]
    · cases returning <;>
        simp only [messageOf, Response.byteSize, optionalSize, Option.elim_none,
          Option.elim_some, ResponseCall.byteSize, ResponseRecvfrom.byteSize,
          ResponseName.byteSize, ResponseAtstart.byteSize, Returning.byteSize,
          Returning.fieldsSize, Nat.zero_add, Nat.add_zero] <;>
        omega
  all_goals
    rintro ⟨returning, retCode⟩ sub hget
    cases returning <;> first | exact hget | cases hget

section Encoding

variable {w : Writer} {resp : Response}

theorem conforms_call (number : Nat) {get : ResponseMessage → Option ResponseCall}
    {get' : UnpackedResponse → Option ResponseCall}
    (hget : get (messageOf resp) = get' (unpackedOf resp)) :
    Conforms (ResponseMessage.callWriter w number get) (callMember w number get') (messageOf resp)
      (unpackedOf resp) :=
  conforms_message number (callDescriptors w) hget fun sub _ => (length_call w sub).symm

theorem conforms_name (hfits : resp.byteSize ≤ rpcMessageMaxSize) (number : Nat)
    {get : ResponseMessage → Option ResponseName} {get' : UnpackedResponse → Option ResponseName}
    (hget : get (messageOf resp) = get' (unpackedOf resp))
    (hname : ∀ m sub, get m = some sub → nameOf m.returning = some sub) :
    Conforms (ResponseMessage.nameWriter w number get) (nameMember w number get') (messageOf resp)
      (unpackedOf resp) := by
  refine conforms_message number (nameDescriptors w) hget ?_
  intro sub hsub
  rw [← hget] at hsub
  exact (length_name w (name_fits hfits (hname _ sub hsub))).symm

theorem conforms_recvfrom (hfits : resp.byteSize ≤ rpcMessageMaxSize) :
    Conforms
      (.message w 4
        (fun resp => match resp.returning with | .recvfromCall sub => some sub | _ => none)
        ResponseRecvfrom.byteSize (ResponseRecvfrom.writers w))
      (.message w 4
        (fun resp => match resp.returning with | .recvfromCall sub => some sub | _ => none)
        (recvfromDescriptors w))
      (messageOf resp) (unpackedOf resp) := by
  refine conforms_message 4 (recvfromDescriptors w) rfl ?_
  intro sub hsub
  obtain ⟨returning, retCode⟩ := resp
  rcases returning with _ | returning
  · cases hsub
  · cases returning <;> cases hsub
    exact (length_recvfrom w (recvfrom_fits hfits rfl)).symm

theorem conforms_atstart :
    Conforms
      (.message w 16
        (fun resp => match resp.returning with | .atstartAction sub => some sub | _ => none)
        ResponseAtstart.byteSize (ResponseAtstart.writers w))
      (.message w 16
        (fun resp => match resp.returning with | .atstartAction sub => some sub | _ => none)
        (atstartDescriptors w))
      (messageOf resp) (unpackedOf resp) :=
  conforms_message 16 (atstartDescriptors w) rfl fun sub _ => (length_atstart w sub).symm

/-- What the daemon serializes encodes the response by the descriptors of the interceptor. -/
theorem encodes_serialized (hfits : resp.byteSize ≤ rpcMessageMaxSize) :
    Encodes w (responseDescriptors w) (unpackedOf resp)
      (ResponseMessage.serializeToArray w (messageOf resp)) := by
  refine encodes_of_conforms
    (.cons (conforms_call 1 rfl)
      (.cons (conforms_call 2 rfl)
        (.cons (conforms_call 3 rfl)
          (.cons (conforms_recvfrom hfits)
            (.cons (conforms_call 5 rfl)
              (.cons (conforms_call 6 rfl)
                (.cons (conforms_call 7 rfl)
                  (.cons (conforms_name hfits 8 rfl ?_)
                    (.cons (conforms_name hfits 9 rfl ?_)
                      (.cons (conforms_call 10 rfl)
                        (.cons (conforms_call 11 rfl)
                          (.cons (conforms_call 12 rfl)
                            (.cons ⟨rfl, id, id⟩
                              (.cons conforms_atstart .nil))))))))))))))
  all_goals
    rintro ⟨returning, retCode⟩ sub hget
    cases returning <;> first | exact hget | cases hget

theorem complete_unpackedOf (resp : Response) :
    (unpackedOf resp).complete = resp.isInitialized := by
  obtain ⟨_ | returning, retCode⟩ := resp
  · cases retCode <;> rfl
  · cases returning <;> cases retCode <;> rfl

/-- A response is as long as `ByteSize` says, and the interceptor unpacks what its
handler set, if the handler gave it a return code. -/
theorem unpack_serialized {unpack : List UInt8 → Option UnpackedResponse} (h : Unpacks w unpack)
    (hfits : resp.byteSize ≤ rpcMessageMaxSize) :
    (ResponseMessage.serializeToArray w (messageOf resp)).length = resp.byteSize ∧
      unpack (ResponseMessage.serializeToArray w (messageOf resp)) =
        if resp.isInitialized then some (unpackedOf resp) else none := by
  have hlength := length_serialized w hfits
  refine ⟨hlength, ?_⟩
  rw [h _ _ (encodes_serialized hfits) (hlength.trans_le hfits), complete_unpackedOf]

end Encoding

/-! A library that unpacks so. -/

section Readers

variable (r : Reader)

def callReaders : List (FieldReader ResponseCall) :=
  [.int32 r 1 fun sub ret => { sub with ret := some ret },
    .int32 r 2 fun sub errno => { sub with errno := some errno }]

def recvfromReaders : List (FieldReader ResponseRecvfrom) :=
  [.int32 r 1 fun sub ret => { sub with ret := some ret },
    .int32 r 2 fun sub errno => { sub with errno := some errno },
    .bytes r 3 ResponseRecvfrom.buf fun sub buf => { sub with buf := some buf },
    .bytes r 4 ResponseRecvfrom.addr fun sub addr => { sub with addr := some addr }]

def nameReaders : List (FieldReader ResponseName) :=
  [.int32 r 1 fun sub ret => { sub with ret := some ret },
    .int32 r 2 fun sub errno => { sub with errno := some errno },
    .bytes r 3 ResponseName.name fun sub name => { sub with name := some name }]

def atstartReaders : List (FieldReader ResponseAtstart) :=
  [.int32 r 1 fun sub startfd => { sub with startfd := some startfd },
    .int32 r 2 fun sub count => { sub with count := some count }]

def memberReader {σ : Type} (number : Nat) (cleared : σ) (set : σ → ResponseReturning)
    (readers : List (FieldReader σ)) : FieldReader UnpackedResponse :=
  .message r number (fun _ => cleared) (fun resp sub => { resp with returning := set sub })
    (mergePartial r readers)

def responseReaders : List (FieldReader UnpackedResponse) :=
  [memberReader r 1 {} .socketCall (callReaders r),
    memberReader r 2 {} .connectCall (callReaders r),
    memberReader r 3 {} .closeCall (callReaders r),
    memberReader r 4 {} .recvfromCall (recvfromReaders r),
    memberReader r 5 {} .sendtoCall (callReaders r),
    memberReader r 6 {} .pollCall (callReaders r),
    memberReader r 7 {} .selectCall (callReaders r),
    memberReader r 8 {} .getpeernameCall (nameReaders r),
    memberReader r 9 {} .getsocknameCall (nameReaders r),
    memberReader r 10 {} .getsockoptCall (callReaders r),
    memberReader r 11 {} .setsockoptCall (callReaders r),
    memberReader r 12 {} .fcntlCall (callReaders r),
    .int32 r 15 fun resp retCode => { resp with retCode := some retCode },
    memberReader r 16 {} .atstartAction (atstartReaders r)]

/-- The fields are merged in the order in which they come. -/
def unpackMerging (bytes : List UInt8) : Option UnpackedResponse :=
  let (resp, ended) := mergePartial r (responseReaders r) {} bytes
  if ended && resp.complete then some resp else none

theorem cases_call : Cases (callReaders r) := by
  have htags : (callReaders r).map (·.tag) = [8, 16] := rfl
  exact cases_of_tags htags (by decide) (by decide) (by decide)

theorem cases_recvfrom : Cases (recvfromReaders r) := by
  have htags : (recvfromReaders r).map (·.tag) = [8, 16, 26, 34] := rfl
  exact cases_of_tags htags (by decide) (by decide) (by decide)

theorem cases_name : Cases (nameReaders r) := by
  have htags : (nameReaders r).map (·.tag) = [8, 16, 26] := rfl
  exact cases_of_tags htags (by decide) (by decide) (by decide)

theorem cases_atstart : Cases (atstartReaders r) := by
  have htags : (atstartReaders r).map (·.tag) = [8, 16] := rfl
  exact cases_of_tags htags (by decide) (by decide) (by decide)

theorem cases_response : Cases (responseReaders r) := by
  have htags : (responseReaders r).map (·.tag) =
      [10, 18, 26, 34, 42, 50, 58, 66, 74, 82, 90, 98, 120, 130] := rfl
  exact cases_of_tags htags (by decide) (by decide) (by decide)

end Readers

section Merging

variable {w : Writer} {r : Reader} {bytes : List UInt8}

theorem merge_call (h : r.Reads w) {sub : ResponseCall}
    (hencodes : Encodes w (callDescriptors w) sub bytes) (hlt : bytes.length < 4294967296) :
    mergePartial r (callReaders r) {} bytes = (sub, true) := by
  refine (mergePartial_encoded (cases_call r) h
    (.cons (carries_int32 h 1 ResponseCall.ret _ sub)
      (.cons (carries_int32 h 2 ResponseCall.errno _ sub) .nil)) ?_ hencodes hlt {}).trans ?_
  all_goals obtain ⟨ret, errno⟩ := sub
  · cases ret <;> cases errno <;> simp [commute_iff]
  · cases ret <;> cases errno <;> rfl

theorem merge_recvfrom (h : r.Reads w) {sub : ResponseRecvfrom}
    (hencodes : Encodes w (recvfromDescriptors w) sub bytes) (hlt : bytes.length < 4294967296) :
    mergePartial r (recvfromReaders r) {} bytes = (sub, true) := by
  refine (mergePartial_encoded (cases_recvfrom r) h
    (.cons (carries_int32 h 1 ResponseRecvfrom.ret _ sub)
      (.cons (carries_int32 h 2 ResponseRecvfrom.errno _ sub)
        (.cons (carries_bytes h 3 ResponseRecvfrom.buf ResponseRecvfrom.buf _ sub)
          (.cons (carries_bytes h 4 ResponseRecvfrom.addr ResponseRecvfrom.addr _ sub) .nil))))
    ?_ hencodes hlt {}).trans ?_
  all_goals obtain ⟨ret, errno, buf, addr⟩ := sub
  · cases ret <;> cases errno <;> cases buf <;> cases addr <;>
      simp [commute_iff]
  · cases ret <;> cases errno <;> cases buf <;> cases addr <;> rfl

theorem merge_name (h : r.Reads w) {sub : ResponseName}
    (hencodes : Encodes w (nameDescriptors w) sub bytes) (hlt : bytes.length < 4294967296) :
    mergePartial r (nameReaders r) {} bytes = (sub, true) := by
  refine (mergePartial_encoded (cases_name r) h
    (.cons (carries_int32 h 1 ResponseName.ret _ sub)
      (.cons (carries_int32 h 2 ResponseName.errno _ sub)
        (.cons (carries_bytes h 3 ResponseName.name ResponseName.name _ sub) .nil)))
    ?_ hencodes hlt {}).trans ?_
  all_goals obtain ⟨ret, errno, name⟩ := sub
  · cases ret <;> cases errno <;> cases name <;> simp [commute_iff]
  · cases ret <;> cases errno <;> cases name <;> rfl

theorem merge_atstart (h : r.Reads w) {sub : ResponseAtstart}
    (hencodes : Encodes w (atstartDescriptors w) sub bytes) (hlt : bytes.length < 4294967296) :
    mergePartial r (atstartReaders r) {} bytes = (sub, true) := by
  refine (mergePartial_encoded (cases_atstart r) h
    (.cons (carries_int32 h 1 ResponseAtstart.startfd _ sub)
      (.cons (carries_int32 h 2 ResponseAtstart.count _ sub) .nil)) ?_ hencodes hlt {}).trans ?_
  all_goals obtain ⟨startfd, count⟩ := sub
  · cases startfd <;> cases count <;> simp [commute_iff]
  · cases startfd <;> cases count <;> rfl

theorem carries_member {σ : Type} (h : r.Reads w) (number : Nat)
    (get : UnpackedResponse → Option σ) (cleared : σ) (set : σ → ResponseReturning)
    {fields : List (FieldFormat σ)} {readers : List (FieldReader σ)} {resp : UnpackedResponse}
    (hmerge : ∀ {sub bytes}, Encodes w fields sub bytes → bytes.length < 4294967296 →
      mergePartial r readers cleared bytes = (sub, true)) :
    Carries (.message w number get fields) (memberReader r number cleared set readers) resp
      ((get resp).map fun sub m => { m with returning := set sub }) :=
  carries_message h number get fields _ _ _ (fun sub _ => sub)
    fun _ _ _ hencodes hlt _ => hmerge hencodes hlt

theorem merge_response (h : r.Reads w) {resp : UnpackedResponse}
    (hencodes : Encodes w (responseDescriptors w) resp bytes) (hlt : bytes.length < 4294967296) :
    mergePartial r (responseReaders r) {} bytes = (resp, true) := by
  refine (mergePartial_encoded (cases_response r) h
    (.cons (carries_member h 1 _ _ _ (merge_call h))
      (.cons (carries_member h 2 _ _ _ (merge_call h))
        (.cons (carries_member h 3 _ _ _ (merge_call h))
          (.cons (carries_member h 4 _ _ _ (merge_recvfrom h))
            (.cons (carries_member h 5 _ _ _ (merge_call h))
              (.cons (carries_member h 6 _ _ _ (merge_call h))
                (.cons (carries_member h 7 _ _ _ (merge_call h))
                  (.cons (carries_member h 8 _ _ _ (merge_name h))
                    (.cons (carries_member h 9 _ _ _ (merge_name h))
                      (.cons (carries_member h 10 _ _ _ (merge_call h))
                        (.cons (carries_member h 11 _ _ _ (merge_call h))
                          (.cons (carries_member h 12 _ _ _ (merge_call h))
                            (.cons (carries_int32 h 15 _ _ _)
                              (.cons (carries_member h 16 _ _ _ (merge_atstart h))
                                .nil)))))))))))))) ?_ hencodes hlt {}).trans ?_
  all_goals obtain ⟨returning, retCode⟩ := resp
  · cases returning <;> cases retCode <;> simp [commute_iff]
  · cases returning <;> cases retCode <;> rfl

theorem unpacks_unpackMerging (h : r.Reads w) : Unpacks w (unpackMerging r) := by
  intro resp bytes hencodes hfits
  have hlt : bytes.length < 4294967296 := Nat.lt_of_le_of_lt hfits (by decide)
  simp only [unpackMerging, merge_response h hencodes hlt, Bool.true_and]

end Merging

def sampleResponse : Response :=
  { returning := some (.recvfromCall 3 none (some [1, 2, 3]) none), retCode := some .OK }

theorem unpack_sampleResponse :
    ResponseMessage.serializeToArray Lib.Base128.writer (messageOf sampleResponse) =
        [34, 7, 8, 3, 26, 3, 1, 2, 3, 120, 0] ∧
      unpackMerging Lib.Base128.reader
          (ResponseMessage.serializeToArray Lib.Base128.writer (messageOf sampleResponse)) =
        some (unpackedOf sampleResponse) :=
  ⟨by decide, (unpack_serialized (unpacks_unpackMerging Lib.Base128.reads) (by decide)).2⟩

end MuQuinet.ResponseCodec
