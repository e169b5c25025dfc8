import MuQuinet.FieldSizes
import MuQuinet.Lib.Base128
import MuQuinet.Lib.Encodings

namespace MuQuinet.RequestCodec

open MuQuinet.Lib.Encodings
open MuQuinet.Lib.WireFormat
open MuQuinet.FieldSizes
open MuQuinet.Rpc

/-! The classes that the daemon parses into.  An absent value is a has-bit not set. -/

structure RequestSocket where
  domain : Option Int32 := none
  type : Option Int32 := none
  protocol : Option Int32 := none
deriving DecidableEq, Repr

structure RequestConnect where
  addr : Option (List UInt8) := none
deriving DecidableEq, Repr

structure RequestRecvfrom where
  len : Option Int32 := none
  flags : Option Int32 := none
  requireAddr : Option Bool := none
deriving DecidableEq, Repr

structure RequestSendto where
  buf : Option (List UInt8) := none
  flags : Option Int32 := none
  addr : Option (List UInt8) := none
deriving DecidableEq, Repr

structure RequestAtstart where
  progname : Option (List UInt8) := none
deriving DecidableEq, Repr

/-- The classes of the other calls have no fields. -/
inductive RequestCalling
  | socketCall (sub : RequestSocket)
  | connectCall (sub : RequestConnect)
  | closeCall
  | recvfromCall (sub : RequestRecvfrom)
  | sendtoCall (sub : RequestSendto)
  | pollCall
  | selectCall
  | getpeernameCall
  | getsocknameCall
  | getsockoptCall
  | setsockoptCall
  | fcntlCall
  | atstartAction (sub : RequestAtstart)
  | notSet
deriving DecidableEq, Repr

structure RequestMessage where
  calling : RequestCalling := .notSet
  pid : Option UInt64 := none
deriving DecidableEq, Repr

namespace RequestSocket

def isInitialized (sub : RequestSocket) : Bool :=
  sub.domain.isSome && sub.type.isSome && sub.protocol.isSome

def fields (r : Reader) : List (FieldReader RequestSocket) :=
  [.int32 r 1 fun sub domain => { sub with domain := some domain },
    .int32 r 2 fun sub type => { sub with type := some type },
    .int32 r 3 fun sub protocol => { sub with protocol := some protocol }]

end RequestSocket

namespace RequestConnect

def isInitialized (sub : RequestConnect) : Bool :=
  sub.addr.isSome

def fields (r : Reader) : List (FieldReader RequestConnect) :=
  [.bytes r 1 RequestConnect.addr fun sub addr => { sub with addr := some addr }]

end RequestConnect

namespace RequestRecvfrom

def isInitialized (sub : RequestRecvfrom) : Bool :=
  sub.len.isSome && sub.flags.isSome && sub.requireAddr.isSome

def fields (r : Reader) : List (FieldReader RequestRecvfrom) :=
  [.int32 r 1 fun sub len => { sub with len := some len },
    .int32 r 2 fun sub flags => { sub with flags := some flags },
    .bool r 3 fun sub requireAddr => { sub with requireAddr := some requireAddr }]

end RequestRecvfrom

namespace RequestSendto

def isInitialized (sub : RequestSendto) : Bool :=
  sub.buf.isSome && sub.flags.isSome

def fields (r : Reader) : List (FieldReader RequestSendto) :=
  [.bytes r 1 RequestSendto.buf fun sub buf => { sub with buf := some buf },
    .int32 r 2 fun sub flags => { sub with flags := some flags },
    .bytes r 3 RequestSendto.addr fun sub addr => { sub with addr := some addr }]

end RequestSendto

namespace RequestAtstart

def isInitialized (sub : RequestAtstart) : Bool :=
  sub.progname.isSome

def fields (r : Reader) : List (FieldReader RequestAtstart) :=
  [.bytes r 1 RequestAtstart.progname fun sub progname => { sub with progname := some progname }]

end RequestAtstart

def emptyFields : List (FieldReader Unit) :=
  []

namespace RequestMessage

/-! `mutable_socketcall` and its like: another call that was set is cleared. -/

def mutableSocketcall (req : RequestMessage) : RequestSocket :=
  match req.calling with
  | .socketCall sub => sub
  | _ => {}

def mutableConnectcall (req : RequestMessage) : RequestConnect :=
  match req.calling with
  | .connectCall sub => sub
  | _ => {}

def mutableRecvfromcall (req : RequestMessage) : RequestRecvfrom :=
  match req.calling with
  | .recvfromCall sub => sub
  | _ => {}

def mutableSendtocall (req : RequestMessage) : RequestSendto :=
  match req.calling with
  | .sendtoCall sub => sub
  | _ => {}

def mutableAtstartaction (req : RequestMessage) : RequestAtstart :=
  match req.calling with
  | .atstartAction sub => sub
  | _ => {}

section Fields

variable (r : Reader) (merge : (σ : Type) → List (FieldReader σ) → σ → List UInt8 → σ × Bool)

/-- The case of a call whose class has no fields. -/
def emptyCall (number : Nat) (calling : RequestCalling) : FieldReader RequestMessage :=
  .message r number (fun _ => ()) (fun req _ => { req with calling := calling })
    (merge Unit emptyFields)

/-- The cases of the parser, by the parser of the classes inside. -/
def fieldsBy : List (FieldReader RequestMessage) :=
  [.message r 1 mutableSocketcall (fun req sub => { req with calling := .socketCall sub })
      (merge _ (RequestSocket.fields r)),
    .message r 2 mutableConnectcall (fun req sub => { req with calling := .connectCall sub })
      (merge _ (RequestConnect.fields r)),
    emptyCall r merge 3 .closeCall,
    .message r 4 mutableRecvfromcall (fun req sub => { req with calling := .recvfromCall sub })
      (merge _ (RequestRecvfrom.fields r)),
    .message r 5 mutableSendtocall (fun req sub => { req with calling := .sendtoCall sub })
      (merge _ (RequestSendto.fields r)),
    emptyCall r merge 6 .pollCall,
    emptyCall r merge 7 .selectCall,
    emptyCall r merge 8 .getpeernameCall,
    emptyCall r merge 9 .getsocknameCall,
    emptyCall r merge 10 .getsockoptCall,
    emptyCall r merge 11 .setsockoptCall,
    emptyCall r merge 12 .fcntlCall,
    .uint64 r 15 fun req pid => { req with pid := some pid },
    .message r 16 mutableAtstartaction (fun req sub => { req with calling := .atstartAction sub })
      (merge _ (RequestAtstart.fields r))]

end Fields

def fields (r : Reader) : List (FieldReader RequestMessage) :=
  fieldsBy r fun _ => mergePartial r

def mergePartialFromCodedStream (r : Reader) (req : RequestMessage) (bytes : List UInt8) :
    RequestMessage × Bool :=
  mergePartial r (fields r) req bytes

def isInitialized (req : RequestMessage) : Bool :=
  req.pid.isSome &&
    match req.calling with
    | .socketCall sub => sub.isInitialized
    | .connectCall sub => sub.isInitialized
    | .recvfromCall sub => sub.isInitialized
    | .sendtoCall sub => sub.isInitialized
    | .atstartAction sub => sub.isInitialized
    | _ => true

/-- `ParseFromArray`.  The message is what was parsed, also where the result is false. -/
def parseFromArray (r : Reader) (bytes : List UInt8) : RequestMessage × Bool :=
  let (req, ended) := mergePartialFromCodedStream r {} bytes
  (req, ended && req.isInitialized)

/-- The request as the getters of its class show it. -/
def request (req : RequestMessage) : Request :=
  { calling :=
      match req.calling with
      | .socketCall sub =>
          .socketCall (sub.domain.getD 0) (sub.type.getD 0) (sub.protocol.getD 0)
      | .connectCall sub => .connectCall (sub.addr.getD [])
      | .closeCall => .closeCall
      | .recvfromCall sub =>
          .recvfromCall (sub.len.getD 0) (sub.flags.getD 0) (sub.requireAddr.getD false)
      | .sendtoCall sub => .sendtoCall (sub.buf.getD []) (sub.flags.getD 0) sub.addr
      | .pollCall => .pollCall
      | .selectCall => .selectCall
      | .getpeernameCall => .getpeernameCall
      | .getsocknameCall => .getsocknameCall
      | .getsockoptCall => .getsockoptCall
      | .setsockoptCall => .setsockoptCall
      | .fcntlCall => .fcntlCall
      | .atstartAction sub => .atstartAction (sub.progname.getD [])
      | .notSet => .notSet
    pid := req.pid.getD 0 }

end RequestMessage

/-! The descriptors by which the interceptor packs.  Of a string, what precedes its
first zero byte is packed. -/

/-- The enumerators of `calling_case`. -/
def callingCase : Calling → Nat
  | .notSet => 0
  | .socketCall _ _ _ => 1
  | .connectCall _ => 2
  | .closeCall => 3
  | .recvfromCall _ _ _ => 4
  | .sendtoCall _ _ _ => 5
  | .pollCall => 6
  | .selectCall => 7
  | .getpeernameCall => 8
  | .getsocknameCall => 9
  | .getsockoptCall => 10
  | .setsockoptCall => 11
  | .fcntlCall => 12
  | .atstartAction _ => 16

section Descriptors

variable (w : Writer)

def socketDescriptors : List (FieldFormat Calling) :=
  [.int32 w 1 fun | .socketCall domain _ _ => some domain | _ => none,
    .int32 w 2 fun | .socketCall _ type _ => some type | _ => none,
    .int32 w 3 fun | .socketCall _ _ protocol => some protocol | _ => none]

def connectDescriptors : List (FieldFormat Calling) :=
  [.bytes w 1 fun | .connectCall addr => some addr | _ => none]

def recvfromDescriptors : List (FieldFormat Calling) :=
  [.int32 w 1 fun | .recvfromCall len _ _ => some len | _ => none,
    .int32 w 2 fun | .recvfromCall _ flags _ => some flags | _ => none,
    .bool w 3 fun | .recvfromCall _ _ requireAddr => some requireAddr | _ => none]

def sendtoDescriptors : List (FieldFormat Calling) :=
  [.bytes w 1 fun | .sendtoCall buf _ _ => some buf | _ => none,
    .int32 w 2 fun | .sendtoCall _ flags _ => some flags | _ => none,
    .bytes w 3 fun | .sendtoCall _ _ addr => addr | _ => none]

def atstartDescriptors : List (FieldFormat Calling) :=
  [.bytes w 1 fun | .atstartAction progname => some (progname.takeWhile (· ≠ 0)) | _ => none]

/-- A member of the union `calling`, packed where `calling_case` is its number. -/
def oneofDescriptor (number : Nat) (descriptors : List (FieldFormat Calling)) :
    FieldFormat Request :=
  .message w number
    (fun req => if callingCase req.calling = number then some req.calling else none) descriptors

def requestDescriptors : List (FieldFormat Request) :=
  [oneofDescriptor w 1 (socketDescriptors w),
    oneofDescriptor w 2 (connectDescriptors w),
    oneofDescriptor w 3 [],
    oneofDescriptor w 4 (recvfromDescriptors w),
    oneofDescriptor w 5 (sendtoDescriptors w),
    oneofDescriptor w 6 [],
    oneofDescriptor w 7 [],
    oneofDescriptor w 8 [],
    oneofDescriptor w 9 [],
    oneofDescriptor w 10 [],
    oneofDescriptor w 11 [],
    oneofDescriptor w 12 [],
    .uint64 w 15 fun req => some req.pid,
    oneofDescriptor w 16 (atstartDescriptors w)]

/-- What `request__pack` and `request__get_packed_size` have from the library: the bytes
encode the request by its descriptors, and the size is their number. -/
structure Packs (getPackedSize : Request → Nat) (pack : Request → List UInt8) : Prop where
  encodes : ∀ req, Encodes w (requestDescriptors w) req (pack req)
  size : ∀ req, getPackedSize req = (pack req).length

end Descriptors

/-- The message that holds a request. -/
def messageOf (req : Request) : RequestMessage :=
  { calling :=
      match req.calling with
      | .socketCall domain type protocol =>
          .socketCall { domain := some domain, type := some type, protocol := some protocol }
      | .connectCall addr => .connectCall { addr := some addr }
      | .closeCall => .closeCall
      | .recvfromCall len flags requireAddr =>
          .recvfromCall { len := some len, flags := some flags, requireAddr := some requireAddr }
      | .sendtoCall buf flags addr =>
          .sendtoCall { buf := some buf, flags := some flags, addr := addr }
      | .pollCall => .pollCall
      | .selectCall => .selectCall
      | .getpeernameCall => .getpeernameCall
      | .getsocknameCall => .getsocknameCall
      | .getsockoptCall => .getsockoptCall
      | .setsockoptCall => .setsockoptCall
      | .fcntlCall => .fcntlCall
      | .atstartAction progname => .atstartAction { progname := some progname }
      | .notSet => .notSet
    pid := some req.pid }

@[simp] theorem request_messageOf (req : Request) : (messageOf req).request = req := by
  obtain ⟨calling, pid⟩ := req
  cases calling <;> rfl

@[simp] theorem isInitialized_messageOf (req : Request) : (messageOf req).isInitialized = true := by
  obtain ⟨calling, pid⟩ := req
  cases calling <;> rfl

/-- What the interceptor can hold and send: its strings end at their first zero byte, and
`channel_send` asserts that a request fits its buffer. -/
structure Packable (getPackedSize : Request → Nat) (req : Request) : Prop where
  fits : getPackedSize req ≤ rpcMessageMaxSize
  string : ∀ progname, req.calling = .atstartAction progname → 0 ∉ progname

theorem takeWhile_eq_self {progname : List UInt8} (h : 0 ∉ progname) :
    progname.takeWhile (· ≠ 0) = progname := by
  refine List.takeWhile_eq_self_iff.mpr ?_
  intro byte hbyte
  simp only [ne_eq, decide_eq_true_eq]
  rintro rfl
  exact h hbyte

/-! The tags of the cases of each parser. -/

theorem cases_socket (r : Reader) : Cases (RequestSocket.fields r) := by
  have htags : (RequestSocket.fields r).map (·.tag) = [8, 16, 24] := rfl
  exact cases_of_tags htags (by decide) (by decide) (by decide)

theorem cases_connect (r : Reader) : Cases (RequestConnect.fields r) := by
  have htags : (RequestConnect.fields r).map (·.tag) = [10] := rfl
  exact cases_of_tags htags (by decide) (by decide) (by decide)

theorem cases_recvfrom (r : Reader) : Cases (RequestRecvfrom.fields r) := by
  have htags : (RequestRecvfrom.fields r).map (·.tag) = [8, 16, 24] := rfl
  exact cases_of_tags htags (by decide) (by decide) (by decide)

theorem cases_sendto (r : Reader) : Cases (RequestSendto.fields r) := by
  have htags : (RequestSendto.fields r).map (·.tag) = [10, 16, 26] := rfl
  exact cases_of_tags htags (by decide) (by decide) (by decide)

theorem cases_atstart (r : Reader) : Cases (RequestAtstart.fields r) := by
  have htags : (RequestAtstart.fields r).map (·.tag) = [10] := rfl
  exact cases_of_tags htags (by decide) (by decide) (by decide)

theorem cases_empty : Cases emptyFields := by
  have htags : emptyFields.map (·.tag) = [] := rfl
  exact cases_of_tags htags (by decide) (by decide) (by decide)

theorem cases_request (r : Reader) : Cases (RequestMessage.fields r) := by
  have htags : (RequestMessage.fields r).map (·.tag) =
      [10, 18, 26, 34, 42, 50, 58, 66, 74, 82, 90, 98, 120, 130] := rfl
  exact cases_of_tags htags (by decide) (by decide) (by decide)

/-- A parser with the same cases that looks up every tag, inside as well. -/
def RequestMessage.plainParse (r : Reader) (req : RequestMessage) (bytes : List UInt8) :
    RequestMessage × Bool :=
  parse r (plainLookup (RequestMessage.fieldsBy r fun _ fields => parse r (plainLookup fields)))
    req bytes

/-- The tags that the parser expects in turn are a fast path alone, on whatever bytes. -/
theorem merge_eq_plainParse (r : Reader) (req : RequestMessage) (bytes : List UInt8) :
    RequestMessage.mergePartialFromCodedStream r req bytes =
      RequestMessage.plainParse r req bytes := by
  have hfast : ∀ {σ : Type} {fields : List (FieldReader σ)}, Cases fields →
      mergePartial r fields = parse r (plainLookup fields) :=
    fun hcases => funext fun m => funext fun bytes => mergePartial_eq_parse hcases m bytes
  rw [RequestMessage.mergePartialFromCodedStream, mergePartial_eq_parse (cases_request r),
    RequestMessage.plainParse]
  simp only [RequestMessage.fields, RequestMessage.fieldsBy, RequestMessage.emptyCall,
    hfast (cases_socket r), hfast (cases_connect r), hfast (cases_recvfrom r),
    hfast (cases_sendto r), hfast (cases_atstart r), hfast cases_empty]

section Sizes

variable (w : Writer)

/-- The descriptors of the member of the union with a number. -/
def memberDescriptors : Nat → List (FieldFormat Calling)
  | 1 => socketDescriptors w
  | 2 => connectDescriptors w
  | 4 => recvfromDescriptors w
  | 5 => sendtoDescriptors w
  | 16 => atstartDescriptors w
  | _ => []

theorem bytesFieldSize_lt {bytes : List UInt8} (h : bytesFieldSize bytes ≤ rpcMessageMaxSize) :
    bytes.length < 4294967296 := by
  unfold bytesFieldSize rpcMessageMaxSize at h
  omega

theorem optional_bytes_lt {addr : Option (List UInt8)}
    (h : optionalSize bytesFieldSize addr ≤ rpcMessageMaxSize) :
    ∀ bytes ∈ addr, bytes.length < 4294967296 := by
  rintro bytes ⟨⟩
  exact bytesFieldSize_lt h

theorem length_calling {calling : Calling} (hfits : calling.fieldsSize ≤ rpcMessageMaxSize)
    (hstring : ∀ progname, calling = .atstartAction progname → 0 ∉ progname) :
    (serialize w (writers (memberDescriptors w (callingCase calling))) calling).length =
      calling.fieldsSize := by
  cases calling with
  | socketCall domain type protocol =>
      simp (disch := decide) only [callingCase, memberDescriptors, socketDescriptors, writers_cons,
        writers_nil, FieldFormat.toFieldWriter_int32, length_serialize_cons, length_serialize_nil,
        length_record_int32, optionalSize, Option.elim_some, Calling.fieldsSize]
      omega
  | connectCall addr =>
      have haddr : ∀ bytes ∈ some addr, bytes.length < 18446744073709551616 := by
        rintro bytes ⟨⟩
        exact (bytesFieldSize_lt hfits).trans (by decide)
      have hrecord := length_record_bytes w (show 1 < 16 by decide)
        (fun | .connectCall addr => some addr | _ => none) (m := Calling.connectCall addr) haddr
      simp only [callingCase, memberDescriptors, connectDescriptors, writers_cons, writers_nil,
        FieldFormat.toFieldWriter_bytes, length_serialize_cons, length_serialize_nil, hrecord,
        optionalSize, Option.elim_some, Calling.fieldsSize]
      omega
  | recvfromCall len flags requireAddr =>
      simp (disch := decide) only [callingCase, memberDescriptors, recvfromDescriptors,
        writers_cons, writers_nil, FieldFormat.toFieldWriter_int32,
        FieldFormat.toFieldWriter_bool, length_serialize_cons, length_serialize_nil,
        length_record_int32, length_record_bool, optionalSize, Option.elim_some,
        Calling.fieldsSize]
      omega
  | sendtoCall buf flags addr =>
      have hbuf : ∀ bytes ∈ some buf, bytes.length < 18446744073709551616 := by
        rintro bytes ⟨⟩
        have hle : bytesFieldSize buf ≤ rpcMessageMaxSize := by
          simp only [Calling.fieldsSize] at hfits
          omega
        exact (bytesFieldSize_lt hle).trans (by decide)
      have haddr : ∀ bytes ∈ addr, bytes.length < 18446744073709551616 := by
        intro bytes hbytes
        have hle : optionalSize bytesFieldSize addr ≤ rpcMessageMaxSize := by
          simp only [Calling.fieldsSize] at hfits
          omega
        exact (optional_bytes_lt hle bytes hbytes).trans (by decide)
      have hbufRecord := length_record_bytes w (show 1 < 16 by decide)
        (fun | .sendtoCall buf _ _ => some buf | _ => none)
        (m := Calling.sendtoCall buf flags addr) hbuf
      have haddrRecord := length_record_bytes w (show 3 < 16 by decide)
        (fun | .sendtoCall _ _ addr => addr | _ => none)
        (m := Calling.sendtoCall buf flags addr) haddr
      simp (disch := decide) only [callingCase, memberDescriptors, sendtoDescriptors, writers_cons,
        writers_nil, FieldFormat.toFieldWriter_int32, FieldFormat.toFieldWriter_bytes,
        length_serialize_cons, length_serialize_nil, hbufRecord, haddrRecord,
        length_record_int32, optionalSize, Option.elim_some, Calling.fieldsSize]
      omega
  | atstartAction progname =>
      have hstrlen := takeWhile_eq_self (hstring progname rfl)
      have hprogname : ∀ bytes ∈ some (progname.takeWhile (· ≠ 0)),
          bytes.length < 18446744073709551616 := by
        rintro bytes ⟨⟩
        rw [hstrlen]
        exact (bytesFieldSize_lt hfits).trans (by decide)
      have hrecord := length_record_bytes w (show 1 < 16 by decide)
        (fun | .atstartAction progname => some (progname.takeWhile (· ≠ 0)) | _ => none)
        (m := Calling.atstartAction progname) hprogname
      simp only [callingCase, memberDescriptors, atstartDescriptors, writers_cons, writers_nil,
        FieldFormat.toFieldWriter_bytes, length_serialize_cons, length_serialize_nil, hrecord,
        optionalSize, Option.elim_some, hstrlen, Calling.fieldsSize]
      omega
  | _ => rfl

theorem length_oneof {number : Nat} (hnumber : number < 2048)
    (descriptors : List (FieldFormat Calling)) {req : Request}
    (hcase : callingCase req.calling = number)
    (hlt : (serialize w (writers descriptors) req.calling).length < 18446744073709551616) :
    (record w (oneofDescriptor w number descriptors).toFieldWriter req).length =
      (if number < 16 then 1 else 2) +
        (varintSize (serialize w (writers descriptors) req.calling).length +
          (serialize w (writers descriptors) req.calling).length) :=
  length_record_message w _ _ (writers descriptors) (if_pos hcase) rfl hlt hnumber

theorem length_oneof_of_ne {number : Nat} (descriptors : List (FieldFormat Calling))
    {req : Request} (hcase : callingCase req.calling ≠ number) :
    (record w (oneofDescriptor w number descriptors).toFieldWriter req).length = 0 :=
  length_record_message_of_none w _ _ (writers descriptors) (if_neg hcase)

theorem callingCase_lt (calling : Calling) : callingCase calling < 2048 := by
  cases calling <;> simp [callingCase]

theorem fieldsSize_le {req : Request} (hfits : req.byteSize ≤ rpcMessageMaxSize) :
    req.calling.fieldsSize ≤ rpcMessageMaxSize := by
  have hbyteSize : req.calling.fieldsSize ≤ req.calling.byteSize := by
    unfold Calling.byteSize
    cases req.calling <;> simp only [Calling.fieldsSize] <;> omega
  unfold Request.byteSize at hfits
  omega

theorem length_request {req : Request} (hfits : req.byteSize ≤ rpcMessageMaxSize)
    (hstring : ∀ progname, req.calling = .atstartAction progname → 0 ∉ progname) :
    (serialize w (writers (requestDescriptors w)) req).length = req.byteSize := by
  have hcalling := length_calling w (fieldsSize_le hfits) hstring
  have hlt : (serialize w (writers (memberDescriptors w (callingCase req.calling)))
      req.calling).length < 18446744073709551616 := by
    rw [hcalling]
    exact Nat.lt_of_le_of_lt (fieldsSize_le hfits) (by decide)
  have hset := length_oneof w (callingCase_lt req.calling) _ rfl hlt
  rw [hcalling] at hset
  have hunset : ∀ number descriptors, callingCase req.calling ≠ number →
      (record w (oneofDescriptor w number descriptors).toFieldWriter req).length = 0 :=
    fun _ descriptors hcase => length_oneof_of_ne w descriptors hcase
  have hpid := length_record_uint64 w (show 15 < 16 by decide) (fun req => some req.pid) req
  rw [Request.byteSize]
  obtain ⟨calling, pid⟩ := req
  cases calling
  all_goals
    simp only [callingCase, memberDescriptors, Calling.fieldsSize, ne_eq] at hset hunset hpid ⊢
    simp [requestDescriptors, hset, hunset, hpid, Calling.byteSize, Calling.fieldsSize,
      optionalSize]
    try omega

/-- What the library gives as the size of a request, where it fits. -/
theorem Packs.getPackedSize_eq {getPackedSize : Request → Nat} {pack : Request → List UInt8}
    (h : Packs w getPackedSize pack) {req : Request} (hfits : req.byteSize ≤ rpcMessageMaxSize)
    (hstring : ∀ progname, req.calling = .atstartAction progname → 0 ∉ progname) :
    getPackedSize req = req.byteSize := by
  rw [h.size, (h.encodes req).length_eq, length_request w hfits hstring]

end Sizes

/-! What the parser of each class makes of a message that it finds there. -/

def socketOf : Calling → RequestSocket → RequestSocket
  | .socketCall domain type protocol, _ =>
      { domain := some domain, type := some type, protocol := some protocol }
  | _, sub => sub

def connectOf : Calling → RequestConnect → RequestConnect
  | .connectCall addr, _ => { addr := some addr }
  | _, sub => sub

def recvfromOf : Calling → RequestRecvfrom → RequestRecvfrom
  | .recvfromCall len flags requireAddr, _ =>
      { len := some len, flags := some flags, requireAddr := some requireAddr }
  | _, sub => sub

/-- An address that was parsed before stays where the request has none. -/
def sendtoOf : Calling → RequestSendto → RequestSendto
  | .sendtoCall buf flags addr, sub =>
      { buf := some buf, flags := some flags, addr := addr.or sub.addr }
  | _, sub => sub

def atstartOf : Calling → RequestAtstart → RequestAtstart
  | .atstartAction progname, _ => { progname := some progname }
  | _, sub => sub

section RoundTrip

variable {w : Writer} {r : Reader}

section Members

variable {calling : Calling} {bytes : List UInt8}

theorem merge_socket (h : r.Reads w) (hcase : callingCase calling = 1)
    (hencodes : Encodes w (socketDescriptors w) calling bytes) (hlt : bytes.length < 4294967296)
    (sub : RequestSocket) :
    mergePartial r (RequestSocket.fields r) sub bytes = (socketOf calling sub, true) := by
  cases calling with
  | socketCall domain type protocol =>
      refine mergePartial_encoded (cases_socket r) h
        (.cons (carries_int32 h 1 _ _ _) (.cons (carries_int32 h 2 _ _ _)
          (.cons (carries_int32 h 3 _ _ _) .nil))) ?_ hencodes hlt sub
      simp [commute_iff]
  | _ => simp [callingCase] at hcase

theorem merge_connect (h : r.Reads w) (hcase : callingCase calling = 2)
    (hencodes : Encodes w (connectDescriptors w) calling bytes) (hlt : bytes.length < 4294967296)
    (sub : RequestConnect) :
    mergePartial r (RequestConnect.fields r) sub bytes = (connectOf calling sub, true) := by
  cases calling with
  | connectCall addr =>
      refine mergePartial_encoded (cases_connect r) h
        (.cons (carries_bytes h 1 _ RequestConnect.addr _ _) .nil) ?_ hencodes hlt sub
      simp
  | _ => simp [callingCase] at hcase

theorem merge_recvfrom (h : r.Reads w) (hcase : callingCase calling = 4)
    (hencodes : Encodes w (recvfromDescriptors w) calling bytes) (hlt : bytes.length < 4294967296)
    (sub : RequestRecvfrom) :
    mergePartial r (RequestRecvfrom.fields r) sub bytes = (recvfromOf calling sub, true) := by
  cases calling with
  | recvfromCall len flags requireAddr =>
      refine mergePartial_encoded (cases_recvfrom r) h
        (.cons (carries_int32 h 1 _ _ _) (.cons (carries_int32 h 2 _ _ _)
          (.cons (carries_bool h 3 _ _ _) .nil))) ?_ hencodes hlt sub
      simp [commute_iff]
  | _ => simp [callingCase] at hcase

theorem merge_sendto (h : r.Reads w) (hcase : callingCase calling = 5)
    (hencodes : Encodes w (sendtoDescriptors w) calling bytes) (hlt : bytes.length < 4294967296)
    (sub : RequestSendto) :
    mergePartial r (RequestSendto.fields r) sub bytes = (sendtoOf calling sub, true) := by
  cases calling with
  | sendtoCall buf flags addr =>
      refine (mergePartial_encoded (cases_sendto r) h
        (.cons (carries_bytes h 1 _ RequestSendto.buf _ _) (.cons (carries_int32 h 2 _ _ _)
          (.cons (carries_bytes h 3 _ RequestSendto.addr _ _) .nil))) ?_ hencodes hlt sub).trans ?_
      · cases addr <;> simp [commute_iff]
      · cases addr <;> rfl
  | _ => simp [callingCase] at hcase

theorem merge_atstart (h : r.Reads w) (hcase : callingCase calling = 16)
    (hstring : ∀ progname, calling = .atstartAction progname → 0 ∉ progname)
    (hencodes : Encodes w (atstartDescriptors w) calling bytes) (hlt : bytes.length < 4294967296)
    (sub : RequestAtstart) :
    mergePartial r (RequestAtstart.fields r) sub bytes = (atstartOf calling sub, true) := by
  cases calling with
  | atstartAction progname =>
      have hmerge : mergePartial r (RequestAtstart.fields r) sub bytes =
          ({ progname := some (progname.takeWhile (· ≠ 0)) }, true) := by
        refine mergePartial_encoded (cases_atstart r) h
          (.cons (carries_bytes h 1 _ RequestAtstart.progname _ _) .nil) ?_ hencodes hlt sub
        simp
      rw [hmerge, takeWhile_eq_self (hstring progname rfl)]
      rfl
  | _ => simp [callingCase] at hcase

theorem merge_empty (h : r.Reads w) (hencodes : Encodes w [] calling bytes)
    (hlt : bytes.length < 4294967296) (m : Unit) :
    mergePartial r emptyFields m bytes = (m, true) :=
  mergePartial_encoded cases_empty h .nil .nil hencodes hlt m

end Members

theorem carries_oneof {υ : Type} (h : r.Reads w) {number : Nat}
    {descriptors : List (FieldFormat Calling)} (mutable : RequestMessage → υ)
    (set : RequestMessage → υ → RequestMessage) (parse : υ → List UInt8 → υ × Bool)
    {req : Request} (merged : Calling → υ → υ)
    (hparse : callingCase req.calling = number → ∀ bytes, Encodes w descriptors req.calling bytes →
      bytes.length < 4294967296 → ∀ m, parse m bytes = (merged req.calling m, true)) :
    Carries (oneofDescriptor w number descriptors) (.message r number mutable set parse) req
      ((if callingCase req.calling = number then some req.calling else none).map
        fun calling m => set m (merged calling (mutable m))) := by
  refine carries_message h number _ descriptors mutable set parse merged ?_
  intro calling hget bytes hencodes hlt m
  obtain ⟨hcase, heq⟩ := Option.ite_none_right_eq_some.mp hget
  cases heq
  exact hparse hcase bytes hencodes hlt (mutable m)

/-- The daemon parses whatever encodes a request. -/
theorem merge_encoded (h : r.Reads w) {req : Request}
    (hstring : ∀ progname, req.calling = .atstartAction progname → 0 ∉ progname)
    {bytes : List UInt8} (hencodes : Encodes w (requestDescriptors w) req bytes)
    (hlt : bytes.length < 4294967296) :
    RequestMessage.mergePartialFromCodedStream r {} bytes = (messageOf req, true) := by
  have hempty : ∀ number, callingCase req.calling = number → ∀ bytes,
      Encodes w [] req.calling bytes → bytes.length < 4294967296 →
      ∀ m, mergePartial r emptyFields m bytes = (m, true) :=
    fun _ _ _ hencodes hlt m => merge_empty h hencodes hlt m
  refine (mergePartial_encoded (cases_request r) h
    (.cons (carries_oneof h _ _ _ socketOf fun hcase _ => merge_socket h hcase)
      (.cons (carries_oneof h _ _ _ connectOf fun hcase _ => merge_connect h hcase)
        (.cons (carries_oneof h _ _ _ (fun _ m => m) (hempty 3))
          (.cons (carries_oneof h _ _ _ recvfromOf fun hcase _ => merge_recvfrom h hcase)
            (.cons (carries_oneof h _ _ _ sendtoOf fun hcase _ => merge_sendto h hcase)
              (.cons (carries_oneof h _ _ _ (fun _ m => m) (hempty 6))
                (.cons (carries_oneof h _ _ _ (fun _ m => m) (hempty 7))
                  (.cons (carries_oneof h _ _ _ (fun _ m => m) (hempty 8))
                    (.cons (carries_oneof h _ _ _ (fun _ m => m) (hempty 9))
                      (.cons (carries_oneof h _ _ _ (fun _ m => m) (hempty 10))
                        (.cons (carries_oneof h _ _ _ (fun _ m => m) (hempty 11))
                          (.cons (carries_oneof h _ _ _ (fun _ m => m) (hempty 12))
                            (.cons (carries_varint h 15 id _ id _ req)
                              (.cons (carries_oneof h _ _ _ atstartOf fun hcase _ =>
                                merge_atstart h hcase hstring) .nil))))))))))))))
    ?_ hencodes hlt {}).trans ?_
  · -- Of the calls only one is copied, which leaves the process id alone.
    obtain ⟨calling, pid⟩ := req
    cases calling <;>
      simp [callingCase, socketOf, connectOf, recvfromOf, sendtoOf, atstartOf,
        RequestMessage.mutableSendtocall, commute_iff]
  · obtain ⟨calling, pid⟩ := req
    cases calling with
    | sendtoCall buf flags addr => cases addr <;> rfl
    | _ => rfl

/-- The daemon's getters show a request as the interceptor packed it. -/
theorem parseFromArray_pack (h : r.Reads w) {getPackedSize : Request → Nat}
    {pack : Request → List UInt8} (hpacks : Packs w getPackedSize pack) {req : Request}
    (hpack : Packable getPackedSize req) :
    (RequestMessage.parseFromArray r (pack req)).2 = true ∧
      (RequestMessage.parseFromArray r (pack req)).1.request = req := by
  have hlt : (pack req).length < 4294967296 := by
    rw [← hpacks.size]
    exact Nat.lt_of_le_of_lt hpack.fits (by decide)
  have hparse : RequestMessage.parseFromArray r (pack req) = (messageOf req, true) := by
    simp only [RequestMessage.parseFromArray, merge_encoded h hpack.string (hpacks.encodes req) hlt,
      isInitialized_messageOf, Bool.and_self]
  rw [hparse]
  exact ⟨rfl, request_messageOf req⟩

end RoundTrip

/-- An instance of the library that keeps the fields in the order of their descriptors. -/
def packInOrder (w : Writer) (req : Request) : List UInt8 :=
  serialize w (writers (requestDescriptors w)) req

theorem packs_packInOrder (w : Writer) :
    Packs w (fun req => (packInOrder w req).length) (packInOrder w) :=
  ⟨fun req => encodes_serialize _ req, fun _ => rfl⟩

def sampleRequest : Request :=
  { calling := .sendtoCall [1, 2, 3] (-1) (some [2, 0]), pid := 300 }

theorem sampleRequest_packable :
    Packable (fun req => (packInOrder Lib.Base128.writer req).length) sampleRequest := by
  refine ⟨by decide, ?_⟩
  intro progname hcalling
  cases hcalling

theorem parse_sampleRequest :
    packInOrder Lib.Base128.writer sampleRequest =
        [42, 20, 10, 3, 1, 2, 3, 16, 255, 255, 255, 255, 255, 255, 255, 255, 255, 1, 26, 2, 2, 0,
          120, 172, 2] ∧
      (RequestMessage.parseFromArray Lib.Base128.reader
        (packInOrder Lib.Base128.writer sampleRequest)).2 = true ∧
      (RequestMessage.parseFromArray Lib.Base128.reader
        (packInOrder Lib.Base128.writer sampleRequest)).1.request = sampleRequest :=
  ⟨by decide, parseFromArray_pack Lib.Base128.reads (packs_packInOrder _) sampleRequest_packable⟩

end MuQuinet.RequestCodec
