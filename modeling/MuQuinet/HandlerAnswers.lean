import MuQuinet.ChannelSockets

namespace MuQuinet.HandlerAnswers

open MuQuinet.Lib.Outcomes
open MuQuinet.Buffers
open MuQuinet.ChannelSockets
open MuQuinet.Pcbs
open MuQuinet.RequestHandler
open MuQuinet.Rpc
open MuQuinet.Sockets

/-- The encoded size of a reply to `recvfrom` with a payload of `n` bytes. -/
def recvfromReplySize (n : Nat) (withAddr : Bool) : Nat :=
  let fieldsSize := int32FieldSize (.ofInt n) + (1 + varintSize n + n) +
    if withAddr then 2 + sizeofSockaddrIn else 0
  1 + varintSize fieldsSize + fieldsSize + 2

/-- The payload pointers of every buffer are in order, and the reply fits the
message size. -/
def ReplyFits (withAddr : Bool) (chain : List SocketBuffer) : Prop :=
  ∃ buf, collect chain = some buf ∧ recvfromReplySize buf.length withAddr ≤ rpcMessageMaxSize

/-- The requests that the daemon serves, on a channel in some state. -/
def ServedRequest (d : Daemon) (ch : Nat) : Calling → Prop
  | .socketCall domain type _ =>
      domain = RequestHandler.AF_INET ∧ (type &&& SOCK_STREAM ≠ 0 ∨ type &&& SOCK_DGRAM ≠ 0)
  | .connectCall addr =>
      sizeofSockaddrIn ≤ addr.length ∧ ∃ ref so, HasSocket d ch ref so ∧ so.type = .TCP
  | .sendtoCall _ _ addr =>
      ∃ ref so, HasSocket d ch ref so ∧
        (so.type = .UDP → ∀ bytes, addr = some bytes → sizeofSockaddrIn ≤ bytes.length)
  | .recvfromCall _ _ requireAddr =>
      ∃ ref so, HasSocket d ch ref so ∧
        ∀ entry ∈ so.recvQ.head?, ReplyFits requireAddr entry.2
  | .getpeernameCall | .getsocknameCall => ∃ ref so, HasSocket d ch ref so
  | .closeCall | .atstartAction _ => True
  | .pollCall | .selectCall | .getsockoptCall | .setsockoptCall | .fcntlCall | .notSet => False

/-- A read that fails for another reason than an empty channel is not served. -/
def Served (d : Daemon) (ch : Nat) : ReadResult → Prop
  | .message req => ServedRequest d ch req.calling
  | .again | .eof => True
  | .error => False

def Sendable (resp : Response) : Prop :=
  resp.isInitialized = true ∧ resp.byteSize ≤ rpcMessageMaxSize

def Answers (result : Except Fault (Daemon × Response)) : Prop :=
  ∃ d resp, result = .ok (d, resp) ∧ Sendable resp

theorem write_eq_ok_iff {resp sent : Response} :
    write resp = .ok sent ↔ Sendable resp ∧ sent = resp := by
  unfold write Sendable
  split
  · rename_i hinit
    simp [hinit]
  · split
    · rename_i hlarge
      simp [Nat.not_le.mpr hlarge]
    · rename_i hinit hfits
      simp [eq_comm, Nat.not_lt.mp hfits, Bool.eq_true_of_not_eq_false hinit]

/-- What the loop does when it reads the notification pipe of a socket. -/
inductive ReadCbEffect (so : Socket) : Socket → Option Response → Prop
  | idle : so.waiting = false → ReadCbEffect so so.drainNotifyPipe none
  | unset : so.waiting = true → so.onAsyncNewPacket = none →
      ReadCbEffect so (so.drainNotifyPipe.setWaiting false) none
  | replied {cb : OnAsyncNewPacket} {entry : SockaddrIn × List SocketBuffer}
      {rest : List (SockaddrIn × List SocketBuffer)} {resp : Response} : so.waiting = true →
      so.onAsyncNewPacket = some cb → so.recvQ = entry :: rest →
      packetResponse cb.requireAddr entry = .ok resp → Sendable resp →
      ReadCbEffect so { so.drainNotifyPipe with recvQ := rest, waiting := false } (some resp)

theorem sChannelReadCb_effect {so so' : Socket} {resp : Option Response}
    (h : sChannelReadCb so = .ok (so', resp)) : ReadCbEffect so so' resp := by
  unfold sChannelReadCb at h
  dsimp only at h
  split at h
  · rename_i hwaiting
    split at h
    · rename_i hcb
      cases h
      exact .unset hwaiting hcb
    · rename_i cb hcb
      obtain ⟨⟨taken, sent⟩, hrun, ⟨⟩⟩ := map_eq_ok_iff.mp h
      unfold RequestHandler.onAsyncNewPacket Socket.tryTakeFromRecvQ at hrun
      rcases hqueue : so.recvQ with _ | ⟨entry, rest⟩
      · simp only [Socket.drainNotifyPipe, hqueue] at hrun
        cases hrun
      · simp only [Socket.drainNotifyPipe, hqueue] at hrun
        obtain ⟨sent', hresp, hrun⟩ := bind_eq_ok_iff.mp hrun
        obtain ⟨_, hwrite, ⟨⟩⟩ := bind_eq_ok_iff.mp hrun
        obtain ⟨hsendable, rfl⟩ := write_eq_ok_iff.mp hwrite
        exact .replied hwaiting hcb hqueue hresp hsendable
  · rename_i hidle
    cases h
    exact .idle (Bool.eq_false_iff.mpr hidle)

theorem write_ok_iff (resp : Response) : (∃ sent, write resp = .ok sent) ↔ Sendable resp := by
  simp only [write_eq_ok_iff, exists_and_left, exists_eq, and_true]

theorem onReadReady_message_ok_iff (d : Daemon) (mem : Uninit) (ch : Nat) (req : Request)
    (writeFails : Bool) :
    (∃ r, onReadReady d mem ch (.message req) writeFails = .ok r) ↔
      Answers (handleRequest d mem ch req) := by
  simp only [onReadReady, bind_eq_ok_iff]
  constructor
  · rintro ⟨r, ⟨d', resp⟩, hhandle, sent, hsent, -⟩
    exact ⟨d', resp, hhandle, (write_ok_iff resp).mp ⟨sent, hsent⟩⟩
  · rintro ⟨d', resp, hhandle, hsendable⟩
    obtain ⟨sent, hsent⟩ := (write_ok_iff resp).mpr hsendable
    cases writeFails
    · exact ⟨_, (d', resp), hhandle, sent, hsent, rfl⟩
    · exact ⟨_, (d', resp), hhandle, sent, hsent, rfl⟩

theorem answers_ok_iff {d : Daemon} {resp : Response} :
    Answers (.ok (d, resp)) ↔ Sendable resp := by
  constructor
  · rintro ⟨_, _, ⟨⟩, hsendable⟩
    exact hsendable
  · intro hsendable
    exact ⟨d, resp, rfl, hsendable⟩

theorem not_answers_error {fault : Fault} : ¬ Answers (.error fault) := by
  rintro ⟨d, resp, ⟨⟩, -⟩

theorem answers_bind_iff {α : Type} {x : Except Fault α}
    {f : α → Except Fault (Daemon × Response)} :
    Answers (x >>= f) ↔ ∃ a, x = .ok a ∧ Answers (f a) := by
  constructor
  · rintro ⟨d, resp, hok, hsendable⟩
    obtain ⟨a, ha, hf⟩ := bind_eq_ok_iff.mp hok
    exact ⟨a, ha, d, resp, hf, hsendable⟩
  · rintro ⟨a, ha, d, resp, hf, hsendable⟩
    exact ⟨d, resp, bind_eq_ok_iff.mpr ⟨a, ha, hf⟩, hsendable⟩

theorem sendable_retOk {returning : Returning} (h : returning.fieldsSize < 128) :
    Sendable (retOk returning) :=
  ⟨rfl, byteSize_le_of_fieldsSize h⟩

theorem not_sendable_none {returning : Option Returning} :
    ¬ Sendable { returning := returning, retCode := none } := by
  rintro ⟨⟨⟩, -⟩

theorem sendable_waitNext : Sendable { returning := none, retCode := some .WAIT_NEXT } :=
  ⟨rfl, by decide⟩

theorem socketCall_answers_iff (d : Daemon) (mem : Uninit) (ch : Nat) (domain type : Int32) :
    Answers (socketCall d mem ch domain type) ↔
      domain = RequestHandler.AF_INET ∧ (type &&& SOCK_STREAM ≠ 0 ∨ type &&& SOCK_DGRAM ≠ 0) := by
  unfold socketCall
  split
  · rename_i hdomain
    exact iff_of_false not_answers_error fun h => hdomain h.1
  · rename_i hdomain
    split
    · rename_i htype
      refine iff_of_false not_answers_error ?_
      rintro ⟨-, hstream | hdgram⟩
      · exact hstream htype.1
      · exact hdgram htype.2
    · rename_i htype
      refine iff_of_true (answers_ok_iff.mpr (sendable_retOk (by decide))) ⟨not_not.mp hdomain, ?_⟩
      exact (Decidable.not_and_iff_or_not.mp htype)

theorem destAddr_ok_iff (addr : List UInt8) :
    (∃ dest, destAddr addr = .ok dest) ↔ sizeofSockaddrIn ≤ addr.length := by
  unfold destAddr
  rcases Nat.lt_or_ge addr.length sizeofSockaddrIn with hshort | hlong
  · simp [hshort, Nat.not_le.mpr hshort]
  · simp [hlong, Nat.not_lt.mpr hlong]

/-- A UDP socket gets no return code, so `write` asserts; a TCP socket is
answered now or later. -/
theorem connectCall_answers_iff {d : Daemon} (h : Connected d) (ch : Nat) (addr : List UInt8) :
    Answers (connectCall d ch addr) ↔
      sizeofSockaddrIn ≤ addr.length ∧ ∃ ref so, HasSocket d ch ref so ∧ so.type = .TCP := by
  simp only [connectCall, answers_bind_iff]
  constructor
  · rintro ⟨dest, hdest, ⟨ref, so⟩, hsocket, hcall⟩
    refine ⟨(destAddr_ok_iff addr).mp ⟨dest, hdest⟩, ref, so, socket_eq_ok_iff.mp hsocket, ?_⟩
    rcases htype : so.type with _ | _
    · simp only [htype, answers_bind_iff] at hcall
      obtain ⟨pcb, -, hanswers⟩ := hcall
      exact absurd (answers_ok_iff.mp hanswers) not_sendable_none
    · rfl
  · rintro ⟨haddr, ref, so, hsocket, htype⟩
    obtain ⟨dest, hdest⟩ := (destAddr_ok_iff addr).mpr haddr
    obtain ⟨-, pcb, hslot⟩ := h.tcp hsocket htype
    refine ⟨dest, hdest, (ref, so), socket_eq_ok_iff.mpr hsocket, ?_⟩
    simp only [htype]
    split
    · exact answers_ok_iff.mpr (sendable_retOk (by decide))
    · rw [answers_bind_iff]
      exact ⟨pcb, tcpPcb_of_slot hslot, answers_ok_iff.mpr sendable_waitNext⟩

theorem sendable_sendtoCall (ret : Int32) : Sendable (retOk (.sendtoCall ret none)) := by
  have hret := int32Size_le ret
  apply sendable_retOk
  simp only [Returning.fieldsSize, int32FieldSize, optionalSize, Option.elim_none]
  omega

theorem sendtoCall_answers_iff {d : Daemon} (h : Connected d) (ch : Nat) (buf : List UInt8)
    (addr : Option (List UInt8)) :
    Answers (sendtoCall d ch buf addr) ↔
      ∃ ref so, HasSocket d ch ref so ∧
        (so.type = .UDP → ∀ bytes, addr = some bytes → sizeofSockaddrIn ≤ bytes.length) := by
  simp only [sendtoCall, answers_bind_iff]
  constructor
  · rintro ⟨⟨ref, so⟩, hsocket, hcall⟩
    refine ⟨ref, so, socket_eq_ok_iff.mp hsocket, ?_⟩
    rintro htype bytes rfl
    simp only [htype, answers_bind_iff] at hcall
    obtain ⟨dest, hdest, -⟩ := hcall
    exact (destAddr_ok_iff bytes).mp ⟨dest, hdest⟩
  · rintro ⟨ref, so, hsocket, haddr⟩
    refine ⟨(ref, so), socket_eq_ok_iff.mpr hsocket, ?_⟩
    rcases htype : so.type with _ | _
    · obtain ⟨-, pcb, hslot⟩ := h.udp hsocket htype
      have hpcb := udpPcb_of_slot hslot
      rcases addr with _ | bytes
      · simp only [answers_bind_iff]
        exact ⟨pcb, hpcb, _, rfl, answers_ok_iff.mpr (sendable_sendtoCall _)⟩
      · obtain ⟨dest, hdest⟩ := (destAddr_ok_iff bytes).mpr (haddr htype bytes rfl)
        simp only [answers_bind_iff]
        exact ⟨dest, hdest, pcb, hpcb, _, rfl, answers_ok_iff.mpr (sendable_sendtoCall _)⟩
    · obtain ⟨-, pcb, hslot⟩ := h.tcp hsocket htype
      simp only [answers_bind_iff]
      exact ⟨pcb, tcpPcb_of_slot hslot, answers_ok_iff.mpr (sendable_sendtoCall _)⟩

theorem byteSize_recvfromReply (buf : List UInt8) (requireAddr : Bool) (peeraddr : SockaddrIn) :
    (retOk (.recvfromCall (.ofInt buf.length) none (some buf)
      (if requireAddr then some peeraddr.bytes else none))).byteSize =
        recvfromReplySize buf.length requireAddr := by
  have haddr : varintSize sizeofSockaddrIn = 1 := varintSize_of_lt (by decide)
  rcases requireAddr with _ | _
  · simp [Response.byteSize, Returning.byteSize, Returning.fieldsSize, retOk, optionalSize,
      bytesFieldSize, recvfromReplySize]
  · simp [Response.byteSize, Returning.byteSize, Returning.fieldsSize, retOk, optionalSize,
      bytesFieldSize, recvfromReplySize, haddr]

theorem packetResponse_sendable_iff (requireAddr : Bool)
    (entry : SockaddrIn × List SocketBuffer) :
    (∃ resp, packetResponse requireAddr entry = .ok resp ∧ Sendable resp) ↔
      ReplyFits requireAddr entry.2 := by
  unfold packetResponse ReplyFits
  rcases collect entry.2 with _ | buf
  · simp
  · simp only [Except.ok.injEq, Option.some.injEq, exists_eq_left']
    rw [Sendable, byteSize_recvfromReply]
    exact and_iff_right rfl

theorem recvfrom_sendable_iff (so : Socket) (ch : Nat) (requireAddr : Bool) :
    (∃ so' resp, recvfrom so ch requireAddr = .ok (so', resp) ∧ Sendable resp) ↔
      ∀ entry ∈ so.recvQ.head?, ReplyFits requireAddr entry.2 := by
  unfold recvfrom Socket.tryTakeFromRecvQ
  rcases so.recvQ with _ | ⟨entry, rest⟩
  · refine iff_of_true ?_ (by simp)
    dsimp only
    split
    · exact ⟨_, _, rfl, sendable_retOk (by decide)⟩
    · exact ⟨_, _, rfl, sendable_waitNext⟩
  · simp only [map_eq_ok_iff, List.head?_cons, Option.mem_def, Option.some.injEq, forall_eq',
      ← packetResponse_sendable_iff]
    constructor
    · rintro ⟨so', resp, ⟨_, hresp, ⟨⟩⟩, hsendable⟩
      exact ⟨resp, hresp, hsendable⟩
    · rintro ⟨resp, hresp, hsendable⟩
      exact ⟨_, resp, ⟨resp, hresp, rfl⟩, hsendable⟩

theorem recvfromCall_answers_iff (d : Daemon) (ch : Nat) (requireAddr : Bool) :
    Answers (recvfromCall d ch requireAddr) ↔
      ∃ ref so, HasSocket d ch ref so ∧
        ∀ entry ∈ so.recvQ.head?, ReplyFits requireAddr entry.2 := by
  simp only [recvfromCall, answers_bind_iff]
  constructor
  · rintro ⟨⟨ref, so⟩, hsocket, ⟨so', resp⟩, hrecvfrom, hanswers⟩
    exact ⟨ref, so, socket_eq_ok_iff.mp hsocket, (recvfrom_sendable_iff so ch requireAddr).mp
      ⟨so', resp, hrecvfrom, answers_ok_iff.mp hanswers⟩⟩
  · rintro ⟨ref, so, hsocket, hfits⟩
    obtain ⟨so', resp, hrecvfrom, hsendable⟩ := (recvfrom_sendable_iff so ch requireAddr).mpr hfits
    exact ⟨(ref, so), socket_eq_ok_iff.mpr hsocket, (so', resp), hrecvfrom,
      answers_ok_iff.mpr hsendable⟩

theorem nameOf_ok_iff {d : Daemon} (h : Connected d) (ch : Nat) (name : Pcb → SockaddrIn) :
    (∃ addr, nameOf d ch name = .ok addr) ↔ ∃ ref so, HasSocket d ch ref so := by
  simp only [nameOf, bind_eq_ok_iff]
  constructor
  · rintro ⟨addr, ⟨ref, so⟩, hsocket, -⟩
    exact ⟨ref, so, socket_eq_ok_iff.mp hsocket⟩
  · rintro ⟨ref, so, hsocket⟩
    rcases htype : so.type with _ | _
    · obtain ⟨hrefType, pcb, hslot⟩ := h.udp hsocket htype
      refine ⟨(name pcb).bytes, (ref, so), socket_eq_ok_iff.mpr hsocket, ?_⟩
      simp only [hrefType, udpPcb_of_slot hslot]
      rfl
    · obtain ⟨hrefType, pcb, hslot⟩ := h.tcp hsocket htype
      refine ⟨(name pcb.toPcb).bytes, (ref, so), socket_eq_ok_iff.mpr hsocket, ?_⟩
      simp only [hrefType, tcpPcb_of_slot hslot]
      rfl

theorem nameOf_length {d : Daemon} {ch : Nat} {name : Pcb → SockaddrIn} {addr : List UInt8}
    (h : nameOf d ch name = .ok addr) : addr.length = sizeofSockaddrIn := by
  simp only [nameOf, bind_eq_ok_iff] at h
  obtain ⟨⟨ref, so⟩, -, h⟩ := h
  split at h
  · obtain ⟨pcb, -, ⟨⟩⟩ := bind_eq_ok_iff.mp h
    exact SockaddrIn.length_bytes _
  · obtain ⟨pcb, -, ⟨⟩⟩ := bind_eq_ok_iff.mp h
    exact SockaddrIn.length_bytes _

theorem nameFields_lt {name : List UInt8} (h : name.length = sizeofSockaddrIn) :
    int32FieldSize 0 + optionalSize int32FieldSize none +
      optionalSize bytesFieldSize (some name) < 128 := by
  rw [optionalSize, optionalSize, Option.elim_some, bytesFieldSize, h]
  decide

theorem getpeernameCall_answers_iff {d : Daemon} (h : Connected d) (ch : Nat) :
    Answers (getpeernameCall d ch) ↔ ∃ ref so, HasSocket d ch ref so := by
  simp only [getpeernameCall, answers_bind_iff]
  rw [← nameOf_ok_iff h ch]
  refine exists_congr fun peername => and_iff_left_of_imp fun hname => ?_
  exact answers_ok_iff.mpr (sendable_retOk (nameFields_lt (nameOf_length hname)))

theorem getsocknameCall_answers_iff {d : Daemon} (h : Connected d) (ch : Nat) :
    Answers (getsocknameCall d ch) ↔ ∃ ref so, HasSocket d ch ref so := by
  simp only [getsocknameCall, answers_bind_iff]
  rw [← nameOf_ok_iff h ch]
  refine exists_congr fun sockname => and_iff_left_of_imp fun hname => ?_
  exact answers_ok_iff.mpr (sendable_retOk (nameFields_lt (nameOf_length hname)))

theorem handleRequest_answers_iff {d : Daemon} (h : Connected d) (mem : Uninit) (ch : Nat)
    (req : Request) :
    Answers (handleRequest d mem ch req) ↔ ServedRequest d ch req.calling := by
  unfold handleRequest ServedRequest
  cases req.calling with
  | socketCall domain type protocol => exact socketCall_answers_iff d mem ch domain type
  | connectCall addr => exact connectCall_answers_iff h ch addr
  | closeCall => exact iff_true_intro (answers_ok_iff.mpr (sendable_retOk (by decide)))
  | recvfromCall len flags requireAddr => exact recvfromCall_answers_iff d ch requireAddr
  | sendtoCall buf flags addr => exact sendtoCall_answers_iff h ch buf addr
  | getpeernameCall => exact getpeernameCall_answers_iff h ch
  | getsocknameCall => exact getsocknameCall_answers_iff h ch
  | atstartAction progname =>
      exact iff_true_intro (answers_ok_iff.mpr (sendable_retOk (by decide)))
  | _ => exact iff_false_intro fun hanswers => not_sendable_none (answers_ok_iff.mp hanswers)

theorem onReadReady_ok_iff {d : Daemon} (h : Connected d) (mem : Uninit) (ch : Nat)
    (result : ReadResult) (writeFails : Bool) :
    (∃ r, onReadReady d mem ch result writeFails = .ok r) ↔ Served d ch result := by
  cases result with
  | message req =>
      exact (onReadReady_message_ok_iff d mem ch req writeFails).trans
        (handleRequest_answers_iff h mem ch req)
  | again => exact iff_true_intro ⟨_, rfl⟩
  | eof => exact iff_true_intro ⟨_, rfl⟩
  | error => exact iff_false_intro fun ⟨_, hok⟩ => nomatch hok

end MuQuinet.HandlerAnswers
