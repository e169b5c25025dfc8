import MuQuinet.HandlerAnswers

namespace MuQuinet.ReceiveBound

open MuQuinet.Buffers
open MuQuinet.ChannelSockets
open MuQuinet.HandlerAnswers
open MuQuinet.RequestHandler
open MuQuinet.Rpc
open MuQuinet.Sockets

abbrev Packet := SockaddrIn × List SocketBuffer

/-- The arguments of an intercepted `recvfrom` with a buffer; `read` and `recv`
pass no `src_addr`. -/
structure RecvfromArgs where
  len : UInt64
  flags : Int32
  srcAddr : Bool
deriving DecidableEq, Repr

def request (args : RecvfromArgs) (pid : UInt64) : Request :=
  { calling := .recvfromCall args.len.toUInt32.toInt32 args.flags args.srcAddr, pid := pid }

structure Received where
  copied : List UInt8
  peeraddr : Option (List UInt8)
  ret : Int32
deriving DecidableEq, Repr

/-- `recvfrom` after `channel_recv`.  `none` where an assertion fails. -/
def receive (srcAddr : Bool) (resp : Response) : Option Received :=
  match resp.returning with
  | some (.recvfromCall ret errno buf addr) =>
      let copied := if ret > 0 then buf.getD [] else []
      if srcAddr ∧ ret ≥ 0 then
        addr.map fun addr =>
          { copied := copied, peeraddr := some (addr.take sizeofSockaddrIn), ret := ret }
      else if ret = -1 ∧ errno = none then none
      else some { copied := copied, peeraddr := none, ret := ret }
  | _ => none

def putAll (so : Socket) (arriving : List Packet) : Socket :=
  arriving.foldl (fun so packet => so.putToRecvQ packet.1 packet.2) so

/-- The IP thread puts packets into the queue, then the loop reads the
notification pipe. -/
def notified (d : Daemon) (ref : SocketRef) (arriving : List Packet) :
    Except Fault (Option Response) :=
  match d.socketAt ref with
  | none => .error .nullSocket
  | some so => (sChannelReadCb (putAll so arriving)).map Prod.snd

/-- The response with which `channel_recv` returns: it skips those that say
`WAIT_NEXT`. -/
def answer (d : Daemon) (mem : Uninit) (ch : Nat) (ref : SocketRef) (req : Request)
    (arriving : List Packet) : Except Fault (Option Response) := do
  let (d, resp) ← onReadReady d mem ch (.message req) false
  if resp.bind Response.retCode = some .WAIT_NEXT then notified d ref arriving
  else return resp

/-- An intercepted `recvfrom` on channel `ch`, `none` where it does not return:
the daemon failed, or an assertion of the interceptor. -/
def recvfrom (d : Daemon) (mem : Uninit) (ch : Nat) (ref : SocketRef) (pid : UInt64)
    (args : RecvfromArgs) (arriving : List Packet) : Option Received :=
  if args.len = 0 then some { copied := [], peeraddr := none, ret := 0 }
  else
    match answer d mem ch ref (request args pid) arriving with
    | .ok (some resp) => receive args.srcAddr resp
    | _ => none

structure Bounded (len : UInt64) (chain : List SocketBuffer) (r : Received) : Prop where
  copied_le : r.copied.length ≤ len.toNat
  ret_nonneg : 0 ≤ r.ret.toInt
  ret_le : r.ret.toInt ≤ len.toNat
  ret_eq : r.ret.toInt = r.copied.length
  copied_eq : ∃ buf, collect chain = some buf ∧ r.copied = buf.take r.copied.length

/-- The packet is no longer than the buffer, its reply fits a message, and the
peer's address is not asked of a TCP socket that has to wait. -/
def FitsBuffer (so : Socket) (args : RecvfromArgs) (chain : List SocketBuffer) : Prop :=
  (∃ buf, collect chain = some buf ∧ buf.length ≤ args.len.toNat) ∧
    ReplyFits args.srcAddr chain ∧
    ¬ (so.type = .TCP ∧ so.recvQ = [] ∧ args.srcAddr = true)

/-- Whether the reply carries the peer's address: the callback of a TCP socket
leaves it out. -/
def replyAddr (so : Socket) (srcAddr : Bool) : Bool :=
  srcAddr && !(decide (so.type = .TCP) && so.recvQ.isEmpty)

theorem putToRecvQ_fields (so : Socket) (packet : Packet) :
    (∃ more, (so.putToRecvQ packet.1 packet.2).recvQ = so.recvQ ++ more) ∧
      (so.putToRecvQ packet.1 packet.2).waiting = so.waiting ∧
      (so.putToRecvQ packet.1 packet.2).onAsyncNewPacket = so.onAsyncNewPacket := by
  refine ⟨?_, so.waiting_putToRecvQ _ _, so.onAsyncNewPacket_putToRecvQ _ _⟩
  unfold Socket.putToRecvQ
  split
  · exact ⟨[], (List.append_nil _).symm⟩
  · exact ⟨[packet], Socket.recvQ_markSChannelAsReadable _⟩

theorem putAll_fields (so : Socket) (arriving : List Packet) :
    (∃ more, (putAll so arriving).recvQ = so.recvQ ++ more) ∧
      (putAll so arriving).waiting = so.waiting ∧
      (putAll so arriving).onAsyncNewPacket = so.onAsyncNewPacket := by
  unfold putAll
  induction arriving generalizing so with
  | nil => exact ⟨⟨[], (List.append_nil _).symm⟩, rfl, rfl⟩
  | cons packet arriving ih =>
      obtain ⟨⟨more, hmore⟩, hwaiting, hcb⟩ := putToRecvQ_fields so packet
      obtain ⟨⟨rest, hrest⟩, hwaiting', hcb'⟩ := ih (so.putToRecvQ packet.1 packet.2)
      refine ⟨⟨more ++ rest, ?_⟩, hwaiting'.trans hwaiting, hcb'.trans hcb⟩
      rw [List.foldl_cons, hrest, hmore, List.append_assoc]

theorem putAll_head {so : Socket} {packet : Packet} {arriving : List Packet}
    (hempty : so.recvQ = []) (hhead : arriving.head? = some packet) :
    ∃ rest, (putAll so arriving).recvQ = packet :: rest := by
  rcases arriving with _ | ⟨first, arriving⟩
  · cases hhead
  · obtain rfl := Option.some.inj hhead
    obtain ⟨⟨more, hmore⟩, -, -⟩ := putAll_fields (so.putToRecvQ first.1 first.2) arriving
    have hroom : so.recvQ.length ≤ recvQlimit := by
      rw [hempty]
      exact Nat.zero_le _
    rw [Socket.recvQ_putToRecvQ_of_room hroom, hempty] at hmore
    exact ⟨more, hmore⟩

theorem sChannelReadCb_waiting {so : Socket} {cb : OnAsyncNewPacket} {packet : Packet}
    {rest : List Packet} (hwaiting : so.waiting = true) (hcb : so.onAsyncNewPacket = some cb)
    (hqueue : so.recvQ = packet :: rest) :
    (sChannelReadCb so).map Prod.snd =
      (packetResponse cb.requireAddr packet >>= write).map some := by
  simp only [sChannelReadCb, Socket.drainNotifyPipe, hwaiting, if_true, hcb, onAsyncNewPacket,
    Socket.tryTakeFromRecvQ, hqueue]
  rcases packetResponse cb.requireAddr packet with fault | resp
  · rfl
  · change Except.map _ (Except.map _ (write resp >>= _)) = (write resp).map some
    rcases write resp with fault | sent
    · rfl
    · rfl

theorem packetResponse_retCode {requireAddr : Bool} {packet : Packet} {resp : Response}
    (h : packetResponse requireAddr packet = .ok resp) : resp.retCode = some .OK := by
  unfold packetResponse at h
  split at h
  · cases h
  · cases h
    rfl

theorem recvfrom_waits {so : Socket} (hqueue : so.recvQ = []) (hblocking : so.nonblocking = false)
    (ch : Nat) (srcAddr : Bool) :
    ∃ cb : OnAsyncNewPacket, cb.requireAddr = replyAddr so srcAddr ∧
      RequestHandler.recvfrom so ch srcAddr =
        .ok ((so.setOnAsyncNewPacketCB cb).setWaiting true,
          { returning := none, retCode := some .WAIT_NEXT }) := by
  simp only [RequestHandler.recvfrom, Socket.tryTakeFromRecvQ, hqueue, hblocking]
  rcases htype : so.type with _ | _
  · refine ⟨.onAsyncNewUdpPacket ch srcAddr, ?_, rfl⟩
    simp [replyAddr, htype, OnAsyncNewPacket.requireAddr]
  · refine ⟨.onAsyncNewTcpPacket ch, ?_, rfl⟩
    simp [replyAddr, htype, hqueue, OnAsyncNewPacket.requireAddr]

theorem answer_eq {d : Daemon} {ch : Nat} {ref : SocketRef} {so : Socket}
    (hso : HasSocket d ch ref so) (hblocking : so.nonblocking = false) (mem : Uninit)
    (pid : UInt64) (args : RecvfromArgs) {arriving : List Packet} {packet : Packet}
    (htaken : (so.recvQ ++ arriving).head? = some packet) :
    answer d mem ch ref (request args pid) arriving =
      (packetResponse (replyAddr so args.srcAddr) packet >>= write).map some := by
  have hrequest : handleRequest d mem ch (request args pid) =
      (RequestHandler.recvfrom so ch args.srcAddr).map fun taken =>
        (d.setSocketAt ref taken.1, taken.2) := by
    simp only [handleRequest, request, recvfromCall, socket_eq_ok_iff.mpr hso]
    rfl
  simp only [answer, onReadReady, hrequest]
  rcases hqueue : so.recvQ with _ | ⟨first, rest⟩
  · obtain ⟨cb, haddr, hwait⟩ := recvfrom_waits hqueue hblocking ch args.srcAddr
    let waiting := (so.setOnAsyncNewPacketCB cb).setWaiting true
    have hanswer : notified (d.setSocketAt ref waiting) ref arriving =
        (packetResponse (replyAddr so args.srcAddr) packet >>= write).map some := by
      obtain ⟨-, hwaiting, hcb⟩ := putAll_fields waiting arriving
      rw [hqueue] at htaken
      have hempty : waiting.recvQ = [] := hqueue
      obtain ⟨rest, hhead⟩ := putAll_head hempty htaken
      rw [notified, socketAt_setSocketAt hso.2, ← haddr]
      exact sChannelReadCb_waiting hwaiting hcb hhead
    rw [hwait, ← hanswer]
    rfl
  · rw [hqueue] at htaken
    obtain rfl := Option.some.inj htaken
    have haddr : replyAddr so args.srcAddr = args.srcAddr := by
      simp [replyAddr, hqueue]
    have htook : RequestHandler.recvfrom so ch args.srcAddr =
        (packetResponse args.srcAddr first).map fun resp => ({ so with recvQ := rest }, resp) := by
      simp only [RequestHandler.recvfrom, Socket.tryTakeFromRecvQ, hqueue]
    rw [htook, haddr]
    rcases hresp : packetResponse args.srcAddr first with fault | resp
    · rfl
    · change (write resp >>= _) >>= _ = (write resp).map some
      rcases hsent : write resp with fault | sent
      · rfl
      · have hcode : sent.retCode = some .OK := by
          rw [(write_eq_ok_iff.mp hsent).2]
          exact packetResponse_retCode hresp
        change (if (some sent).bind Response.retCode = some .WAIT_NEXT then _ else _) = _
        rw [Option.bind_some, hcode]
        rfl

theorem recvfrom_eq_some_iff {d : Daemon} {ch : Nat} {ref : SocketRef} {so : Socket}
    (hso : HasSocket d ch ref so) (hblocking : so.nonblocking = false) (mem : Uninit)
    (pid : UInt64) {args : RecvfromArgs} (hlen : 0 < args.len) {arriving : List Packet}
    {packet : Packet} (htaken : (so.recvQ ++ arriving).head? = some packet) (r : Received) :
    recvfrom d mem ch ref pid args arriving = some r ↔
      ∃ resp, packetResponse (replyAddr so args.srcAddr) packet = .ok resp ∧ Sendable resp ∧
        receive args.srcAddr resp = some r := by
  have hne : args.len ≠ 0 := by
    intro hzero
    rw [hzero] at hlen
    exact absurd hlen (by decide)
  rw [recvfrom, if_neg hne, answer_eq hso hblocking mem pid args htaken]
  rcases packetResponse (replyAddr so args.srcAddr) packet with fault | resp
  · simp [bind, Except.bind, Except.map]
  · change (match (write resp).map some with
      | .ok (some resp) => receive args.srcAddr resp
      | _ => none) = some r ↔ _
    rcases hsent : write resp with fault | sent
    · have hunsendable : ¬ Sendable resp := by
        intro hsendable
        obtain ⟨sent, hok⟩ := (write_ok_iff resp).mpr hsendable
        rw [hsent] at hok
        cases hok
      simp [Except.map, hunsendable]
    · obtain ⟨hsendable, rfl⟩ := write_eq_ok_iff.mp hsent
      simp [Except.map, hsendable]

/-- The interceptor copies all of `buf`, and asserts that an address came if it
needs one. -/
theorem receive_reply {buf : List UInt8} (hsmall : buf.length ≤ rpcMessageMaxSize)
    (srcAddr requireAddr : Bool) (peeraddr : SockaddrIn) :
    receive srcAddr (retOk (.recvfromCall (.ofInt buf.length) none (some buf)
      (if requireAddr then some peeraddr.bytes else none))) =
        if srcAddr = true ∧ requireAddr = false then none
        else some
          { copied := buf
            peeraddr := if srcAddr then some peeraddr.bytes else none
            ret := .ofInt buf.length } := by
  have hret := toInt_ofInt_of_le hsmall
  have hnonneg : Int32.ofInt buf.length ≥ 0 := by
    rw [ge_iff_le, Int32.le_iff_toInt_le, hret]
    exact Int.natCast_nonneg _
  have hnotError : Int32.ofInt buf.length ≠ -1 := by
    intro herror
    rw [herror] at hret
    exact absurd hret (by change (-1 : Int) ≠ _; omega)
  have hcopied : (if Int32.ofInt buf.length > 0 then buf else []) = buf := by
    rcases buf with _ | ⟨first, rest⟩
    · exact ite_self _
    · rw [if_pos]
      rw [gt_iff_lt, Int32.lt_iff_toInt_lt, hret]
      exact Int.natCast_pos.mpr (Nat.succ_pos _)
  simp only [receive, retOk, Option.getD_some, hcopied, hnonneg, hnotError, and_true,
    if_false]
  rcases srcAddr with _ | _
  · simp
  · rcases requireAddr with _ | _
    · simp
    · simp [List.take_of_length_le, SockaddrIn.length_bytes]

theorem replyAddr_eq_iff (so : Socket) (srcAddr : Bool) :
    ¬ (srcAddr = true ∧ replyAddr so srcAddr = false) ↔
      ¬ (so.type = .TCP ∧ so.recvQ = [] ∧ srcAddr = true) := by
  rcases srcAddr with _ | _
  · simp
  · simp [replyAddr]

theorem replyAddr_eq {so : Socket} {srcAddr : Bool}
    (h : ¬ (srcAddr = true ∧ replyAddr so srcAddr = false)) : replyAddr so srcAddr = srcAddr := by
  rcases srcAddr with _ | _
  · rfl
  · simpa using h

theorem packetResponse_eq_ok_iff {requireAddr : Bool} {packet : Packet} {resp : Response} :
    packetResponse requireAddr packet = .ok resp ↔
      ∃ buf, collect packet.2 = some buf ∧
        resp = retOk (.recvfromCall (.ofInt buf.length) none (some buf)
          (if requireAddr then some packet.1.bytes else none)) := by
  unfold packetResponse
  rcases collect packet.2 with _ | buf
  · simp
  · simp [eq_comm]

theorem length_le_of_replyFits {withAddr : Bool} {buf : List UInt8}
    (h : recvfromReplySize buf.length withAddr ≤ rpcMessageMaxSize) :
    buf.length ≤ rpcMessageMaxSize := by
  dsimp only [recvfromReplySize] at h
  omega

/-- An intercepted `recvfrom` keeps to its buffer exactly where the packet that
the daemon takes fits it: neither program looks at the length. -/
theorem receive_bounded_iff {d : Daemon} {ch : Nat} {ref : SocketRef} {so : Socket}
    (hso : HasSocket d ch ref so) (hblocking : so.nonblocking = false) (mem : Uninit)
    (pid : UInt64) {args : RecvfromArgs} (hlen : 0 < args.len) {arriving : List Packet}
    {packet : Packet} (htaken : (so.recvQ ++ arriving).head? = some packet) :
    (∃ r, recvfrom d mem ch ref pid args arriving = some r ∧ Bounded args.len packet.2 r) ↔
      FitsBuffer so args packet.2 := by
  simp only [recvfrom_eq_some_iff hso hblocking mem pid hlen htaken]
  constructor
  · rintro ⟨r, ⟨resp, hresp, hsendable, hreceive⟩, hbounded⟩
    obtain ⟨buf, hcollect, rfl⟩ := packetResponse_eq_ok_iff.mp hresp
    have hsize := hsendable.2
    rw [byteSize_recvfromReply] at hsize
    rw [receive_reply (length_le_of_replyFits hsize)] at hreceive
    split at hreceive
    · cases hreceive
    · rename_i haddr
      cases hreceive
      rw [replyAddr_eq haddr] at hsize
      exact ⟨⟨buf, hcollect, hbounded.copied_le⟩, ⟨buf, hcollect, hsize⟩,
        (replyAddr_eq_iff so args.srcAddr).mp haddr⟩
  · rintro ⟨⟨buf, hcollect, hlength⟩, ⟨buf', hcollect', hsize⟩, hnotWaiting⟩
    obtain rfl : buf = buf' := Option.some.inj (hcollect.symm.trans hcollect')
    have haddr := (replyAddr_eq_iff so args.srcAddr).mpr hnotWaiting
    have hsmall := length_le_of_replyFits hsize
    have heq := replyAddr_eq haddr
    rw [heq] at haddr ⊢
    have hreceive := receive_reply hsmall args.srcAddr args.srcAddr packet.1
    rw [if_neg haddr] at hreceive
    refine ⟨_, ⟨_, packetResponse_eq_ok_iff.mpr ⟨buf, hcollect, rfl⟩, ⟨rfl, ?_⟩, hreceive⟩, ?_⟩
    · rw [byteSize_recvfromReply]
      exact hsize
    · have hret := toInt_ofInt_of_le hsmall
      constructor
      · exact hlength
      · rw [hret]
        exact Int.natCast_nonneg _
      · rw [hret]
        exact Int.ofNat_le.mpr hlength
      · exact hret
      · exact ⟨buf, hcollect, List.take_length.symm⟩

def samplePacket : Packet :=
  (.zero,
    [{ rawBytes := [0x64, 0x61, 0x74, 0x61]
       networkHdr := none
       hdrsBegin := none
       userPayloadBegin := some 0
       userPayloadEnd := some 4 }])

def sampleSocket : Socket :=
  { type := .UDP, nonblocking := false, recvQ := [samplePacket] }

def sampleDaemon : Daemon :=
  { rrChannels := [some { socket := some { type := .UDP, index := 0 } }]
    stack :=
      { defrager := { defragCtxList := [] }
        udp := { pcbs := [{ pcb := some (.new 1), socket := some sampleSocket }], port := 1024 }
        tcp := { pcbs := [], port := 1024 } }
    stackAddr := 1 }

def sampleUninit : Uninit :=
  { sendUnack := 0, sendNext := 0, irs := 0, recvNext := 0 }

def sampleArgs (len : UInt64) : RecvfromArgs :=
  { len := len, flags := 0, srcAddr := false }

theorem receive_bounded_sample :
    ∃ r, recvfrom sampleDaemon sampleUninit 0 { type := .UDP, index := 0 } 7 (sampleArgs 16) [] =
      some r ∧ Bounded 16 samplePacket.2 r := by
  have hso : HasSocket sampleDaemon 0 { type := .UDP, index := 0 } sampleSocket := ⟨rfl, rfl⟩
  have hlen : 0 < (sampleArgs 16).len := by decide
  refine (receive_bounded_iff hso rfl sampleUninit 7 hlen rfl).mpr ?_
  refine ⟨⟨_, rfl, by decide⟩, ⟨_, rfl, by decide⟩, ?_⟩
  rintro ⟨⟨⟩, -⟩

/-- Into a buffer of one byte the interceptor copies four. -/
theorem recvfrom_overruns_buffer :
    ¬ ∃ r, recvfrom sampleDaemon sampleUninit 0 { type := .UDP, index := 0 } 7 (sampleArgs 1) [] =
      some r ∧ Bounded 1 samplePacket.2 r := by
  have hoverrun : (recvfrom sampleDaemon sampleUninit 0 { type := .UDP, index := 0 } 7
      (sampleArgs 1) []).map Received.copied = some [0x64, 0x61, 0x74, 0x61] := by
    decide
  rintro ⟨r, hrecvfrom, hbounded⟩
  rw [hrecvfrom, Option.map_some, Option.some.injEq] at hoverrun
  have hcopied := hbounded.copied_le
  rw [hoverrun] at hcopied
  exact absurd hcopied (by decide)

end MuQuinet.ReceiveBound
