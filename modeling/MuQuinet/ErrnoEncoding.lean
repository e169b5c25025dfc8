import MuQuinet.ReceiveBound
import MuQuinet.ReplyShape

namespace MuQuinet.ErrnoEncoding

open MuQuinet.Lib.Outcomes
open MuQuinet.Buffers
open MuQuinet.ChannelSockets
open MuQuinet.DaemonSurvival
open MuQuinet.HandlerAnswers
open MuQuinet.IpLayer
open MuQuinet.PacketEffects
open MuQuinet.Pcbs
open MuQuinet.ReceiveBound hiding sampleDaemon sampleUninit
open MuQuinet.ReplyShape
open MuQuinet.RequestHandler
open MuQuinet.Rpc
open MuQuinet.Sockets
open MuQuinet.TcpLayer
open MuQuinet.UdpLayer
open MuQuinet.Wire

/-- The calls on a socket that the interceptor passes on; `read` and `recv` are
`recvfrom` without `src_addr`, `write` and `send` are `sendto` without `dest_addr`. -/
inductive Call
  | recvfrom (args : RecvfromArgs)
  | sendto (buf : List UInt8) (flags : Int32) (destAddr : Option (List UInt8))
  | connect (addr : List UInt8)
deriving DecidableEq, Repr

def Call.request (pid : UInt64) : Call → Request
  | .recvfrom args => ReceiveBound.request args pid
  | .sendto buf flags destAddr => { calling := .sendtoCall buf flags destAddr, pid := pid }
  | .connect addr => { calling := .connectCall addr, pid := pid }

/-- `channel_send` asserts that the packed request is no longer. -/
def Call.Fits : Call → Prop
  | .sendto buf _ _ => buf.length ≤ rpcMessageMaxSize
  | _ => True

inductive CallResult
  | returns (ret : Int32)
  /-- -1 is returned and `errno` set. -/
  | fails (errno : Int32)
  | assertFails
  /-- `channel_recv` reads the next response. -/
  | waits
deriving DecidableEq, Repr

/-- `INTERCEPTOR_RETURN__RET_AND_ERRNO`. -/
def returnRetAndErrno (ret : Int32) (errno : Option Int32) : CallResult :=
  if ret ≠ -1 then .returns ret
  else
    match errno with
    | none => .assertFails
    | some errno => .fails errno

/-- What a call makes of a response that `channel_recv` reads.  `sendto` takes its
values out of `resp->recvfromcall`, which begins with the same members. -/
def Call.result (call : Call) (resp : Response) : CallResult :=
  if resp.retCode = some .WAIT_NEXT then .waits
  else
    match call, resp.returning with
    | .recvfrom args, some (.recvfromCall ret errno _ addr) =>
        if args.srcAddr ∧ ret ≥ 0 ∧ addr = none then .assertFails
        else returnRetAndErrno ret errno
    | .sendto _ _ _, some (.sendtoCall ret errno) => returnRetAndErrno ret errno
    | .connect _, some (.connectCall ret errno) => returnRetAndErrno ret errno
    | _, _ => .assertFails

/-- The payload that the handler of `sendto` hands to `Ip::tx`. -/
def handed (d : Daemon) (ch : Nat) (buf : List UInt8) (addr : Option (List UInt8)) :
    Except Fault (List UInt8) := do
  let (ref, so) ← d.socket ch
  match so.type with
  | .UDP =>
      match addr with
      | some addr => do
          let dest ← destAddr addr
          let pcb ← d.udpPcb ref.index
          return (UdpPcb.sendto d.stack.udp.port pcb dest.sinAddr dest.sinPort buf).2.2.2.buf
      | none => do
          let pcb ← d.udpPcb ref.index
          return (UdpPcb.send d.stack.udp.port pcb buf).2.2.2.buf
  | .TCP =>
      let pcb ← d.tcpPcb ref.index
      return ((TcpPcb.send d.stack.tcp.port pcb buf).2.2.2.map TcpSegment.buf).getD []

/-- The first packet of a queue lies in a response, all of it and nothing else. -/
def CarriesPacket (so : Socket) (resp : Response) (ret : Int32) : Prop :=
  ∃ entry rest buf addr, so.recvQ = entry :: rest ∧ collect entry.2 = some buf ∧
    resp.returning = some (.recvfromCall ret none (some buf) addr) ∧ ret.toInt = buf.length

/-- The daemon did what a call asks for, to the extent of the value returned. -/
def Performed (d : Daemon) (ch : Nat) (resp : Response) (ret : Int32) : Call → Prop
  | .recvfrom _ => ∃ ref so, HasSocket d ch ref so ∧ CarriesPacket so resp ret
  | .sendto buf _ addr => ∃ sent, handed d ch buf addr = .ok sent ∧ ret.toInt = sent.length
  | .connect _ => ∃ ref so, HasSocket d ch ref so ∧ so.type = .UDP

/-- The errors of the daemon: an empty queue or a connection to come on a non-blocking
socket, a peer that a `send` lacks, and a peer that a `sendto` finds. -/
inductive Errs (d : Daemon) (ch : Nat) : Call → Int32 → Prop
  | again {ref : SocketRef} {so : Socket} (args : RecvfromArgs) : HasSocket d ch ref so →
      so.recvQ = [] → so.nonblocking = true → Errs d ch (.recvfrom args) EAGAIN
  | inProgress {ref : SocketRef} {so : Socket} (addr : List UInt8) : HasSocket d ch ref so →
      so.type = .TCP → so.nonblocking = true → Errs d ch (.connect addr) EINPROGRESS
  | notConnUdp {ref : SocketRef} {so : Socket} {pcb : Pcb} (buf : List UInt8) (flags : Int32) :
      HasSocket d ch ref so → so.type = .UDP → (d.udpSlot ref.index).pcb = some pcb →
      pcb.fport = 0 → Errs d ch (.sendto buf flags none) (.ofInt ENOTCONN)
  | isConn {ref : SocketRef} {so : Socket} {pcb : Pcb} (buf : List UInt8) (flags : Int32)
      (addr : List UInt8) : HasSocket d ch ref so → so.type = .UDP →
      (d.udpSlot ref.index).pcb = some pcb → pcb.fport ≠ 0 →
      Errs d ch (.sendto buf flags (some addr)) (.ofInt EISCONN)
  | notConnTcp {ref : SocketRef} {so : Socket} {pcb : TcpPcb} (buf : List UInt8) (flags : Int32)
      (addr : Option (List UInt8)) : HasSocket d ch ref so → so.type = .TCP →
      (d.tcpSlot ref.index).pcb = some pcb → pcb.fport = 0 →
      Errs d ch (.sendto buf flags addr) (.ofInt ENOTCONN)

/-- A result is what the daemon's outcome asks for. -/
structure Encodes (d : Daemon) (ch : Nat) (call : Call) (resp : Response) : Prop where
  performed : ∀ ret, call.result resp = .returns ret → 0 ≤ ret.toInt → Performed d ch resp ret call
  failed : ∀ errno, Errs d ch call errno → call.result resp = .fails errno

/-- No response of the daemon carries an `errno`, so no error is passed on. -/
theorem encodes_iff {d : Daemon} {ch : Nat} {call : Call} {resp : Response}
    (hperformed : ∀ ret, call.result resp = .returns ret → 0 ≤ ret.toInt →
      Performed d ch resp ret call)
    (hfails : ∀ errno, call.result resp ≠ .fails errno) :
    Encodes d ch call resp ↔ ∀ errno, ¬ Errs d ch call errno := by
  constructor
  · intro hencodes errno herrs
    exact hfails errno (hencodes.failed errno herrs)
  · intro hnone
    exact ⟨hperformed, fun errno herrs => absurd herrs (hnone errno)⟩

theorem returnRetAndErrno_none_ne (ret errno : Int32) :
    returnRetAndErrno ret none ≠ .fails errno := by
  unfold returnRetAndErrno
  split <;> exact nofun

theorem returnRetAndErrno_eq_returns {ret ret' : Int32} {errno : Option Int32}
    (h : returnRetAndErrno ret errno = .returns ret') : ret' = ret := by
  unfold returnRetAndErrno at h
  split at h
  · cases h
    rfl
  · split at h
    · cases h
    · cases h

theorem tcp_send_ret (port : UInt16) (pcb : TcpPcb) (buf : List UInt8) :
    (TcpPcb.send port pcb buf).2.2.1 =
      (((TcpPcb.send port pcb buf).2.2.2.map TcpSegment.buf).getD []).length ∧
    (((TcpPcb.send port pcb buf).2.2.2.map TcpSegment.buf).getD []).length ≤ buf.length := by
  unfold TcpPcb.send
  dsimp only
  split
  · exact ⟨rfl, Nat.le_refl _⟩
  · exact ⟨rfl, Nat.le_refl _⟩
  · exact ⟨rfl, Nat.zero_le _⟩

/-- The handler of `sendto` answers with the number of bytes that it handed on. -/
theorem sendtoCall_handed {d d' : Daemon} {ch : Nat} {buf : List UInt8}
    {addr : Option (List UInt8)} {resp : Response}
    (h : sendtoCall d ch buf addr = .ok (d', resp)) :
    ∃ sent, handed d ch buf addr = .ok sent ∧ sent.length ≤ buf.length ∧
      resp = retOk (.sendtoCall (.ofInt sent.length) none) := by
  obtain ⟨ref, so, hsocket, hexit⟩ := sendtoCall_exit h
  have hso := socket_eq_ok_iff.mpr hsocket
  cases hexit with
  | @udpSendto addr dest pcb sent htype hdest hpcb hsent =>
      refine ⟨buf, ?_, Nat.le_refl _, hsent ▸ rfl⟩
      simp only [handed, hso, bind_eq_ok_iff, Except.ok.injEq, exists_eq_left', htype]
      exact ⟨dest, hdest, pcb, hpcb, rfl⟩
  | @udpSend pcb sent htype hpcb hsent =>
      refine ⟨buf, ?_, Nat.le_refl _, hsent ▸ rfl⟩
      simp only [handed, hso, bind_eq_ok_iff, Except.ok.injEq, exists_eq_left', htype]
      exact ⟨pcb, hpcb, rfl⟩
  | @tcpSend addr pcb sent htype hpcb hsent =>
      obtain ⟨hret, hle⟩ := tcp_send_ret d.stack.tcp.port pcb buf
      refine ⟨_, ?_, hle, ?_⟩
      · simp only [handed, hso, bind_eq_ok_iff, Except.ok.injEq, exists_eq_left', htype]
        exact ⟨pcb, hpcb, rfl⟩
      · rw [← hret, hsent]

theorem recvfrom_result_ne_fails (args : RecvfromArgs) (ret : Int32)
    (buf addr : Option (List UInt8))
    (errno : Int32) :
    (Call.recvfrom args).result (retOk (.recvfromCall ret none buf addr)) ≠ .fails errno := by
  unfold Call.result
  rw [if_neg (by simp [retOk])]
  dsimp only [retOk]
  split
  · intro hfails
    cases hfails
  · exact returnRetAndErrno_none_ne ret errno

theorem recvfrom_result_eq_returns {args : RecvfromArgs} {ret ret' : Int32}
    {buf addr : Option (List UInt8)}
    (h : (Call.recvfrom args).result (retOk (.recvfromCall ret none buf addr)) = .returns ret') :
    ret' = ret := by
  unfold Call.result at h
  rw [if_neg (by simp [retOk])] at h
  dsimp only [retOk] at h
  split at h
  · cases h
  · exact returnRetAndErrno_eq_returns h

/-- The reply that a handler or a callback makes of a packet carries all of it. -/
theorem packetResponse_carries {so : Socket} {entry : Packet} {rest : List Packet}
    {requireAddr : Bool} {resp : Response} (hqueue : so.recvQ = entry :: rest)
    (h : packetResponse requireAddr entry = .ok resp) (hsendable : Sendable resp)
    {args : RecvfromArgs} {ret : Int32} (hret : (Call.recvfrom args).result resp = .returns ret) :
    CarriesPacket so resp ret := by
  obtain ⟨buf, hcollect, rfl⟩ := packetResponse_eq_ok_iff.mp h
  have hsize := hsendable.2
  rw [byteSize_recvfromReply] at hsize
  obtain rfl := recvfrom_result_eq_returns hret
  exact ⟨entry, rest, buf, _, hqueue, hcollect, rfl, toInt_ofInt_of_le
    (length_le_of_replyFits hsize)⟩

section Replies

variable {d d' : Daemon} {mem : Uninit} {ch : Nat} {resp : Response}

theorem onReadReady_sent {req : Request}
    (h : onReadReady d mem ch (.message req) false = .ok (d', some resp)) :
    handleRequest d mem ch req = .ok (d', resp) ∧ Sendable resp := by
  cases onReadReady_exit h with
  | written hcall hwrite =>
      obtain ⟨hsendable, rfl⟩ := write_eq_ok_iff.mp hwrite
      exact ⟨hcall, hsendable⟩

theorem result_waitNext (call : Call) (returning : Option Returning) :
    call.result { returning := returning, retCode := some .WAIT_NEXT } = .waits :=
  if_pos rfl

theorem encodes_waitNext {call : Call} {returning : Option Returning}
    (hnone : ∀ errno, ¬ Errs d ch call errno) :
    Encodes d ch call { returning := returning, retCode := some .WAIT_NEXT } := by
  refine (encodes_iff ?_ ?_).mpr hnone
  · intro ret hret
    cases (result_waitNext call returning).symm.trans hret
  · intro errno hfails
    cases (result_waitNext call returning).symm.trans hfails

theorem recvfrom_encodes_iff (args : RecvfromArgs)
    (h : recvfromCall d ch args.srcAddr = .ok (d', resp)) (hsendable : Sendable resp) :
    Encodes d ch (.recvfrom args) resp ↔ ∀ errno, ¬ Errs d ch (.recvfrom args) errno := by
  simp only [recvfromCall, bind_eq_ok_iff] at h
  obtain ⟨⟨ref, so⟩, hsocket, ⟨so', resp'⟩, hrecvfrom, hresult⟩ := h
  obtain rfl : resp' = resp := (Prod.mk.inj (Except.ok.inj hresult)).2
  rw [socket_eq_ok_iff] at hsocket
  cases recvfrom_exit hrecvfrom with
  | packet hqueue hresp =>
      apply encodes_iff
      · intro ret hret _
        exact ⟨ref, so, hsocket, packetResponse_carries hqueue hresp hsendable hret⟩
      · intro errno
        obtain ⟨buf, -, rfl⟩ := packetResponse_eq_ok_iff.mp hresp
        exact recvfrom_result_ne_fails args _ _ _ errno
  | again hqueue hnonblocking =>
      have herrs : Errs d ch (.recvfrom args) EAGAIN := .again args hsocket hqueue hnonblocking
      refine iff_of_false ?_ fun hnone => hnone EAGAIN herrs
      intro hencodes
      exact recvfrom_result_ne_fails args _ _ _ EAGAIN (hencodes.failed EAGAIN herrs)
  | waitNext _ hblocking =>
      have hnone : ∀ errno, ¬ Errs d ch (.recvfrom args) errno := by
        intro errno herrs
        cases herrs with
        | again _ hsocket' _ hnonblocking =>
            obtain ⟨-, rfl⟩ := hasSocket_unique hsocket hsocket'
            cases hblocking.symm.trans hnonblocking
      exact iff_of_true (encodes_waitNext hnone) hnone

theorem sendto_returns {buf : List UInt8} (flags : Int32) (addr : Option (List UInt8))
    (hfits : buf.length ≤ rpcMessageMaxSize) {sent : List UInt8} (hle : sent.length ≤ buf.length) :
    (Call.sendto buf flags addr).result (retOk (.sendtoCall (.ofInt sent.length) none)) =
      .returns (.ofInt sent.length) := by
  have hret := toInt_ofInt_of_le (hle.trans hfits)
  have hne : Int32.ofInt sent.length ≠ -1 := by
    intro herror
    rw [herror] at hret
    exact absurd hret (by change (-1 : Int) ≠ _; omega)
  unfold Call.result
  rw [if_neg (by simp [retOk])]
  exact if_pos hne

theorem sendto_encodes_iff {buf : List UInt8} (flags : Int32) {addr : Option (List UInt8)}
    (hfits : buf.length ≤ rpcMessageMaxSize) (h : sendtoCall d ch buf addr = .ok (d', resp)) :
    Encodes d ch (.sendto buf flags addr) resp ↔ ∀ errno, ¬ Errs d ch
      (.sendto buf flags addr) errno := by
  obtain ⟨sent, hsent, hle, rfl⟩ := sendtoCall_handed h
  have hreturns := sendto_returns flags addr hfits hle
  apply encodes_iff
  · intro ret hret _
    obtain rfl := CallResult.returns.inj (hreturns.symm.trans hret)
    exact ⟨sent, hsent, toInt_ofInt_of_le (hle.trans hfits)⟩
  · intro errno hfails
    cases hreturns.symm.trans hfails

theorem connect_encodes_iff {addr : List UInt8} (h : connectCall d ch addr = .ok (d', resp))
    (hsendable : Sendable resp) :
    Encodes d ch (.connect addr) resp ↔ ∀ errno, ¬ Errs d ch (.connect addr) errno := by
  obtain ⟨ref, so, hsocket, hexit⟩ := connectCall_exit h
  cases hexit with
  | udp => exact absurd hsendable not_sendable_none
  | inProgress htype hnonblocking =>
      have herrs :
          Errs d ch (.connect addr) EINPROGRESS := .inProgress addr hsocket htype hnonblocking
      refine iff_of_false ?_ fun hnone => hnone EINPROGRESS herrs
      intro hencodes
      cases hencodes.failed EINPROGRESS herrs
  | waitEstab _ _ _ _ _ hblocking =>
      have hnone : ∀ errno, ¬ Errs d ch (.connect addr) errno := by
        intro errno herrs
        cases herrs with
        | inProgress _ hsocket' _ hnonblocking =>
            obtain ⟨-, rfl⟩ := hasSocket_unique hsocket hsocket'
            cases hblocking.symm.trans hnonblocking
      exact iff_of_true (encodes_waitNext hnone) hnone

theorem reply_encodes_iff {pid : UInt64} {call : Call} (hfits : call.Fits)
    (h : onReadReady d mem ch (.message (call.request pid)) false = .ok (d', some resp)) :
    Encodes d ch call resp ↔ ∀ errno, ¬ Errs d ch call errno := by
  obtain ⟨hcall, hsendable⟩ := onReadReady_sent h
  cases call with
  | recvfrom args => exact recvfrom_encodes_iff args hcall hsendable
  | sendto buf flags addr => exact sendto_encodes_iff flags hfits hcall
  | connect addr => exact connect_encodes_iff hcall hsendable

end Replies

/-- The response that a `recvfrom` waits for carries a packet, whatever it is read as. -/
theorem awaited_carries {so so' : Socket} {resp : Response}
    (h : sChannelReadCb so = .ok (so', some resp)) (args : RecvfromArgs) :
    (∀ ret, (Call.recvfrom args).result resp = .returns ret → CarriesPacket so resp ret) ∧
      ∀ errno, (Call.recvfrom args).result resp ≠ .fails errno := by
  cases sChannelReadCb_effect h with
  | replied _ _ hqueue hresp hsendable =>
      constructor
      · intro ret hret
        exact packetResponse_carries hqueue hresp hsendable hret
      · intro errno
        obtain ⟨buf, -, rfl⟩ := packetResponse_eq_ok_iff.mp hresp
        exact recvfrom_result_ne_fails args _ _ _ errno

/-- The connection that the callback of a channel waits for is made. -/
def Established (d d' : Daemon) (ch : Nat) : Prop :=
  ∃ i pcb pcb', (d.tcpSlot i).pcb = some pcb ∧ pcb.connState = .SYN_SENT ∧
    pcb.onConnEstabCB = some ch ∧ (d'.tcpSlot i).pcb = some pcb' ∧ pcb'.connState = .ESTABLISHED

/-- A reply encodes its outcome exactly where the daemon comes upon no error, since
none is passed on; what a call waits for encodes its outcome always. -/
theorem results_encode_iff (d : Daemon) :
    (∀ mem ch pid call d' resp, Call.Fits call →
      onReadReady d mem ch (.message (call.request pid)) false = .ok (d', some resp) →
        (Encodes d ch call resp ↔ ∀ errno, ¬ Errs d ch call errno)) ∧
    (∀ ref so so' resp args, d.socketAt ref = some so → sChannelReadCb so = .ok (so', some resp) →
      (∀ ret, (Call.recvfrom args).result resp = .returns ret → CarriesPacket so resp ret) ∧
        ∀ errno, (Call.recvfrom args).result resp ≠ .fails errno) ∧
    (∀ uninit skbuf ch addr, ch ∈ estabs (rx d.stack uninit skbuf).2 →
      (Call.connect addr).result connEstabResponse = .returns 0 ∧
        Established d { d with stack := (rx d.stack uninit skbuf).1 } ch) := by
  refine ⟨?_, ?_, ?_⟩
  · intro mem ch pid call d' resp hfits h
    exact reply_encodes_iff hfits h
  · intro ref so so' resp args _ h
    exact awaited_carries h args
  · intro uninit skbuf ch addr hmem
    obtain ⟨-, i, pcb, pcb', -, hpcb, hsynSent, hcb, hpcb', hestablished⟩ :=
      (rx_effects d uninit skbuf).establishes ch hmem
    exact ⟨rfl, i, pcb, pcb', hpcb, hsynSent, hcb, hpcb', hestablished⟩

/-- The daemon with a UDP socket on its first channel. -/
def sampleUdp (nonblocking : Bool) : Daemon :=
  { sampleDaemon with
    rrChannels := [some { socket := some { type := .UDP, index := 0 } }]
    stack := { sampleDaemon.stack with
      udp :=
        { pcbs :=
            [{ pcb := some (.new 0x0100a8c0)
               socket := some { type := .UDP, nonblocking := nonblocking } }]
          port := 1024 } } }

/-- The daemon after the first SYN of a blocking `connect`. -/
def sampleConnecting : Daemon :=
  { sampleDaemon with
    rrChannels := [some { socket := some { type := .TCP, index := 0 } }]
    stack := { sampleDaemon.stack with
      tcp :=
        { pcbs :=
            [{ pcb := some
                 (TcpPcb.connect 1024 { TcpPcb.new 0x0100a8c0 0 0 0 0 with onConnEstabCB := some 0 }
                   0x0100000a 0x5000).2.1
               socket := some { type := .TCP, nonblocking := false } }]
          port := 1025 } } }

def sampleWaiting : Socket :=
  { type := .UDP
    nonblocking := false
    notifyPipe := 1
    waiting := true
    onAsyncNewPacket := some (.onAsyncNewUdpPacket 0 false)
    recvQ := [samplePacket] }

theorem results_encode_sample :
    (∃ d resp, onReadReady (sampleUdp false) sampleUninit 0
        (.message (Call.request 7 (.sendto [1, 2] 0 (some sampleAddr)))) false = .ok
          (d, some resp) ∧
      Encodes (sampleUdp false) 0 (.sendto [1, 2] 0 (some sampleAddr)) resp) ∧
    (∃ so resp, sChannelReadCb sampleWaiting = .ok (so, some resp) ∧
      CarriesPacket sampleWaiting resp 4) ∧
    Established sampleConnecting
      { sampleConnecting with stack := (rx sampleConnecting.stack .zero sampleSynAck).1 } 0 := by
  refine ⟨⟨_, _, rfl, ?_⟩, ⟨_, _, rfl, ?_⟩, ?_⟩
  · obtain ⟨hreply, -, -⟩ := results_encode_iff (sampleUdp false)
    refine (hreply sampleUninit 0 7 (.sendto [1, 2] 0 (some sampleAddr)) _ _
      (show [1, 2].length ≤ rpcMessageMaxSize by decide) rfl).mpr ?_
    intro errno herrs
    cases herrs with
    | isConn _ _ _ hsocket _ hpcb hport =>
        cases hsocket.1
        cases hpcb
        exact hport rfl
    | notConnTcp _ _ _ hsocket htype =>
        cases hsocket.1
        cases hsocket.2
        cases htype
  · obtain ⟨-, hawaited, -⟩ := results_encode_iff ((sampleUdp false).setSocketAt
      { type := .UDP, index := 0 } sampleWaiting)
    exact (hawaited { type := .UDP, index := 0 } sampleWaiting _ _
      { len := 16, flags := 0, srcAddr := false } rfl rfl).1 4 rfl
  · obtain ⟨-, -, hestablished⟩ := results_encode_iff sampleConnecting
    exact (hestablished .zero sampleSynAck 0 sampleAddr (by decide)).2

theorem sampleUdp_reachable : DaemonSurvival.machine.Reachable (.running (sampleUdp true)) :=
  sampleAccepted_reachable.step (a := sampleRead (.socketCall 2 0o4002 0)) trivial rfl

/-- The call returns the number of the error in place of -1. -/
theorem again_not_encoded :
    ¬ ∀ d mem ch pid call d' resp, DaemonSurvival.machine.Reachable (.running d) → Call.Fits call →
      onReadReady d mem ch (.message (call.request pid)) false = .ok (d', some resp) →
        Encodes d ch call resp := by
  intro hencodes
  have hreply := hencodes (sampleUdp true) sampleUninit 0 7
    (.recvfrom { len := 16, flags := 0, srcAddr := false }) _ _ sampleUdp_reachable trivial rfl
  have hfails := hreply.failed EAGAIN (.again _ ⟨rfl, rfl⟩ rfl rfl)
  exact absurd hfails (by decide)

end MuQuinet.ErrnoEncoding
