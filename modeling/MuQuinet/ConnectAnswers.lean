import MuQuinet.PeerlessSends
import MuQuinet.TcpIntegrity

namespace MuQuinet.ConnectAnswers

open MuQuinet.ChannelSockets
open MuQuinet.DaemonSurvival
open MuQuinet.ErrnoEncoding
open MuQuinet.PeerlessSends
open MuQuinet.Pcbs
open MuQuinet.RequestHandler
open MuQuinet.Rpc
open MuQuinet.Sockets
open MuQuinet.TcpLayer
open MuQuinet.Wire

/-- What the handler of `connect` on a TCP socket hands to `Ip::tx`. -/
def emittedByConnect (d : Daemon) (ch : Nat) (addr : List UInt8) :
    Except Fault (List TcpSegment) := do
  let dest ← destAddr addr
  let (ref, so) ← d.socket ch
  if so.nonblocking then return []
  else
    let pcb ← d.tcpPcb ref.index
    return ({ pcb with onConnEstabCB := some ch }.connect d.stack.tcp.port dest.sinAddr
      dest.sinPort).2.2.toList

/-- The answers that put the client off. -/
def AnswersLater (resp : Response) : Prop :=
  resp.retCode = some .WAIT_NEXT ∨ resp = retOk (.recvfromCall EINPROGRESS none none none)

/-- A connection has been started: the SYN is out, and its answer wakes the channel. -/
structure Started (ch : Nat) (dest : SockaddrIn) (pcb' : TcpPcb) (sent : List TcpSegment) :
    Prop where
  syn : ∃ segment ∈ sent, segment.hdr.syn = true ∧ segment.hdr.dest = dest.sinPort ∧
    segment.ipovly.daddr = dest.sinAddr
  state_eq : pcb'.connState = .SYN_SENT
  faddr_eq : pcb'.faddr = dest.sinAddr
  fport_eq : pcb'.fport = dest.sinPort
  armed : pcb'.onConnEstabCB = some ch

/-- A connection has been refused: the PCB and the network know nothing of it. -/
structure Refused (addr : List UInt8) (resp : Response) (pcb pcb' : TcpPcb)
    (sent : List TcpSegment) : Prop where
  pcb_eq : pcb'.toPcb = pcb.toPcb
  state_eq : pcb'.connState = pcb.connState
  sendUnack_eq : pcb'.sendUnack = pcb.sendUnack
  sendNext_eq : pcb'.sendNext = pcb.sendNext
  irs_eq : pcb'.irs = pcb.irs
  recvNext_eq : pcb'.recvNext = pcb.recvNext
  silent : sent = []
  final : ∃ errno, (Call.connect addr).result resp = .fails errno

/-- The request is answered, and it started a connection if it is answered later and
refused one otherwise. -/
def StartsOrRefuses (d : Daemon) (ch : Nat) (ref : SocketRef) (addr : List UInt8)
    (dest : SockaddrIn) (pcb : TcpPcb) : Prop :=
  ∃ d' resp pcb' sent, connectCall d ch addr = .ok (d', resp) ∧
    emittedByConnect d ch addr = .ok sent ∧ (d'.tcpSlot ref.index).pcb = some pcb' ∧
    (AnswersLater resp → Started ch dest pcb' sent) ∧
    (¬ AnswersLater resp → Refused addr resp pcb pcb' sent)

section Connects

variable {d : Daemon} {ch : Nat} {ref : SocketRef} {so : Socket} {addr : List UInt8}
  {dest : SockaddrIn} {pcb : TcpPcb}

theorem connect_nonblocking_eq (hso : HasSocket d ch ref so) (htype : so.type = .TCP)
    (hdest : destAddr addr = .ok dest) (hnonblocking : so.nonblocking = true) :
    connectCall d ch addr = .ok (d, retOk (.recvfromCall EINPROGRESS none none none)) ∧
      emittedByConnect d ch addr = .ok [] := by
  have hsocket := socket_eq_ok_iff.mpr hso
  constructor
  · simp only [connectCall, hdest, hsocket, htype, hnonblocking, bind, Except.bind, pure,
      Except.pure, if_true]
  · simp only [emittedByConnect, hdest, hsocket, hnonblocking, bind, Except.bind, pure,
      Except.pure, if_true]

theorem connect_blocking_eq (hso : HasSocket d ch ref so) (htype : so.type = .TCP)
    (hdest : destAddr addr = .ok dest) (hblocking : so.nonblocking = false)
    (hpcb : (d.tcpSlot ref.index).pcb = some pcb) :
    let called := { pcb with onConnEstabCB := some ch }.connect d.stack.tcp.port dest.sinAddr
      dest.sinPort
    connectCall d ch addr =
        .ok (tcpCalled d ref.index called.1 called.2.1,
          { returning := none, retCode := some .WAIT_NEXT }) ∧
      emittedByConnect d ch addr = .ok called.2.2.toList := by
  have hsocket := socket_eq_ok_iff.mpr hso
  have htcp := tcpPcb_of_pcb hpcb
  constructor
  · simp only [connectCall, hdest, hsocket, htype, hblocking, htcp, bind, Except.bind, pure,
      Except.pure, Bool.false_eq_true, if_false]
    rfl
  · simp only [emittedByConnect, hdest, hsocket, hblocking, htcp, bind, Except.bind, pure,
      Except.pure, Bool.false_eq_true, if_false]

/-- From CLOSED a connection starts. -/
theorem connect_closed (hclosed : pcb.connState = .CLOSED) (port : UInt16) :
    let called := { pcb with onConnEstabCB := some ch }.connect port dest.sinAddr dest.sinPort
    Started ch dest called.2.1 called.2.2.toList := by
  intro called
  let base := pcb.toPcb.connect port dest.sinAddr dest.sinPort
  let connected : TcpPcb := { pcb with onConnEstabCB := some ch, toPcb := base.2 }
  have hbase : base.2.faddr = dest.sinAddr ∧ base.2.fport = dest.sinPort :=
    peer_bind port { pcb.toPcb with faddr := dest.sinAddr, fport := dest.sinPort }
  have hafter : (Pcb.bind base.1 base.2).2.faddr = base.2.faddr ∧
      (Pcb.bind base.1 base.2).2.fport = base.2.fport := peer_bind base.1 base.2
  have hpcb : called.2.1 = (TcpPcb.send base.1 connected []).2.1 := rfl
  have hopening : connected.connState = .CLOSED := hclosed
  obtain ⟨segment, hsent, hsyn, hdest, hdaddr, hstate⟩ := send_closed hopening base.1 []
  have hsegment : called.2.2 = some segment := congrArg Prod.snd hsent
  obtain ⟨-, htoPcb⟩ := TcpIntegrity.send_toPcb base.1 connected []
  constructor
  · refine ⟨segment, ?_, hsyn, hdest.trans hbase.2, hdaddr.trans hbase.1⟩
    rw [hsegment]
    exact List.mem_singleton_self segment
  · exact hstate
  · rw [hpcb, htoPcb]
    exact hafter.1.trans hbase.1
  · rw [hpcb, htoPcb]
    exact hafter.2.trans hbase.2
  · rw [hpcb]
    simp only [TcpPcb.send, connected, hclosed]

/-- From every other state no SYN is sent. -/
theorem send_not_closed (hopen : pcb.connState ≠ .CLOSED) (port : UInt16) (buf : List UInt8) :
    ∀ segment ∈ (TcpPcb.send port pcb buf).2.2.2, segment.hdr.syn = false := by
  intro segment hsegment
  unfold TcpPcb.send at hsegment
  dsimp only at hsegment
  split at hsegment
  · contradiction
  · cases hsegment
    rfl
  · cases hsegment

/-- A blocking `connect` from CLOSED starts a connection.  Every other call is put off
although nothing was started. -/
theorem starts_or_refuses_iff (hso : HasSocket d ch ref so) (htype : so.type = .TCP)
    (hpcb : (d.tcpSlot ref.index).pcb = some pcb) (hdest : destAddr addr = .ok dest) :
    StartsOrRefuses d ch ref addr dest pcb ↔
      so.nonblocking = false ∧ pcb.connState = .CLOSED := by
  constructor
  · rintro ⟨d', resp, pcb', sent, hanswer, hemitted, hpcb', hstarted, -⟩
    cases hmode : so.nonblocking with
    | true =>
        obtain ⟨hconnect, hsent⟩ := connect_nonblocking_eq hso htype hdest hmode
        cases hconnect.symm.trans hanswer
        cases hsent.symm.trans hemitted
        obtain ⟨segment, hsegment, -⟩ := (hstarted (.inr rfl)).syn
        cases hsegment
    | false =>
        refine ⟨rfl, ?_⟩
        obtain ⟨hconnect, hsent⟩ := connect_blocking_eq hso htype hdest hmode hpcb
        cases hconnect.symm.trans hanswer
        cases hsent.symm.trans hemitted
        obtain ⟨segment, hsegment, hsyn, -⟩ := (hstarted (.inl rfl)).syn
        by_contra hopen
        let base := pcb.toPcb.connect d.stack.tcp.port dest.sinAddr dest.sinPort
        let connected : TcpPcb := { pcb with onConnEstabCB := some ch, toPcb := base.2 }
        have hconnected : connected.connState ≠ .CLOSED := hopen
        have hno := send_not_closed hconnected base.1 [] segment (Option.mem_toList.mp hsegment)
        rw [hsyn] at hno
        cases hno
  · rintro ⟨hblocking, hclosed⟩
    obtain ⟨hconnect, hsent⟩ := connect_blocking_eq hso htype hdest hblocking hpcb
    refine ⟨_, _, _, _, hconnect, hsent, ?_, fun _ => connect_closed hclosed _, ?_⟩
    · rw [tcpSlot_tcpCalled hpcb]
    · intro hfinal
      exact absurd (.inl rfl) hfinal

end Connects

def sampleAddr : List UInt8 := [2, 0, 0, 80, 10, 0, 0, 1, 0, 0, 0, 0, 0, 0, 0, 0]

def sampleDest : SockaddrIn :=
  { sinFamily := 2, sinPort := 0x5000, sinAddr := 0x0100000a, sinZero := 0 }

/-- The PCB of `sampleTcp` after the first SYN of a blocking `connect`. -/
def sampleSynSent : TcpPcb :=
  (TcpPcb.connect 1024 { TcpPcb.new 0x0100a8c0 0 0 0 0 with onConnEstabCB := some 0 }
    0x0100000a 0x5000).2.1

/-- A second `connect`, to port 81, waits for the answer to a SYN that was never sent. -/
theorem second_connect_waits :
    ∃ d, DaemonSurvival.machine.Reachable (.running d) ∧
      (d.tcpSlot 0).pcb = some sampleSynSent ∧
      (∃ d' pcb', connectCall d 0 (sampleAddr.set 3 81) =
          .ok (d', { returning := none, retCode := some .WAIT_NEXT }) ∧
        emittedByConnect d 0 (sampleAddr.set 3 81) = .ok [] ∧
        (d'.tcpSlot 0).pcb = some pcb' ∧ pcb'.fport = 0x5100 ∧ pcb'.connState = .SYN_SENT) ∧
      ¬ StartsOrRefuses d 0 { type := .TCP, index := 0 } (sampleAddr.set 3 81)
        { sampleDest with sinPort := 0x5100 } sampleSynSent := by
  have hreached : DaemonSurvival.machine.Reachable (.running
      (tcpCalled sampleTcp 0 1025 sampleSynSent)) :=
    sampleTcp_reachable.step (a := sampleRead (.connectCall sampleAddr)) trivial rfl
  refine ⟨_, hreached, rfl, ⟨_, _, rfl, rfl, rfl, rfl, rfl⟩, ?_⟩
  rintro ⟨d', resp, pcb', sent, hanswer, hemitted, -, hstarted, -⟩
  cases hanswer
  cases hemitted
  obtain ⟨segment, hsegment, -⟩ := (hstarted (.inl rfl)).syn
  cases hsegment

end MuQuinet.ConnectAnswers
