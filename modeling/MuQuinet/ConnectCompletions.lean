import MuQuinet.Callbacks
import MuQuinet.ConnectAnswers

namespace MuQuinet.ConnectCompletions

open MuQuinet.Lib.Machines
open MuQuinet.Lib.Outcomes
open MuQuinet.Lib.Populations.Population (getD_set_cases)
open MuQuinet.Buffers
open MuQuinet.Callbacks
open MuQuinet.ChannelSockets
open MuQuinet.ConnectAnswers
open MuQuinet.DaemonSurvival
open MuQuinet.HandlerAnswers
open MuQuinet.HandlerEffects
open MuQuinet.IpHeaders
open MuQuinet.IpLayer
open MuQuinet.PacketEffects
open MuQuinet.PeerlessSends
open MuQuinet.Pcbs
open MuQuinet.RequestHandler
open MuQuinet.Rpc
open MuQuinet.Sockets
open MuQuinet.TcpLayer
open MuQuinet.Wire

/-- The daemon, the channels whose clients were told to wait for their connection and have
had no answer since, and the segments that the `connect` calls have sent. -/
structure State where
  daemon : DaemonSurvival.State
  waiting : List Nat
  sent : List TcpSegment
deriving DecidableEq, Repr

def putOff (d : Daemon) : Label → Option Nat
  | .read mem ch (.message req) writeFails =>
      match req.calling, onReadReady d mem ch (.message req) writeFails with
      | .connectCall _, .ok (_, some resp) =>
          if resp.retCode = some .WAIT_NEXT then some ch else none
      | _, _ => none
  | _ => none

/-- The channels that a packet answers, and those that nobody reads any more. -/
def answered (d : Daemon) : Label → List Nat
  | .read _ ch .eof _ => [ch]
  | .hangUp ch => [ch]
  | .rx uninit skbuf => estabs (rx d.stack uninit skbuf).2
  | _ => []

def emitted (d : Daemon) : Label → List TcpSegment
  | .read _ ch (.message req) _ =>
      match req.calling, d.socket ch with
      | .connectCall addr, .ok (_, so) =>
          if so.type = .TCP then (emittedByConnect d ch addr).toOption.getD [] else []
      | _, _ => []
  | _ => []

def step (s : State) (a : Label) : Option State :=
  match s.daemon with
  | .failed _ => none
  | .running d =>
      (DaemonSurvival.next (.running d) a).map fun daemon =>
        { daemon := daemon
          waiting := s.waiting.filter (fun ch => ch ∉ answered d a) ++ (putOff d a).toList
          sent := s.sent ++ emitted d a }

def machine : Machine State Label where
  initial s := ∃ d, s.daemon = .running d ∧ d.rrChannels = [] ∧ s.waiting = []
  next := step

/-- A PCB answers on a channel when its SYN, which has been sent, is answered. -/
structure Awaits (ch : Nat) (sent : List TcpSegment) (pcb : TcpPcb) : Prop where
  state_eq : pcb.connState = .SYN_SENT
  armed : pcb.onConnEstabCB = some ch
  syn : ∃ segment ∈ sent, segment.hdr.syn = true ∧ segment.hdr.dest = pcb.fport ∧
    segment.ipovly.daddr = pcb.faddr

def Armed (d : Daemon) (sent : List TcpSegment) (ch : Nat) : Prop :=
  ∃ i pcb, d.socketOf ch = some { type := .TCP, index := i } ∧
    (d.tcpSlot i).pcb = some pcb ∧ Awaits ch sent pcb

/-- A request to connect a TCP socket finds it blocking and CLOSED, and a channel that waits
asks for no other socket. -/
def Connectable (d : Daemon) (waiting : List Nat) (ch : Nat) : Calling → Prop
  | .connectCall _ => ∀ ref so pcb, HasSocket d ch ref so → so.type = .TCP →
      (d.tcpSlot ref.index).pcb = some pcb → so.nonblocking = false ∧ pcb.connState = .CLOSED
  | .socketCall _ _ _ => ch ∉ waiting
  | _ => True

def ConnectsFromClosed (s : State) : Label → Prop
  | .read _ ch (.message req) _ =>
      ∀ d, s.daemon = .running d → Connectable d s.waiting ch req.calling
  | _ => True

section Packets

variable {ch : Nat} {pcb : TcpPcb}

/-- What a SYN_SENT connection receives makes it answer. -/
theorem recv_synSent (hsynSent : pcb.connState = .SYN_SENT) (hcb : pcb.onConnEstabCB = some ch)
    (slot : Slot TcpPcb) (peerAddr : SockaddrIn) (skbuf : SocketBuffer)
    (next : List SocketBuffer) : ch ∈ estabs (TcpPcb.recv slot pcb peerAddr skbuf next).2 := by
  have hevents : (TcpPcb.recv slot pcb peerAddr skbuf next).2 =
      (pcb.recvSynSent (tcphdr skbuf)).2 := by
    unfold TcpPcb.recv
    rw [hsynSent]
  rw [hevents, estabs_recvSynSent, hcb]
  exact List.mem_singleton_self ch

/-- A SYN_SENT connection waits on, or its client is answered. -/
theorem tcp_rx_synSent {tcp : Tcp} {i : Nat} (hpcb : (tcp.pcbs.getD i .expired).pcb = some pcb)
    (hsynSent : pcb.connState = .SYN_SENT) (hcb : pcb.onConnEstabCB = some ch)
    (uninit : SockaddrIn) (skbuf : SocketBuffer) (next : List SocketBuffer) :
    ((tcp.rx uninit skbuf next).1.pcbs.getD i .expired).pcb = some pcb ∨
      ch ∈ estabs (tcp.rx uninit skbuf next).2 := by
  unfold Tcp.rx
  dsimp only
  split
  · exact .inl hpcb
  · rename_i j _
    split
    · exact .inl hpcb
    · rename_i pcb' hpcb'
      rcases getD_set_cases tcp.pcbs j i
        (TcpPcb.recv (tcp.pcbs.getD j .expired) pcb' uninit skbuf next).1 .expired with
        heq | ⟨rfl, -⟩
      · left
        rw [heq]
        exact hpcb
      · right
        obtain rfl := Option.some.inj (hpcb'.symm.trans hpcb)
        exact recv_synSent hsynSent hcb _ uninit skbuf next

theorem demultiplex_synSent {stack : Stack} {i : Nat}
    (hpcb : (stack.tcp.pcbs.getD i .expired).pcb = some pcb)
    (hsynSent : pcb.connState = .SYN_SENT) (hcb : pcb.onConnEstabCB = some ch)
    (uninit : SockaddrIn) (hdr : IpHeader) (skbuf : SocketBuffer) (next : List SocketBuffer) :
    ((demultiplex stack uninit hdr skbuf next).1.tcp.pcbs.getD i .expired).pcb = some pcb ∨
      ch ∈ estabs (demultiplex stack uninit hdr skbuf next).2 := by
  unfold demultiplex
  dsimp only
  split
  · exact .inl hpcb
  · exact tcp_rx_synSent hpcb hsynSent hcb uninit (locateTransport hdr.ihl skbuf) next
  · exact .inl hpcb

theorem rx_synSent {stack : Stack} {i : Nat}
    (hpcb : (stack.tcp.pcbs.getD i .expired).pcb = some pcb)
    (hsynSent : pcb.connState = .SYN_SENT) (hcb : pcb.onConnEstabCB = some ch)
    (uninit : SockaddrIn) (skbuf : SocketBuffer) :
    ((rx stack uninit skbuf).1.tcp.pcbs.getD i .expired).pcb = some pcb ∨
      ch ∈ estabs (rx stack uninit skbuf).2 := by
  unfold rx
  dsimp only
  split
  · exact .inl hpcb
  · split
    · exact .inl hpcb
    · split
      · split
        · exact .inl hpcb
        · exact .inl hpcb
        · refine demultiplex_synSent ?_ hsynSent hcb uninit _ _ _
          exact hpcb
      · exact demultiplex_synSent hpcb hsynSent hcb uninit _ skbuf []

end Packets

section Steps

variable {d d' : Daemon} {sent : List TcpSegment} {waiting : List Nat} {ch : Nat}

theorem Armed.mono {more : List TcpSegment} (h : Armed d sent ch) (hsent : sent ⊆ more) :
    Armed d more ch := by
  obtain ⟨i, pcb, howner, hpcb, hstate, hcb, segment, hmem, hsyn⟩ := h
  exact ⟨i, pcb, howner, hpcb, hstate, hcb, segment, hsent hmem, hsyn⟩

theorem Armed.of_pcb_eq (h : Armed d sent ch) (hsocketOf : d'.socketOf ch = d.socketOf ch)
    (hpcbs : ∀ i, (d'.tcpSlot i).pcb = (d.tcpSlot i).pcb) : Armed d' sent ch := by
  obtain ⟨i, pcb, howner, hpcb, hawaits⟩ := h
  exact ⟨i, pcb, hsocketOf.trans howner, (hpcbs i).trans hpcb, hawaits⟩

theorem Awaits.send {pcb : TcpPcb} (h : Awaits ch sent pcb) (port : UInt16) (buf : List UInt8) :
    Awaits ch sent (TcpPcb.send port pcb buf).2.1 := by
  obtain ⟨hstate, hcb, segment, hmem, hsyn, hdest, hdaddr⟩ := h
  have hpeer := peer_bind port pcb.toPcb
  have htoPcb := (TcpIntegrity.send_toPcb port pcb buf).2
  refine ⟨?_, (send_onConnEstabCB port pcb buf).trans hcb, segment, hmem, hsyn, ?_, ?_⟩
  · rw [send_connState, hstate]
    rfl
  · rw [htoPcb]
    exact hdest.trans hpeer.2.symm
  · rw [htoPcb]
    exact hdaddr.trans hpeer.1.symm

/-- No request takes away what a client waits for. -/
theorem armed_handleRequest {mem : Uninit} {c : Nat} {req : Request} {resp : Response}
    (hconn : Connected d) (hcall : handleRequest d mem c req = .ok (d', resp))
    (hguard : Connectable d waiting c req.calling) (hwaits : ch ∈ waiting)
    (h : Armed d sent ch) : Armed d' sent ch := by
  obtain ⟨i, pcb, howner, hpcb, hawaits⟩ := h
  have heffects := handleRequest_effects hconn hcall
  have hpcb' : ∃ pcb', (d'.tcpSlot i).pcb = some pcb' ∧ Awaits ch sent pcb' := by
    have hslot := heffects.tcp i
    generalize hbefore : d.tcpSlot i = slot at hslot
    generalize hafter : d'.tcpSlot i = slot' at hslot
    rw [hbefore] at hpcb
    cases hslot with
    | unchanged => exact ⟨pcb, hpcb, hawaits⟩
    | received => exact ⟨pcb, hpcb, hawaits⟩
    | created => cases hpcb
    | released _ hchannel =>
        obtain rfl := hconn.unshared c ch _ hchannel howner
        have hasks : ¬ IsSocketCall req.calling := by
          rintro ⟨domain, type, protocol, hcalling⟩
          rw [hcalling] at hguard
          exact hguard hwaits
        obtain ⟨_, _, hlive, -⟩ :=
          (handleRequest_keeps hasks hcall).alive _ (hconn.alive c _ howner)
        cases hafter.symm.trans hlive
    | called socket hchannel hcalled =>
        cases hpcb
        generalize hcalling : req.calling = calling at hcalled hguard
        cases hcalled with
        | send _ buf flags addr port => exact ⟨_, rfl, hawaits.send port buf⟩
        | connect _ addr port faddr fport =>
            -- The PCB would have been CLOSED.
            obtain rfl := hconn.unshared c ch _ hchannel howner
            obtain ⟨_, so, hlive, htype⟩ := hconn.alive c _ howner
            have hso : HasSocket d c { type := .TCP, index := i } so :=
              ⟨howner, congrArg Slot.socket hlive⟩
            have hclosed := (hguard _ so pcb hso htype (congrArg Slot.pcb hbefore)).2
            cases hawaits.state_eq.symm.trans hclosed
  obtain ⟨pcb', hpcb', hawaits'⟩ := hpcb'
  refine ⟨i, pcb', socketOf_of_effects heffects howner ?_, hpcb', hawaits'⟩
  intro hexpired
  cases (congrArg Slot.pcb hexpired).symm.trans hpcb'

theorem armed_removeRRChannel {c : Nat} (hconn : Connected d) (hne : ch ≠ c)
    (h : Armed d sent ch) : Armed (d.removeRRChannel c) sent ch := by
  obtain ⟨i, pcb, howner, hpcb, hawaits⟩ := h
  have heffects := removeRRChannel_effects d c .notSet (retOk (.closeCall 0 none))
  refine ⟨i, pcb, (heffects.socketOf_of_ne ch hne).trans howner, ?_, hawaits⟩
  rcases tcpSlot_release d (d.socketOf c) i with heq | ⟨hchannel, -⟩
  · exact (congrArg Slot.pcb heq).trans hpcb
  · exact absurd (hconn.unshared ch c _ howner hchannel) hne

theorem armed_onReadReady {mem : Uninit} {c : Nat} {result : ReadResult} {writeFails : Bool}
    {resp : Option Response} (hconn : Connected d)
    (hread : onReadReady d mem c result writeFails = .ok (d', resp))
    (hguard : ∀ req, result = .message req → Connectable d waiting c req.calling)
    (hstays : result = .eof → ch ≠ c) (hwaits : ch ∈ waiting) (h : Armed d sent ch) :
    Armed d' sent ch := by
  cases onReadReady_exit hread with
  | again => exact h
  | eof => exact armed_removeRRChannel hconn (hstays rfl) h
  | written hcall => exact armed_handleRequest hconn hcall (hguard _ rfl) hwaits h
  | @unwritten req handled _ _ hcall =>
      have harmed := armed_handleRequest hconn hcall (hguard req rfl) hwaits h
      have hkeeps : Keeps handled (handled.setRRChannel c
          ((handled.rrChannel c).map fun rr => { rr with registered := false })) :=
        keeps_setRRChannel fun _ => rfl
      exact harmed.of_pcb_eq (hkeeps.socketOf ch) fun _ => rfl

/-- What a client waits for stays there until the client is answered or gone. -/
theorem armed_next {s : State} {a : Label} (hconn : Connected d) (hrunning : s.daemon = .running d)
    (hguard : ConnectsFromClosed s a)
    (hnext : DaemonSurvival.next (.running d) a = some (.running d')) (hwaits : ch ∈ s.waiting)
    (hanswered : ch ∉ answered d a) (h : Armed d sent ch) : Armed d' sent ch := by
  cases next_exit hnext with
  | accept => exact h.of_pcb_eq (socketOf_accept d ch) fun _ => rfl
  | read _ hread =>
      refine armed_onReadReady hconn hread ?_ ?_ hwaits h
      · rintro req rfl
        exact hguard d hrunning
      · rintro rfl
        exact List.ne_of_not_mem_cons hanswered
  | hangUp => exact armed_removeRRChannel hconn (List.ne_of_not_mem_cons hanswered) h
  | rx uninit skbuf =>
      obtain ⟨i, pcb, howner, hpcb, hawaits⟩ := h
      rcases rx_synSent hpcb hawaits.state_eq hawaits.armed uninit skbuf with hkept | hestab
      · exact ⟨i, pcb, howner, hkept, hawaits⟩
      · exact absurd hestab hanswered
  | notified => exact h.of_pcb_eq (socketOf_setSocketAt d _ _ ch) (pcb_setSocketAt d _ _)

/-- A client is told to wait only after its SYN has been sent. -/
theorem armed_connectCall {addr : List UInt8} {resp : Response} (hconn : Connected d)
    (hcall : connectCall d ch addr = .ok (d', resp)) (hwaitNext : resp.retCode = some .WAIT_NEXT)
    (hguard : Connectable d waiting ch (.connectCall addr)) :
    ∃ ref so segments, HasSocket d ch ref so ∧ so.type = .TCP ∧
      emittedByConnect d ch addr = .ok segments ∧ Armed d' segments ch := by
  obtain ⟨⟨_, i⟩, so, hso, hexit⟩ := connectCall_exit hcall
  have hwaits : so.type = .TCP ∧ so.nonblocking = false := by
    cases hexit with
    | udp => cases hwaitNext
    | inProgress => cases hwaitNext
    | waitEstab _ _ _ _ htype hblocking => exact ⟨htype, hblocking⟩
  obtain ⟨rfl, pcb, hslot⟩ := hconn.tcp hso hwaits.1
  have hpcb := congrArg Slot.pcb hslot
  have hclosed := (hguard _ so pcb hso hwaits.1 hpcb).2
  obtain ⟨dest, hdest, -⟩ := bind_eq_ok_iff.mp hcall
  obtain ⟨hconnect, hemitted⟩ := connect_blocking_eq hso hwaits.1 hdest hwaits.2 hpcb
  have hstarted : Started ch dest _ _ := connect_closed hclosed d.stack.tcp.port
  obtain ⟨⟨segment, hmem, hsyn, hport, haddr⟩, hstate, hfaddr, hfport, harmed⟩ := hstarted
  cases hconnect.symm.trans hcall
  refine ⟨_, so, _, hso, hwaits.1, hemitted, i, _, hso.1, ?_, hstate, harmed, segment, hmem,
    hsyn, hport.trans hfport.symm, haddr.trans hfaddr.symm⟩
  rw [tcpSlot_tcpCalled hpcb]

theorem armed_of_putOff {s : State} {a : Label} (hconn : Connected d)
    (hrunning : s.daemon = .running d) (hguard : ConnectsFromClosed s a)
    (hnext : DaemonSurvival.next (.running d) a = some (.running d'))
    (hputOff : putOff d a = some ch) : Armed d' (emitted d a) ch := by
  unfold putOff at hputOff
  split at hputOff
  · rename_i mem c req writeFails
    split at hputOff
    · rename_i addr d'' resp hcalling hread
      split at hputOff
      · rename_i hwaitNext
        obtain rfl := Option.some.inj hputOff
        cases next_exit hnext with
        | read _ hread' =>
            cases hread.symm.trans hread'
            cases onReadReady_exit hread with
            | written hcall hwrite =>
                obtain ⟨-, rfl⟩ := write_eq_ok_iff.mp hwrite
                have hconnectable := hguard d hrunning
                unfold handleRequest at hcall
                rw [hcalling] at hcall hconnectable
                obtain ⟨ref, so, segments, hso, htype, hemitted, harmed⟩ :=
                  armed_connectCall hconn hcall hwaitNext hconnectable
                have hsegments : emitted d (.read mem c (.message req) false) = segments := by
                  simp only [emitted, hcalling, socket_eq_ok_iff.mpr hso, htype, hemitted,
                    if_true]
                  rfl
                rw [hsegments]
                exact harmed
      · cases hputOff
    · cases hputOff
  · cases hputOff

end Steps

/-- Every client that waits can be answered. -/
def Answerable (s : State) : Prop :=
  ∀ d, s.daemon = .running d → Connected d ∧ ∀ ch ∈ s.waiting, Armed d s.sent ch

theorem answerable_step {s t : State} {a : Label} (hs : Answerable s)
    (hguard : ConnectsFromClosed s a) (hstep : step s a = some t) : Answerable t := by
  unfold step at hstep
  split at hstep
  · cases hstep
  · rename_i d hrunning
    obtain ⟨hconn, harmed⟩ := hs d hrunning
    obtain ⟨daemon, hnext, rfl⟩ := Option.map_eq_some_iff.mp hstep
    rintro d' rfl
    refine ⟨connected_step hconn hnext d' rfl, ?_⟩
    intro ch hmem
    rcases List.mem_append.mp hmem with hstill | hnew
    · obtain ⟨hwaits, hanswered⟩ := List.mem_filter.mp hstill
      have hkept := armed_next hconn hrunning hguard hnext hwaits
        (of_decide_eq_true hanswered) (harmed ch hwaits)
      exact hkept.mono (List.subset_append_left _ _)
    · have hstarted := armed_of_putOff hconn hrunning hguard hnext (Option.mem_toList.mp hnew)
      exact hstarted.mono (List.subset_append_right _ _)

theorem answerable {s : State} (h : machine.ReachableUnder ConnectsFromClosed s) :
    Answerable s := by
  refine h.invariant ?_ fun _ _ _ => answerable_step
  rintro s ⟨d, hrunning, hempty, hnone⟩ d' hrunning'
  obtain rfl := State.running.inj (hrunning.symm.trans hrunning')
  refine ⟨connected (.initial ⟨d, rfl, hempty⟩) d rfl, ?_⟩
  intro ch hmem
  rw [hnone] at hmem
  cases hmem

/-- A `connect` of a TCP socket starts a connection or refuses it exactly when the socket is
blocking and CLOSED.  In the runs that connect no other socket, every client that waits
for its connection waits for the answer to a SYN that was sent. -/
theorem starts_or_refuses (s : State) :
    (∀ d ch ref so addr dest pcb, HasSocket d ch ref so → so.type = .TCP →
      (d.tcpSlot ref.index).pcb = some pcb → destAddr addr = .ok dest →
      (StartsOrRefuses d ch ref addr dest pcb ↔
        so.nonblocking = false ∧ pcb.connState = .CLOSED)) ∧
    (machine.ReachableUnder ConnectsFromClosed s → ∀ d, s.daemon = .running d →
      ∀ ch ∈ s.waiting, Armed d s.sent ch) := by
  constructor
  · intro d ch ref so addr dest pcb hso htype hpcb hdest
    exact starts_or_refuses_iff hso htype hpcb hdest
  · intro h d hrunning
    exact (answerable h d hrunning).2

/-- A client that waits for the connection of `sampleTcp` to port 80 of 10.0.0.1. -/
def sampleWaiting : State :=
  { daemon := .running (tcpCalled sampleTcp 0 1025 sampleSynSent)
    waiting := [0]
    sent := ((emittedByConnect sampleTcp 0 sampleAddr).toOption).getD [] }

theorem sampleWaiting_reachable : machine.ReachableUnder ConnectsFromClosed sampleWaiting := by
  have hstarted : machine.ReachableUnder ConnectsFromClosed
      { daemon := .running sampleDaemon, waiting := [], sent := [] } :=
    .initial ⟨_, rfl, rfl, rfl⟩
  have haccepted := hstarted.step (a := Label.accept) trivial rfl
  have hsocket := haccepted.step (a := sampleRead (.socketCall 2 1 0))
    (fun _ _ => List.not_mem_nil) rfl
  refine hsocket.step (a := sampleRead (.connectCall sampleAddr)) ?_ rfl
  rintro d ⟨⟩ ref so pcb ⟨⟨⟩, ⟨⟩⟩ - ⟨⟩
  exact ⟨rfl, rfl⟩

theorem sample_starts_or_refuses :
    (StartsOrRefuses sampleTcp 0 { type := .TCP, index := 0 } sampleAddr sampleDest
        (.new 0x0100a8c0 0 0 0 0) ↔
      ({ type := .TCP, nonblocking := false } : Socket).nonblocking = false ∧
        (TcpPcb.new 0x0100a8c0 0 0 0 0).connState = .CLOSED) ∧
      Armed (tcpCalled sampleTcp 0 1025 sampleSynSent) sampleWaiting.sent 0 := by
  obtain ⟨hstarts, hanswerable⟩ := starts_or_refuses sampleWaiting
  constructor
  · exact hstarts sampleTcp 0 _ _ sampleAddr sampleDest _ sampleTcp_hasSocket rfl rfl rfl
  · exact hanswerable sampleWaiting_reachable _ rfl 0 (List.mem_singleton_self 0)

end MuQuinet.ConnectCompletions
