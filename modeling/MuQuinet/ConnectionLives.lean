import MuQuinet.SocketLives

namespace MuQuinet.ConnectionLives

open MuQuinet.Lib.Machines
open MuQuinet.Lib.Populations
open MuQuinet.Buffers
open MuQuinet.ConnectAnswers (sampleAddr)
open MuQuinet.DaemonSurvival
open MuQuinet.IpHeaders
open MuQuinet.Pcbs
open MuQuinet.RequestHandler
open MuQuinet.SocketLives
open MuQuinet.Sockets
open MuQuinet.TcpConnections (Connection ClientState pcbAfter)
open MuQuinet.TcpLayer
open MuQuinet.UdpEndpoints (local_bind)
open MuQuinet.Wire

/-- How far a connection of a client has come. -/
def stage : TcpState → Nat
  | .CLOSED => 0
  | .SYN_SENT => 1
  | _ => 2

/-- A connection goes on: no state comes back, its own address stays, so does its port once
it has one, and the peer's first sequence number once the peer has answered. -/
structure Advances (pcb pcb' : TcpPcb) : Prop where
  stage_le : stage pcb.connState ≤ stage pcb'.connState
  laddr_eq : pcb'.laddr = pcb.laddr
  lport_eq : pcb.lport ≠ 0 → pcb'.lport = pcb.lport
  irs_eq : pcb.connState = .ESTABLISHED → pcb'.irs = pcb.irs

section Advances

variable {pcb pcb' pcb'' : TcpPcb}

theorem Advances.refl (pcb : TcpPcb) : Advances pcb pcb :=
  ⟨Nat.le_refl _, rfl, fun _ => rfl, fun _ => rfl⟩

theorem Advances.trans (hclient : ClientState pcb') (h : Advances pcb pcb')
    (h' : Advances pcb' pcb'') : Advances pcb pcb'' := by
  refine ⟨h.stage_le.trans h'.stage_le, h'.laddr_eq.trans h.laddr_eq, ?_, ?_⟩
  · intro hport
    have hport' : pcb'.lport ≠ 0 := h.lport_eq hport ▸ hport
    exact (h'.lport_eq hport').trans (h.lport_eq hport)
  · intro hestab
    have hstage := h.stage_le
    rw [hestab] at hstage
    have hestab' : pcb'.connState = .ESTABLISHED := by
      rcases hclient.connState with hstate | hstate | hstate
      · rw [hstate] at hstage
        cases hstage
      · rw [hstate] at hstage
        exact absurd hstage (by decide)
      · exact hstate
    exact (h'.irs_eq hestab').trans (h.irs_eq hestab)

theorem advances_send (hclient : ClientState pcb) (port : UInt16) (buf : List UInt8) :
    Advances pcb (TcpPcb.send port pcb buf).2.1 := by
  obtain ⟨hladdr, hlport⟩ := local_bind port pcb.toPcb
  rcases hclient.connState with hstate | hstate | hstate
  all_goals
    simp only [TcpPcb.send, Pcb.send, hstate]
    refine ⟨?_, hladdr, hlport, ?_⟩
    · simp [hstate, stage]
    · intro _
      rfl

theorem advances_connect (hclient : ClientState pcb) (port : UInt16) (faddr : UInt32)
    (fport : UInt16) : Advances pcb (TcpPcb.connect port pcb faddr fport).2.1 := by
  obtain ⟨hladdr, hlport⟩ := local_bind port { pcb.toPcb with faddr := faddr, fport := fport }
  have hbound : Advances pcb { pcb with toPcb := (pcb.toPcb.connect port faddr fport).2 } :=
    ⟨Nat.le_refl _, hladdr, hlport, fun _ => rfl⟩
  have hclient' : ClientState { pcb with toPcb := (pcb.toPcb.connect port faddr fport).2 } :=
    ⟨hclient.connState, hclient.synSent⟩
  exact hbound.trans hclient' (advances_send hclient' _ [])

theorem advances_recvAck (pcb : TcpPcb) (hdr : TcpHeader) : Advances pcb (pcb.recvAck hdr) := by
  unfold TcpPcb.recvAck
  split
  · exact ⟨Nat.le_refl _, rfl, fun _ => rfl, fun _ => rfl⟩
  · exact .refl pcb

theorem advances_pcbAfter (pcb : TcpPcb) (skbuf : SocketBuffer) :
    Advances pcb (pcbAfter pcb skbuf) := by
  unfold pcbAfter
  split
  · rename_i hstate
    refine ⟨?_, rfl, fun _ => rfl, ?_⟩
    · simp [hstate, stage, TcpPcb.recvSynSent]
    · intro hestab
      rw [hstate] at hestab
      cases hestab
  · obtain ⟨hstage, hladdr, hlport, hirs⟩ := advances_recvAck pcb (tcphdr skbuf)
    split
    · exact ⟨hstage, hladdr, hlport, hirs⟩
    · exact ⟨hstage, hladdr, hlport, hirs⟩
  · exact .refl pcb

theorem advances_step {c c' : Connection} (hclient : ClientState c.pcb)
    {a : TcpConnections.Label} (hstep : c.step a = some c') : Advances c.pcb c'.pcb := by
  cases a with
  | connect port faddr fport =>
      cases hstep
      exact advances_connect hclient port faddr fport
  | setOnConnEstabCB rrChannel =>
      cases hstep
      exact ⟨Nat.le_refl _, rfl, fun _ => rfl, fun _ => rfl⟩
  | send port buf =>
      cases hstep
      exact advances_send hclient port buf
  | recv peerAddr skbuf next =>
      rw [TcpConnections.step_recv_eq_some hstep]
      exact advances_pcbAfter c.pcb skbuf
  | socket op =>
      rw [(TcpConnections.step_socket_eq_some hstep).1]
      exact .refl c.pcb

theorem advances_of_leads {c c' : Connection} (hclient : ClientState c.pcb)
    (h : TcpConnections.machine.Leads c c') : Advances c.pcb c'.pcb := by
  have hkept : ClientState c'.pcb ∧ Advances c.pcb c'.pcb := by
    refine h.invariant (I := fun e => ClientState e.pcb ∧ Advances c.pcb e.pcb) ?_
      ⟨hclient, .refl c.pcb⟩
    rintro e a e' ⟨he, hadvances⟩ hstep
    exact ⟨he.step hstep, hadvances.trans he (advances_step he hstep)⟩
  exact hkept.2

end Advances

/-- However the daemon goes on, a TCP socket is gone for good, or its connection has gone on. -/
theorem connections_advance {d d' : Daemon} (hreached : started.Reachable (.running d))
    (hrun : started.Leads (.running d) (.running d')) {i : Nat}
    (hi : i < d.stack.tcp.pcbs.length) :
    d'.tcpSlot i = .expired ∨ ∃ pcb pcb' so so',
      d.tcpSlot i = { pcb := some pcb, socket := some so } ∧
        d'.tcpSlot i = { pcb := some pcb', socket := some so' } ∧ Advances pcb pcb' := by
  obtain ⟨-, hpcbs⟩ := pcbsRun hreached hrun d' rfl
  rcases (hpcbs.tcp.later i hi).cases with hgone | ⟨c, c', hbefore, hafter, hleads⟩
  · exact .inl hgone
  · right
    have hlives := (pcbsLive hreached d rfl).tcp i
    rw [hbefore] at hlives
    have hclient := TcpConnections.clientState hlives.object
    exact ⟨c.pcb, c'.pcb, c.so, c'.so, hbefore, hafter, advances_of_leads hclient hleads⟩

/-- Another client, and a second `connect` of the first. -/
def sampleLater : List Label :=
  [.accept, sampleRead (.connectCall (sampleAddr.set 3 81))]

theorem connections_advance_sample :
    ∃ d', started.exec (.running sampleConnecting) sampleLater = some (.running d') ∧
      (d'.tcpSlot 0 = .expired ∨ ∃ pcb pcb' so so',
        sampleConnecting.tcpSlot 0 = { pcb := some pcb, socket := some so } ∧
          d'.tcpSlot 0 = { pcb := some pcb', socket := some so' } ∧ Advances pcb pcb') := by
  obtain ⟨d', hexec⟩ : ∃ d', started.exec (.running sampleConnecting) sampleLater =
      some (.running d') := ⟨_, rfl⟩
  refine ⟨d', hexec, connections_advance sampleConnecting_reachable ⟨sampleLater, hexec⟩ ?_⟩
  decide

end MuQuinet.ConnectionLives
