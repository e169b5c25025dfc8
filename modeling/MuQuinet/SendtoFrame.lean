import MuQuinet.PortUniqueness

namespace MuQuinet.SendtoFrame

open MuQuinet.DeliveryIsolation
open MuQuinet.Pcbs
open MuQuinet.PortUniqueness
open MuQuinet.UdpLayer
open MuQuinet.Wire

/-- The PCB after `UdpPcb::send(faddr, fport, buf)`. -/
def afterSendto (port : UInt16) (pcb : Pcb) (faddr : UInt32) (fport : UInt16)
    (buf : List UInt8) : Pcb :=
  (UdpPcb.sendto port pcb faddr fport buf).2.1

/-- The packets that the call hands to `Ip::tx`. -/
def emitted (port : UInt16) (pcb : Pcb) (faddr : UInt32) (fport : UInt16)
    (buf : List UInt8) : List UdpDatagram :=
  [(UdpPcb.sendto port pcb faddr fport buf).2.2.2]

/-- The peer stays, and a PCB that has one refuses the call. -/
structure KeepsPeer (port : UInt16) (pcb : Pcb) (faddr : UInt32) (fport : UInt16)
    (buf : List UInt8) : Prop where
  faddr_eq : (afterSendto port pcb faddr fport buf).faddr = pcb.faddr
  fport_eq : (afterSendto port pcb faddr fport buf).fport = pcb.fport
  refused : pcb.fport ≠ 0 → (UdpPcb.sendto port pcb faddr fport buf).2.2.1 = EISCONN ∧
    emitted port pcb faddr fport buf = []

/-- Every lookup finds the same PCB with `pcb'` in place of `pcb`. -/
def FindsAs (pcb pcb' : Pcb) : Prop :=
  ∀ (pcbs : List (Option Pcb)) (i : Nat) (t : FourTuple),
    find (pcbs.set i (some pcb')) t = find (pcbs.set i (some pcb)) t

theorem laddr_bind (port : UInt16) (pcb : Pcb) : (Pcb.bind port pcb).2.laddr = pcb.laddr := by
  unfold Pcb.bind
  split <;> rfl

/-- The call binds the PCB itself, in `connect` and in `send`, before it disconnects it. -/
theorem afterSendto_eq_disconnect (port : UInt16) (pcb : Pcb) (faddr : UInt32) (fport : UInt16)
    (buf : List UInt8) :
    let bound := Pcb.bind port pcb
    let connected := Pcb.bind bound.1 { bound.2 with faddr := faddr, fport := fport }
    afterSendto port pcb faddr fport buf = (Pcb.bind connected.1 connected.2).2.disconnect := by
  simp only [afterSendto, UdpPcb.sendto, UdpPcb.send, Pcb.sendto, Pcb.send, Pcb.connect]

/-- `disconnect` forgets whatever peer the PCB had. -/
theorem afterSendto_eq (port : UInt16) (pcb : Pcb) (faddr : UInt32) (fport : UInt16)
    (buf : List UInt8) :
    afterSendto port pcb faddr fport buf =
      { faddr := 0
        fport := 0
        laddr := pcb.laddr
        lport := (afterSendto port pcb faddr fport buf).lport } := by
  have hafter := afterSendto_eq_disconnect port pcb faddr fport buf
  simp only [hafter, Pcb.disconnect, laddr_bind]

theorem lport_afterSendto_of_ne_zero {port : UInt16} {pcb : Pcb} (h : pcb.lport ≠ 0)
    (faddr : UInt32) (fport : UInt16) (buf : List UInt8) :
    (afterSendto port pcb faddr fport buf).lport = pcb.lport := by
  have hafter := afterSendto_eq_disconnect port pcb faddr fport buf
  have hpeer : Pcb.bind port { pcb with faddr := faddr, fport := fport } =
      (port, { pcb with faddr := faddr, fport := fport }) := bind_of_ne_zero h
  simp only [hafter, Pcb.disconnect, bind_of_ne_zero h, hpeer]

theorem lport_bind_ne_zero {port : UInt16} {pcb : Pcb} (h : pcb.lport ≠ 0 ∨ port ≠ 65535) :
    (Pcb.bind port pcb).2.lport ≠ 0 := by
  by_cases hlport : pcb.lport = 0
  · rw [bind_of_zero hlport]
    exact given_ne_zero (h.resolve_left (not_not.mpr hlport))
  · rw [bind_of_ne_zero hlport]
    exact hlport

/-- The call tries to bind the PCB three times, so even a counter that wraps gives it a
port. -/
theorem lport_afterSendto_ne_zero (port : UInt16) (pcb : Pcb) (faddr : UInt32) (fport : UInt16)
    (buf : List UInt8) : (afterSendto port pcb faddr fport buf).lport ≠ 0 := by
  have hfirst : (Pcb.bind port pcb).2.lport ≠ 0 ∨ (Pcb.bind port pcb).1 ≠ 65535 := by
    by_cases hlport : pcb.lport = 0
    · by_cases hport : port = 65535
      · subst hport
        rw [bind_of_zero hlport]
        exact .inr (show (65535 + 1 : UInt16) ≠ 65535 by decide)
      · exact .inl (lport_bind_ne_zero (.inr hport))
    · exact .inl (lport_bind_ne_zero (.inl hlport))
  let peered : Pcb := { (Pcb.bind port pcb).2 with faddr := faddr, fport := fport }
  have hpeered : peered.lport ≠ 0 ∨ (Pcb.bind port pcb).1 ≠ 65535 := hfirst
  have hsecond : (Pcb.bind (Pcb.bind port pcb).1 peered).2.lport ≠ 0 := lport_bind_ne_zero hpeered
  simp only [afterSendto_eq_disconnect, Pcb.disconnect]
  exact lport_bind_ne_zero (.inl hsecond)

theorem keepsPeer_iff (port : UInt16) (pcb : Pcb) (faddr : UInt32) (fport : UInt16)
    (buf : List UInt8) :
    KeepsPeer port pcb faddr fport buf ↔ pcb.faddr = 0 ∧ pcb.fport = 0 := by
  have hafter := afterSendto_eq port pcb faddr fport buf
  constructor
  · intro h
    have hfaddr := h.faddr_eq
    have hfport := h.fport_eq
    rw [hafter] at hfaddr hfport
    exact ⟨hfaddr.symm, hfport.symm⟩
  · rintro ⟨hfaddr, hfport⟩
    constructor
    · rw [hafter, hfaddr]
    · rw [hafter, hfport]
    · intro hne
      exact absurd hfport hne

/-- A PCB that gets a local port is found by the packets to that port. -/
theorem not_findsAs_of_lport_zero {pcb pcb' : Pcb} (hlport : pcb.lport = 0)
    (hbound : pcb'.lport ≠ 0) : ¬ FindsAs pcb pcb' := by
  intro h
  have hfind := h [none] 0
    { faddr := pcb'.faddr, fport := pcb'.fport, laddr := pcb'.laddr, lport := pcb'.lport }
  have hmatches : find ([none].set 0 (some pcb'))
      { faddr := pcb'.faddr, fport := pcb'.fport, laddr := pcb'.laddr, lport := pcb'.lport } =
        some 0 :=
    find_of_lastMatch (lastMatch_head ⟨rfl, .inr rfl, .inr rfl, .inr rfl⟩ (by simp))
  rw [hmatches] at hfind
  obtain ⟨other, hget, hmatch⟩ := find_eq_some hfind.symm
  obtain rfl : pcb = other := by simpa using hget
  exact hbound (hmatch.lport_eq.symm.trans hlport)

/-- A call with a destination leaves the peer alone only where there is none, and then
it changes lookups by no more than the local port it may bind. -/
theorem sendto_keeps_peer_iff (port : UInt16) (pcb : Pcb) (faddr : UInt32) (fport : UInt16)
    (buf : List UInt8) :
    (KeepsPeer port pcb faddr fport buf ∧
        FindsAs { pcb with lport := (afterSendto port pcb faddr fport buf).lport }
          (afterSendto port pcb faddr fport buf) ↔
      pcb.faddr = 0 ∧ pcb.fport = 0) ∧
    (KeepsPeer port pcb faddr fport buf ∧
        FindsAs pcb (afterSendto port pcb faddr fport buf) ↔
      pcb.faddr = 0 ∧ pcb.fport = 0 ∧ pcb.lport ≠ 0) := by
  have hafter := afterSendto_eq port pcb faddr fport buf
  have hsame : pcb.faddr = 0 → pcb.fport = 0 → afterSendto port pcb faddr fport buf =
      { pcb with lport := (afterSendto port pcb faddr fport buf).lport } := by
    intro hfaddr hfport
    rw [hfaddr, hfport]
    exact hafter
  refine ⟨?_, ?_⟩
  · rw [keepsPeer_iff]
    refine and_iff_left_of_imp ?_
    rintro ⟨hfaddr, hfport⟩ pcbs i t
    rw [← hsame hfaddr hfport]
  · rw [keepsPeer_iff, and_assoc]
    refine and_congr_right fun hfaddr => and_congr_right fun hfport => ?_
    constructor
    · intro hfinds hlport
      exact not_findsAs_of_lport_zero hlport (lport_afterSendto_ne_zero _ _ _ _ _) hfinds
    · intro hlport pcbs i t
      rw [hsame hfaddr hfport, lport_afterSendto_of_ne_zero hlport]

/-- A PCB of port 1025 that is connected to port 53 of 10.0.0.9. -/
def samplePcb : Pcb :=
  { faddr := 0x0900000a, fport := 0x3500, laddr := 0x0200000a, lport := 0x0104 }

/-- A packet to that port from port 9 of 10.0.0.7. -/
def sampleTuple : FourTuple :=
  { faddr := 0x0700000a, fport := 0x0900, laddr := 0x0200000a, lport := 0x0104 }

/-- The connected PCB sends the datagram, loses its peer, and then gets the packets of
strangers. -/
theorem connected_sendto_disconnects :
    ¬ KeepsPeer 1025 samplePcb 0x0800000a 0x3500 [1] ∧
      (UdpPcb.sendto 1025 samplePcb 0x0800000a 0x3500 [1]).2.2.1 = 1 ∧
      (afterSendto 1025 samplePcb 0x0800000a 0x3500 [1]).fport = 0 ∧
      find [some samplePcb] sampleTuple = none ∧
      find [some (afterSendto 1025 samplePcb 0x0800000a 0x3500 [1])] sampleTuple = some 0 := by
  refine ⟨?_, by decide, by decide, by decide, by decide⟩
  intro h
  have hfport : (0 : UInt16) = 0x3500 := h.fport_eq
  exact absurd hfport (by decide)

end MuQuinet.SendtoFrame
