import MuQuinet.Callbacks
import MuQuinet.SocketLives

namespace MuQuinet.SocketInvariants

open MuQuinet.Lib.Machines
open MuQuinet.Lib.Outcomes
open MuQuinet.Lib.Populations
open MuQuinet.AddressLeak (sampleLabels sampleStart sampleStart_initial)
open MuQuinet.Buffers
open MuQuinet.Callbacks
open MuQuinet.ChannelSockets
open MuQuinet.DaemonSurvival
open MuQuinet.HandlerAnswers
open MuQuinet.HandlerEffects
open MuQuinet.IpLayer
open MuQuinet.PacketEffects
open MuQuinet.Pcbs
open MuQuinet.RequestHandler
open MuQuinet.Rpc
open MuQuinet.SocketLives (sampleConnecting sampleConnecting_reachable)
open MuQuinet.Sockets
open MuQuinet.TcpLayer

/-- A socket that is there after a call but was not before is the one of the channel. -/
def CreatedOwned (d d' : Daemon) (ch : Nat) : Prop :=
  ∀ ref so, d'.socketAt ref = some so → d.socketAt ref = none → d'.socketOf ch = some ref

/-- What a step of the daemon does to its sockets and channels. -/
inductive SocketsStep (d : Daemon) : Daemon → Prop
  | same {d' : Daemon} : SameSockets d d' → SocketsStep d d'
  | called {d' : Daemon} {ch : Nat} {calling : Calling} {resp : Response} :
      Effects d d' ch calling resp → CreatedOwned d d' ch → SocketsStep d d'
  | received {d' : Daemon} {events : List Event} : RxEffects d d' events → SocketsStep d d'
  | notified {ref : SocketRef} {so so' : Socket} {sent : Option Response} :
      d.socketAt ref = some so → sChannelReadCb so = .ok (so', sent) →
      SocketsStep d (d.setSocketAt ref so')

section Steps

variable {d d' : Daemon}

theorem createdOwned_of_none {ch : Nat}
    (h : ∀ ref, d.socketAt ref = none → d'.socketAt ref = none) : CreatedOwned d d' ch := by
  intro ref so hso hnone
  rw [h ref hnone] at hso
  cases hso

theorem socketAt_release {old : Option SocketRef} {ref : SocketRef} {so : Socket}
    (h : (d.release old).socketAt ref = some so) : d.socketAt ref = some so := by
  rcases ref with ⟨_ | _, index⟩
  · rcases udpSlot_release d old index with heq | ⟨-, heq⟩
    · exact (congrArg Slot.socket heq).symm.trans h
    · cases (congrArg Slot.socket heq).symm.trans h
  · rcases tcpSlot_release d old index with heq | ⟨-, heq⟩
    · exact (congrArg Slot.socket heq).symm.trans h
    · cases (congrArg Slot.socket heq).symm.trans h

theorem socketOf_setSocket {ch : Nat} {ref : SocketRef} (h : (d.rrChannel ch).isSome)
    (hrrChannels : d'.rrChannels = d.rrChannels) :
    (d'.setRRChannel ch
      ((d.rrChannel ch).map fun rr => { rr with socket := some ref })).socketOf ch = some ref := by
  obtain ⟨rr, hrr⟩ := Option.isSome_iff_exists.mp h
  have hsame : d'.rrChannel ch = some rr := by
    rw [Daemon.rrChannel, hrrChannels]
    exact hrr
  rw [hrr, Option.map_some, Daemon.socketOf]
  rcases rrChannel_setRRChannel_self d' ch (some { rr with socket := some ref }) with
    heq | ⟨hnone, -⟩
  · rw [heq, Option.bind_some]
  · rw [hnone] at hsame
    cases hsame

theorem rrChannels_release (old : Option SocketRef) :
    (d.release old).rrChannels = d.rrChannels := by
  rcases old with _ | ⟨_ | _, index⟩ <;> rfl

theorem socketCall_createdOwned {mem : Uninit} {ch : Nat} {domain type : Int32} {resp : Response}
    (hch : (d.rrChannel ch).isSome) (h : socketCall d mem ch domain type = .ok (d', resp)) :
    CreatedOwned d d' ch := by
  unfold socketCall at h
  split at h
  · cases h
  · split at h
    · cases h
    · dsimp only at h
      split at h
      · cases h
        intro ref so hso hnone
        refine (socketOf_setSocket hch ?_).trans (congrArg some ?_)
        · exact rrChannels_release _
        · have hcreated := socketAt_release hso
          rcases ref with ⟨_ | _, index⟩
          · cases hnone.symm.trans hcreated
          · simp only [Daemon.socketAt, Daemon.tcpSlot, Tcp.newPcb] at hcreated hnone
            rcases Population.getD_append_cases d.stack.tcp.pcbs _ .expired index with
              heq | ⟨rfl, -, -⟩
            · rw [heq, hnone] at hcreated
              cases hcreated
            · rfl
      · cases h
        intro ref so hso hnone
        refine (socketOf_setSocket hch ?_).trans (congrArg some ?_)
        · exact rrChannels_release _
        · have hcreated := socketAt_release hso
          rcases ref with ⟨_ | _, index⟩
          · simp only [Daemon.socketAt, Daemon.udpSlot, UdpLayer.Udp.newPcb] at hcreated hnone
            rcases Population.getD_append_cases d.stack.udp.pcbs _ .expired index with
              heq | ⟨rfl, -, -⟩
            · rw [heq, hnone] at hcreated
              cases hcreated
            · rfl
          · cases hnone.symm.trans hcreated

theorem socketAt_udpCalled (i : Nat) (port : UInt16) (pcb : Pcb) (ref : SocketRef) :
    (udpCalled d i port pcb).socketAt ref = d.socketAt ref := by
  rcases ref with ⟨_ | _, index⟩
  · rcases Population.getD_set_cases d.stack.udp.pcbs i index
      { d.udpSlot i with pcb := some pcb } .expired with heq | ⟨rfl, heq⟩
    · exact congrArg Slot.socket heq
    · have hsocket := congrArg Slot.socket heq
      exact hsocket
  · rfl

theorem socketAt_tcpCalled (i : Nat) (port : UInt16) (pcb : TcpPcb) (ref : SocketRef) :
    (tcpCalled d i port pcb).socketAt ref = d.socketAt ref := by
  rcases ref with ⟨_ | _, index⟩
  · rfl
  · rcases Population.getD_set_cases d.stack.tcp.pcbs i index
      { d.tcpSlot i with pcb := some pcb } .expired with heq | ⟨rfl, heq⟩
    · exact congrArg Slot.socket heq
    · have hsocket := congrArg Slot.socket heq
      exact hsocket

theorem handleRequest_createdOwned {mem : Uninit} {ch : Nat} {req : Request} {resp : Response}
    (hch : (d.rrChannel ch).isSome) (h : handleRequest d mem ch req = .ok (d', resp)) :
    CreatedOwned d d' ch := by
  unfold handleRequest at h
  generalize req.calling = calling at h
  cases calling with
  | socketCall domain type protocol => exact socketCall_createdOwned hch h
  | connectCall addr =>
      obtain ⟨ref, so, -, hexit⟩ := connectCall_exit h
      apply createdOwned_of_none
      intro ref' hnone
      cases hexit with
      | udp => rwa [socketAt_udpCalled]
      | inProgress => exact hnone
      | waitEstab => rwa [socketAt_tcpCalled]
  | recvfromCall len flags requireAddr =>
      simp only [recvfromCall, bind_eq_ok_iff] at h
      obtain ⟨⟨ref, so⟩, hsocket, ⟨so', _⟩, -, ⟨⟩⟩ := h
      have hso := (socket_eq_ok_iff.mp hsocket).2
      apply createdOwned_of_none
      intro ref' hnone
      rcases socketAt_setSocketAt_cases d ref ref' so' with heq | ⟨rfl, -⟩
      · exact heq.trans hnone
      · cases hnone.symm.trans hso
  | sendtoCall buf flags addr =>
      obtain ⟨ref, so, -, hexit⟩ := sendtoCall_exit h
      apply createdOwned_of_none
      intro ref' hnone
      cases hexit with
      | udpSendto => rwa [socketAt_udpCalled]
      | udpSend => rwa [socketAt_udpCalled]
      | tcpSend => rwa [socketAt_tcpCalled]
  | getpeernameCall =>
      obtain ⟨_, -, ⟨⟩⟩ := bind_eq_ok_iff.mp h
      exact createdOwned_of_none fun _ hnone => hnone
  | getsocknameCall =>
      obtain ⟨_, -, ⟨⟩⟩ := bind_eq_ok_iff.mp h
      exact createdOwned_of_none fun _ hnone => hnone
  | atstartAction progname =>
      cases h
      exact createdOwned_of_none fun _ hnone => hnone
  | _ =>
      cases h
      exact createdOwned_of_none fun _ hnone => hnone

theorem sameSockets_refl (d : Daemon) : SameSockets d d :=
  ⟨rfl, fun _ => rfl⟩

theorem removeRRChannel_step (ch : Nat) : SocketsStep d (d.removeRRChannel ch) := by
  refine .called (removeRRChannel_effects d ch .notSet { returning := none, retCode := none }) ?_
  apply createdOwned_of_none
  intro ref hnone
  by_contra hsome
  obtain ⟨so, hso⟩ := Option.ne_none_iff_exists'.mp hsome
  cases hnone.symm.trans (socketAt_release hso)

theorem onReadReady_step {mem : Uninit} {ch : Nat} {result : ReadResult} {writeFails : Bool}
    {sent : Option Response} (hconn : Connected d) (hch : (d.rrChannel ch).isSome)
    (h : onReadReady d mem ch result writeFails = .ok (d', sent)) : SocketsStep d d' := by
  cases onReadReady_exit h with
  | again => exact .same (sameSockets_refl d)
  | eof => exact removeRRChannel_step ch
  | written hcall =>
      exact .called (handleRequest_effects hconn hcall) (handleRequest_createdOwned hch hcall)
  | @unwritten req handled _ _ hcall =>
      have hkeeps : Keeps handled (handled.setRRChannel ch
          ((handled.rrChannel ch).map fun rr => { rr with registered := false })) :=
        keeps_setRRChannel fun _ => rfl
      refine .called ((handleRequest_effects hconn hcall).setRRChannel fun _ => rfl) ?_
      intro ref so hso hnone
      rw [hkeeps.socketOf]
      exact handleRequest_createdOwned hch hcall ref so hso hnone

theorem next_step {a : Label} (hconn : Connected d)
    (hnext : next (.running d) a = some (.running d')) : SocketsStep d d' := by
  cases next_exit hnext with
  | accept => exact .same ⟨rfl, socketOf_accept d⟩
  | @read _ ch _ _ _ _ hpolled hread =>
      have hch : (d.rrChannel ch).isSome := by
        unfold polled at hpolled
        rcases hrr : d.rrChannel ch with _ | rr
        · rw [hrr] at hpolled
          cases hpolled
        · rfl
      exact onReadReady_step hconn hch hread
  | @hangUp ch _ => exact removeRRChannel_step ch
  | rx uninit skbuf => exact .received (rx_effects d uninit skbuf)
  | notified hso hread => exact .notified hso hread

end Steps

/-- What the daemon does to a socket keeps `Q`. -/
structure KeptByDaemon (Q : Socket → Prop) : Prop where
  created : ∀ type nonblocking, Q { type := type, nonblocking := nonblocking }
  putToRecvQ : ∀ so peeraddr skbuf, Q so → Q (so.putToRecvQ peeraddr skbuf)
  recvfrom : ∀ so so' ch requireAddr resp, Q so →
    RequestHandler.recvfrom so ch requireAddr = .ok (so', resp) → Q so'
  sChannelReadCb : ∀ so so' sent, Q so → RequestHandler.sChannelReadCb so = .ok (so', sent) → Q so'

def SocketsMeet (Q : Socket → Prop) (d : Daemon) : Prop :=
  ∀ ref so, d.socketAt ref = some so → Q so

section Rule

variable {Q : Socket → Prop} {d d' : Daemon}

theorem KeptByDaemon.slotEffect {P : Type} {ch : Nat} {ref : SocketRef} {calling : Calling}
    {resp : Response} {fresh : P → Prop} {called : P → P → Prop} {slot slot' : Slot P}
    (hQ : KeptByDaemon Q) (h : SlotEffect d ch ref calling resp fresh called slot slot')
    (hslot : ∀ so, slot.socket = some so → Q so) {so : Socket} (hso : slot'.socket = some so) :
    Q so := by
  cases h with
  | unchanged => exact hslot so hso
  | released => cases hso
  | created type nonblocking =>
      cases hso
      exact hQ.created type nonblocking
  | called => exact hslot so hso
  | received _ _ _ hrecvfrom =>
      cases hso
      exact hQ.recvfrom _ _ _ _ _ (hslot _ rfl) hrecvfrom

theorem KeptByDaemon.socketEffect {socket socket' : Option Socket} (hQ : KeptByDaemon Q)
    (h : SocketEffect socket socket') (hsocket : ∀ so, socket = some so → Q so) {so : Socket}
    (hso : socket' = some so) : Q so := by
  cases h with
  | unchanged => exact hsocket so hso
  | put old peeraddr skbuf =>
      cases hso
      exact hQ.putToRecvQ old peeraddr skbuf (hsocket old rfl)

theorem SocketsStep.meet (hQ : KeptByDaemon Q) (h : SocketsStep d d') (hd : SocketsMeet Q d) :
    SocketsMeet Q d' := by
  intro ref so hso
  cases h with
  | same hsame =>
      rw [hsame.socketAt] at hso
      exact hd ref so hso
  | called heffects =>
      rcases ref with ⟨_ | _, index⟩
      · exact hQ.slotEffect (heffects.udp index) (hd { type := .UDP, index := index }) hso
      · exact hQ.slotEffect (heffects.tcp index) (hd { type := .TCP, index := index }) hso
  | received heffects =>
      rcases ref with ⟨_ | _, index⟩
      · exact hQ.socketEffect (heffects.udp index) (hd { type := .UDP, index := index }) hso
      · exact hQ.socketEffect (heffects.tcp index) (hd { type := .TCP, index := index }) hso
  | @notified ref' old so' _ hold hread =>
      rcases socketAt_setSocketAt_cases d ref' ref so' with heq | ⟨rfl, heq⟩
      · exact hd ref so (heq.symm.trans hso)
      · obtain rfl := Option.some.inj (heq.symm.trans hso)
        exact hQ.sChannelReadCb _ _ _ (hd _ _ hold) hread

theorem socketsMeet_of_none (h : ∀ ref, d.socketAt ref = none) : SocketsMeet Q d := by
  intro ref so hso
  cases (h ref).symm.trans hso

theorem socketAt_of_started (hudp : d.stack.udp.pcbs = []) (htcp : d.stack.tcp.pcbs = [])
    (ref : SocketRef) : d.socketAt ref = none := by
  rcases ref with ⟨_ | _, index⟩
  · simp [Daemon.socketAt, Daemon.udpSlot, hudp, Slot.expired]
  · simp [Daemon.socketAt, Daemon.tcpSlot, htcp, Slot.expired]

/-- The rule for sockets: what every call on a socket keeps holds of every socket of every
state. -/
theorem socketsMeet (hQ : KeptByDaemon Q) {s : State} (h : started.Reachable s) :
    ∀ d, s = .running d → SocketsMeet Q d := by
  induction h with
  | initial hinitial =>
      obtain ⟨d, rfl, -, hudp, htcp, -⟩ := hinitial
      rintro d ⟨⟩
      exact socketsMeet_of_none (socketAt_of_started hudp htcp)
  | @step s t a hreached _ hnext ih =>
      rintro d' rfl
      rcases s with d | fault
      · have hconn := connected (reachable_of_started hreached) d rfl
        exact (next_step hconn hnext).meet hQ (ih d rfl)
      · cases hnext

end Rule

section Settled

/-- A callback is the one for packets of the socket's protocol. -/
def CallbackOfType (type : SocketType) : OnAsyncNewPacket → Prop
  | .onAsyncNewUdpPacket _ _ => type = .UDP
  | .onAsyncNewTcpPacket _ => type = .TCP

/-- What a socket is bounded by between two callbacks of the event loop, and what its client
waits for: packets that are there although the client waits are announced on the pipe. -/
structure Settled (so : Socket) : Prop where
  recvQ_le : so.recvQ.length ≤ recvQlimit + 1
  notifyPipe_le : so.notifyPipe ≤ pipeCapacity
  callback : so.waiting = true → so.onAsyncNewPacket.isSome
  callback_type : ∀ cb, so.onAsyncNewPacket = some cb → CallbackOfType so.type cb
  announced : so.waiting = true → so.recvQ ≠ [] → 0 < so.notifyPipe

theorem settled_created (type : SocketType) (nonblocking : Bool) :
    Settled { type := type, nonblocking := nonblocking } := by
  constructor
  · exact Nat.zero_le _
  · exact Nat.zero_le _
  · rintro ⟨⟩
  · rintro cb ⟨⟩
  · rintro ⟨⟩

theorem notifyPipe_markSChannelAsReadable_le {so : Socket} (h : so.notifyPipe ≤ pipeCapacity) :
    so.markSChannelAsReadable.notifyPipe ≤ pipeCapacity := by
  unfold Socket.markSChannelAsReadable
  split
  · assumption
  · exact h

theorem settled_putToRecvQ (so : Socket) (peeraddr : SockaddrIn) (skbuf : List SocketBuffer)
    (h : Settled so) : Settled (so.putToRecvQ peeraddr skbuf) := by
  unfold Socket.putToRecvQ
  split
  · exact h
  · rename_i hroom
    constructor
    · rw [Socket.recvQ_markSChannelAsReadable]
      simp only [Socket.enqueue, List.length_append, List.length_singleton]
      omega
    · exact notifyPipe_markSChannelAsReadable_le h.notifyPipe_le
    · rw [Socket.waiting_markSChannelAsReadable, Socket.onAsyncNewPacket_markSChannelAsReadable]
      exact h.callback
    · rw [Socket.onAsyncNewPacket_markSChannelAsReadable, Socket.type_markSChannelAsReadable]
      exact h.callback_type
    · intro _ _
      exact Socket.notifyPipe_markSChannelAsReadable_pos _

theorem settled_recvfrom (so so' : Socket) (ch : Nat) (requireAddr : Bool) (resp : Response)
    (h : Settled so) (hrecvfrom : recvfrom so ch requireAddr = .ok (so', resp)) : Settled so' := by
  unfold recvfrom Socket.tryTakeFromRecvQ at hrecvfrom
  rcases hqueue : so.recvQ with _ | ⟨entry, rest⟩
  · simp only [hqueue] at hrecvfrom
    split at hrecvfrom
    · cases hrecvfrom
      exact h
    · cases hrecvfrom
      refine ⟨h.recvQ_le, h.notifyPipe_le, fun _ => rfl, ?_, ?_⟩
      · rintro cb ⟨⟩
        change CallbackOfType so.type _
        cases so.type with
        | UDP => rfl
        | TCP => rfl
      · intro _ hne
        exact absurd hqueue hne
  · simp only [hqueue] at hrecvfrom
    obtain ⟨_, -, ⟨⟩⟩ := map_eq_ok_iff.mp hrecvfrom
    refine ⟨?_, h.notifyPipe_le, h.callback, h.callback_type, ?_⟩
    · have hle := h.recvQ_le
      rw [hqueue, List.length_cons] at hle
      exact Nat.le_of_succ_le hle
    · intro hwaiting _
      apply h.announced hwaiting
      rw [hqueue]
      exact List.cons_ne_nil _ _

theorem settled_sChannelReadCb (so so' : Socket) (sent : Option Response) (h : Settled so)
    (hread : sChannelReadCb so = .ok (so', sent)) : Settled so' := by
  cases sChannelReadCb_effect hread with
  | idle hidle =>
      refine ⟨h.recvQ_le, Nat.zero_le _, h.callback, h.callback_type, ?_⟩
      intro hwaiting
      cases hidle.symm.trans hwaiting
  | unset => exact ⟨h.recvQ_le, Nat.zero_le _, nofun, h.callback_type, nofun⟩
  | replied _ _ hqueue =>
      refine ⟨?_, Nat.zero_le _, nofun, h.callback_type, nofun⟩
      have hle := h.recvQ_le
      rw [hqueue, List.length_cons] at hle
      exact Nat.le_of_succ_le hle

theorem settled_kept : KeptByDaemon Settled :=
  ⟨settled_created, settled_putToRecvQ, settled_recvfrom, settled_sChannelReadCb⟩

/-- However long a client does not read, its socket holds 129 packets at most and its pipe
what a pipe holds; and between two callbacks a client that waits while there are packets is
about to be woken up. -/
theorem sockets_settled {d : Daemon} (h : started.Reachable (.running d)) {ref : SocketRef}
    {so : Socket} (hso : d.socketAt ref = some so) : Settled so :=
  socketsMeet settled_kept h d rfl ref so hso

theorem sockets_settled_sample :
    ∃ d so, started.exec (.running sampleStart) (sampleLabels .zero) = some (.running d) ∧
      d.socketAt { type := .UDP, index := 0 } = some so ∧ Settled so := by
  obtain ⟨d, so, hexec, hso⟩ : ∃ d so,
      started.exec (.running sampleStart) (sampleLabels .zero) = some (.running d) ∧
        d.socketAt { type := .UDP, index := 0 } = some so := ⟨_, _, rfl, rfl⟩
  have hreached : started.Reachable (.running d) :=
    Machine.reachable_of_exec (.initial sampleStart_initial) hexec
  exact ⟨d, so, hexec, hso, sockets_settled hreached hso⟩

end Settled

section Ownership

variable {d d' : Daemon}

/-- Every socket is the one of some channel, and what is set on it answers there. -/
structure SocketsOwned (d : Daemon) : Prop where
  owner : ∀ ref so, d.socketAt ref = some so → ∃ ch, d.socketOf ch = some ref
  callbacks : CallbacksOwned d

theorem not_expired_of_socketAt {ref : SocketRef} {so : Socket} (h : d.socketAt ref = some so) :
    ¬ Expired d ref := by
  intro hexpired
  rcases ref with ⟨_ | _, index⟩
  · cases (congrArg Slot.socket hexpired).symm.trans h
  · cases (congrArg Slot.socket hexpired).symm.trans h

theorem isSome_of_socketEffect {socket socket' : Option Socket}
    (h : SocketEffect socket socket') : socket'.isSome = socket.isSome := by
  cases h with
  | unchanged => rfl
  | put => rfl

theorem SocketsStep.owned (h : SocketsStep d d') (hd : SocketsOwned d) : SocketsOwned d' := by
  cases h with
  | same hsame =>
      refine ⟨?_, hd.callbacks.of_sameSockets hsame⟩
      intro ref so hso
      rw [hsame.socketAt] at hso
      obtain ⟨ch, hch⟩ := hd.owner ref so hso
      exact ⟨ch, (hsame.socketOf ch).trans hch⟩
  | @called _ ch _ _ heffects hcreated =>
      refine ⟨?_, hd.callbacks.of_effects heffects⟩
      intro ref so hso
      rcases hbefore : d.socketAt ref with _ | old
      · exact ⟨ch, hcreated ref so hso hbefore⟩
      · obtain ⟨owner, howner⟩ := hd.owner ref old hbefore
        exact ⟨owner, socketOf_of_effects heffects howner (not_expired_of_socketAt hso)⟩
  | received heffects =>
      refine ⟨?_, hd.callbacks.of_rxEffects heffects⟩
      intro ref so hso
      have hsome : (d.socketAt ref).isSome := by
        have hsame : (d'.socketAt ref).isSome = (d.socketAt ref).isSome := by
          rcases ref with ⟨_ | _, index⟩
          · exact isSome_of_socketEffect (heffects.udp index)
          · exact isSome_of_socketEffect (heffects.tcp index)
        rw [← hsame, hso]
        rfl
      obtain ⟨old, hold⟩ := Option.isSome_iff_exists.mp hsome
      obtain ⟨ch, hch⟩ := hd.owner ref old hold
      exact ⟨ch, (socketOf_of_rxEffects heffects ch).trans hch⟩
  | @notified ref old so' _ hold hread =>
      have hcb : so'.onAsyncNewPacket = old.onAsyncNewPacket := by
        cases sChannelReadCb_effect hread with
        | idle => rfl
        | unset => rfl
        | replied => rfl
      refine ⟨?_, hd.callbacks.setSocketAt hold hcb⟩
      intro ref' so hso
      have hbefore : ∃ before, d.socketAt ref' = some before := by
        rcases socketAt_setSocketAt_cases d ref ref' so' with heq | ⟨rfl, -⟩
        · exact ⟨so, heq.symm.trans hso⟩
        · exact ⟨old, hold⟩
      obtain ⟨before, hbefore⟩ := hbefore
      obtain ⟨ch, hch⟩ := hd.owner ref' before hbefore
      exact ⟨ch, (socketOf_setSocketAt d ref so' ch).trans hch⟩

theorem socketsOwned {s : State} (h : started.Reachable s) :
    ∀ d, s = .running d → SocketsOwned d := by
  induction h with
  | initial hinitial =>
      obtain ⟨d, rfl, -, hudp, htcp, -⟩ := hinitial
      rintro d ⟨⟩
      have hnone := socketAt_of_started hudp htcp
      have hslot : ∀ i, d.tcpSlot i = .expired := by
        intro i
        simp [Daemon.tcpSlot, htcp]
      refine ⟨?_, ?_, ?_, ?_⟩
      · intro ref so hso
        cases (hnone ref).symm.trans hso
      · intro ref cb hcb
        rw [hnone] at hcb
        cases hcb
      · intro i ch hch
        rw [hslot] at hch
        cases hch
      · intro i pcb hpcb
        rw [hslot] at hpcb
        cases hpcb
  | @step s t a hreached _ hnext ih =>
      rintro d' rfl
      rcases s with d | fault
      · have hconn := connected (reachable_of_started hreached) d rfl
        exact (next_step hconn hnext).owned (ih d rfl)
      · cases hnext

/-- A socket lives just as long as the one channel that owns it, and what wakes up on it
answers on that channel: no client gets what another waits for. -/
theorem sockets_owned {d : Daemon} (h : started.Reachable (.running d)) (ref : SocketRef) :
    ((∃ so, d.socketAt ref = some so) ↔ ∃ ch, d.socketOf ch = some ref) ∧
      ∀ ch, d.socketOf ch = some ref →
        (∀ ch', d.socketOf ch' = some ref → ch' = ch) ∧
        (∀ cb, (d.socketAt ref).bind Socket.onAsyncNewPacket = some cb → cb.rrChannel = ch) ∧
        (ref.type = .TCP → ∀ ch', (d.tcpSlot ref.index).pcb.bind TcpPcb.onConnEstabCB = some ch' →
          ch' = ch) := by
  obtain ⟨howner, hcallbacks⟩ := socketsOwned h d rfl
  have hconn := connected (reachable_of_started h) d rfl
  refine ⟨⟨?_, ?_⟩, ?_⟩
  · rintro ⟨so, hso⟩
    exact howner ref so hso
  · rintro ⟨ch, hch⟩
    have halive := hconn.alive ch ref hch
    rcases ref with ⟨_ | _, index⟩
    · obtain ⟨_, so, hslot, -⟩ := halive
      exact ⟨so, congrArg Slot.socket hslot⟩
    · obtain ⟨_, so, hslot, -⟩ := halive
      exact ⟨so, congrArg Slot.socket hslot⟩
  · intro ch hch
    refine ⟨?_, ?_, ?_⟩
    · intro ch' hch'
      exact hconn.unshared ch' ch ref hch' hch
    · intro cb hcb
      exact hconn.unshared _ ch ref (hcallbacks.packet ref cb hcb) hch
    · intro htype ch' hch'
      obtain ⟨type, index⟩ := ref
      obtain rfl : type = .TCP := htype
      exact hconn.unshared ch' ch _ (hcallbacks.estab index ch' hch') hch

theorem sockets_owned_sample :
    sampleConnecting.socketOf 0 = some { type := .TCP, index := 0 } ∧
      ∀ ch', (sampleConnecting.tcpSlot 0).pcb.bind TcpPcb.onConnEstabCB = some ch' → ch' = 0 := by
  have howned := (sockets_owned sampleConnecting_reachable { type := .TCP, index := 0 }).2
  exact ⟨rfl, (howned 0 rfl).2.2 rfl⟩

end Ownership

end MuQuinet.SocketInvariants
