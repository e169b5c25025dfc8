import MuQuinet.PacketEffects

namespace MuQuinet.Callbacks

open MuQuinet.ChannelSockets
open MuQuinet.HandlerEffects
open MuQuinet.PacketEffects
open MuQuinet.Pcbs
open MuQuinet.RequestHandler
open MuQuinet.Rpc
open MuQuinet.Sockets
open MuQuinet.TcpLayer

def Receives (calling : Calling) : Prop :=
  ∃ len flags requireAddr, calling = .recvfromCall len flags requireAddr

def Connects (calling : Calling) : Prop :=
  ∃ addr, calling = .connectCall addr

/-- Whether the answer to a `recvfrom` is still to come from a socket. -/
def waitsForPacket (d : Daemon) (ref : SocketRef) : Bool :=
  (d.socketAt ref).any Socket.waiting

def awaitsEstab (ch : Nat) (pcb : TcpPcb) : Bool :=
  pcb.connState = .SYN_SENT && pcb.onConnEstabCB = some ch

/-- Whether the answer to a `connect` on a channel is still to come from a socket's PCB. -/
def waitsForEstab (d : Daemon) (ch : Nat) (ref : SocketRef) : Bool :=
  match ref.type with
  | .UDP => false
  | .TCP => (d.tcpSlot ref.index).pcb.any (awaitsEstab ch)

/-- The callbacks answer on the channels that own what they are set on. -/
structure CallbacksOwned (d : Daemon) : Prop where
  packet : ∀ ref cb, (d.socketAt ref).bind Socket.onAsyncNewPacket = some cb →
    d.socketOf cb.rrChannel = some ref
  estab : ∀ i ch, (d.tcpSlot i).pcb.bind TcpPcb.onConnEstabCB = some ch →
    d.socketOf ch = some { type := .TCP, index := i }
  closed : ∀ i pcb, (d.tcpSlot i).pcb = some pcb → pcb.connState = .CLOSED →
    pcb.onConnEstabCB = none

theorem awaitsEstab_eq_true_iff {ch : Nat} {pcb : TcpPcb} :
    awaitsEstab ch pcb = true ↔ pcb.connState = .SYN_SENT ∧ pcb.onConnEstabCB = some ch := by
  simp [awaitsEstab]

theorem not_waits_of_expired {d : Daemon} {ref : SocketRef} (h : Expired d ref) (ch : Nat) :
    waitsForPacket d ref = false ∧ waitsForEstab d ch ref = false := by
  rcases ref with ⟨_ | _, index⟩
  · replace h : d.udpSlot index = .expired := h
    simp [waitsForPacket, waitsForEstab, Daemon.socketAt, h, Slot.expired]
  · replace h : d.tcpSlot index = .expired := h
    simp [waitsForPacket, waitsForEstab, Daemon.socketAt, h, Slot.expired]

section Packets

theorem callback_of_socketEffect {socket socket' : Option Socket}
    (h : SocketEffect socket socket') :
    socket'.bind Socket.onAsyncNewPacket = socket.bind Socket.onAsyncNewPacket := by
  cases h with
  | unchanged => rfl
  | put so peeraddr skbuf => exact so.onAsyncNewPacket_putToRecvQ peeraddr skbuf

theorem waiting_of_socketEffect {socket socket' : Option Socket} (h : SocketEffect socket socket') :
    socket'.any Socket.waiting = socket.any Socket.waiting := by
  cases h with
  | unchanged => rfl
  | put so peeraddr skbuf => exact so.waiting_putToRecvQ peeraddr skbuf

theorem cb_of_pcbEffect {pcb pcb' : Option TcpPcb} (h : PcbEffect pcb pcb') :
    pcb'.bind TcpPcb.onConnEstabCB = pcb.bind TcpPcb.onConnEstabCB := by
  cases h with
  | unchanged _ hcb =>
      rcases pcb with _ | pcb <;> rcases pcb' with _ | pcb'
      · rfl
      · cases hcb
      · cases hcb
      · exact Option.some.inj hcb
  | established _ _ hcb => exact hcb

/-- A segment does not make a connection wait that did not. -/
theorem awaitsEstab_of_pcbEffect {pcb pcb' : Option TcpPcb} (h : PcbEffect pcb pcb') {ch : Nat}
    (hawaits : pcb'.any (awaitsEstab ch) = true) : pcb.any (awaitsEstab ch) = true := by
  cases h with
  | unchanged hconnState hcb =>
      rcases pcb with _ | pcb <;> rcases pcb' with _ | pcb'
      · cases hawaits
      · cases hcb
      · cases hawaits
      · obtain ⟨hsynSent, hset⟩ := awaitsEstab_eq_true_iff.mp hawaits
        apply awaitsEstab_eq_true_iff.mpr
        constructor
        · exact (Option.some.inj hconnState).symm.trans hsynSent
        · exact (Option.some.inj hcb).symm.trans hset
  | established _ hestablished =>
      have hsynSent := (awaitsEstab_eq_true_iff.mp hawaits).1
      cases hestablished.symm.trans hsynSent

end Packets

section Calls

variable {d : Daemon} {ch : Nat} {calling : Calling} {resp : Response}

theorem recvfrom_sets {so so' : Socket} {requireAddr : Bool}
    (h : recvfrom so ch requireAddr = .ok (so', resp)) :
    (so'.waiting = so.waiting ∧ so'.onAsyncNewPacket = so.onAsyncNewPacket) ∨
      resp.retCode = some .WAIT_NEXT ∧
        ∃ cb, so'.onAsyncNewPacket = some cb ∧ cb.rrChannel = ch := by
  cases recvfrom_exit h with
  | packet => exact .inl ⟨rfl, rfl⟩
  | again => exact .inl ⟨rfl, rfl⟩
  | waitNext _ _ hrrChannel => exact .inr ⟨rfl, _, rfl, hrrChannel⟩

section Slots

variable {P : Type} {ref : SocketRef} {fresh : P → Prop} {called : P → P → Prop}
  {slot slot' : Slot P}

/-- A handler that sets the callback of a socket is the one of `recvfrom`. -/
theorem callback_of_slotEffect (h : SlotEffect d ch ref calling resp fresh called slot slot')
    {cb : OnAsyncNewPacket} (hcb : slot'.socket.bind Socket.onAsyncNewPacket = some cb) :
    slot.socket.bind Socket.onAsyncNewPacket = some cb ∨
      Receives calling ∧ d.socketOf ch = some ref ∧ cb.rrChannel = ch := by
  cases h with
  | unchanged => exact .inl hcb
  | released => cases hcb
  | created => cases hcb
  | called => exact .inl hcb
  | received _ howner hcalling hrecvfrom =>
      rcases recvfrom_sets hrecvfrom with ⟨-, hkept⟩ | ⟨-, cb', hset, hrrChannel⟩
      · exact .inl (hkept.symm.trans hcb)
      · obtain rfl := Option.some.inj (hset.symm.trans hcb)
        exact .inr ⟨⟨_, _, _, hcalling⟩, howner, hrrChannel⟩

theorem waiting_of_slotEffect (h : SlotEffect d ch ref calling resp fresh called slot slot')
    (hwaiting : slot'.socket.any Socket.waiting = true) :
    slot.socket.any Socket.waiting = true ∨
      Receives calling ∧ resp.retCode = some .WAIT_NEXT ∧ d.socketOf ch = some ref := by
  cases h with
  | unchanged => exact .inl hwaiting
  | released => cases hwaiting
  | created => cases hwaiting
  | called => exact .inl hwaiting
  | received _ howner hcalling hrecvfrom =>
      rcases recvfrom_sets hrecvfrom with ⟨hkept, -⟩ | ⟨hwaitNext, -⟩
      · exact .inl (hkept.symm.trans hwaiting)
      · exact .inr ⟨⟨_, _, _, hcalling⟩, hwaitNext, howner⟩

end Slots

theorem send_onConnEstabCB (port : UInt16) (pcb : TcpPcb) (buf : List UInt8) :
    (TcpPcb.send port pcb buf).2.1.onConnEstabCB = pcb.onConnEstabCB := by
  unfold TcpPcb.send
  dsimp only
  split <;> rfl

theorem send_connState (port : UInt16) (pcb : TcpPcb) (buf : List UInt8) :
    (TcpPcb.send port pcb buf).2.1.connState =
      if pcb.connState = .CLOSED then .SYN_SENT else pcb.connState := by
  unfold TcpPcb.send
  dsimp only
  split
  · rename_i hclosed
    rw [if_pos hclosed]
  · rename_i hestab
    rw [hestab]
    rfl
  · rename_i hclosed _
    rw [if_neg hclosed]

theorem send_connState_ne_closed (port : UInt16) (pcb : TcpPcb) (buf : List UInt8) :
    (TcpPcb.send port pcb buf).2.1.connState ≠ .CLOSED := by
  rw [send_connState]
  split
  · exact nofun
  · assumption

section Connections

variable {i : Nat} {slot slot' : Slot TcpPcb}

/-- A handler that sets the callback of a connection is the one of `connect`. -/
theorem cb_of_tcpEffect (h : TcpEffect d ch calling resp i slot slot') {rrChannel : Nat}
    (hcb : slot'.pcb.bind TcpPcb.onConnEstabCB = some rrChannel) :
    slot.pcb.bind TcpPcb.onConnEstabCB = some rrChannel ∨
      Connects calling ∧ d.socketOf ch = some { type := .TCP, index := i } ∧ rrChannel = ch := by
  cases h with
  | unchanged => exact .inl hcb
  | released => cases hcb
  | created _ _ hfresh => cases hfresh.2.symm.trans hcb
  | called socket howner hcalled =>
      cases hcalled with
      | connect pcb addr port =>
          have hset := (send_onConnEstabCB _ _ []).symm.trans hcb
          exact .inr ⟨⟨addr, rfl⟩, howner, (Option.some.inj hset).symm⟩
      | send pcb buf flags addr port =>
          exact .inl ((send_onConnEstabCB port _ buf).symm.trans hcb)
  | received => exact .inl hcb

theorem closed_of_tcpEffect (h : TcpEffect d ch calling resp i slot slot')
    (hclosed : ∀ pcb, slot.pcb = some pcb → pcb.connState = .CLOSED → pcb.onConnEstabCB = none)
    {pcb : TcpPcb} (hpcb : slot'.pcb = some pcb) (hstate : pcb.connState = .CLOSED) :
    pcb.onConnEstabCB = none := by
  cases h with
  | unchanged => exact hclosed pcb hpcb hstate
  | released => cases hpcb
  | created _ _ hfresh =>
      cases hpcb
      exact hfresh.2
  | called socket _ hcalled =>
      cases hcalled with
      | connect pcb addr port =>
          cases hpcb
          exact absurd hstate (send_connState_ne_closed _ _ _)
      | send pcb buf flags addr port =>
          cases hpcb
          exact absurd hstate (send_connState_ne_closed _ _ _)
  | received => exact hclosed pcb hpcb hstate

/-- A `send` opens no connection that answers on a channel. -/
theorem awaitsEstab_of_tcpEffect (h : TcpEffect d ch calling resp i slot slot')
    (hclosed : ∀ pcb, slot.pcb = some pcb → pcb.connState = .CLOSED → pcb.onConnEstabCB = none)
    {rrChannel : Nat} (hawaits : slot'.pcb.any (awaitsEstab rrChannel) = true) :
    slot.pcb.any (awaitsEstab rrChannel) = true ∨
      Connects calling ∧ resp.retCode = some .WAIT_NEXT ∧
        d.socketOf ch = some { type := .TCP, index := i } := by
  cases h with
  | unchanged => exact .inl hawaits
  | released => cases hawaits
  | created _ _ hfresh =>
      have hsynSent := (awaitsEstab_eq_true_iff.mp hawaits).1
      cases hfresh.1.symm.trans hsynSent
  | called socket howner hcalled =>
      cases hcalled with
      | connect pcb addr port faddr fport hresp =>
          exact .inr ⟨⟨addr, rfl⟩, congrArg Response.retCode hresp, howner⟩
      | send buf flags addr port =>
          left
          obtain ⟨hsynSent, hcb⟩ := awaitsEstab_eq_true_iff.mp hawaits
          rw [send_onConnEstabCB] at hcb
          rw [send_connState] at hsynSent
          split at hsynSent
          · rename_i hstate
            cases (hclosed _ rfl hstate).symm.trans hcb
          · exact awaitsEstab_eq_true_iff.mpr ⟨hsynSent, hcb⟩
  | received => exact .inl hawaits

end Connections

end Calls

section Daemon

variable {d d' : Daemon} {c : Nat} {calling : Calling} {resp : Response}

/-- A channel keeps a socket that a call does not destroy. -/
theorem socketOf_of_effects (h : Effects d d' c calling resp) {ch : Nat} {ref : SocketRef}
    (howner : d.socketOf ch = some ref) (hkept : ¬ Expired d' ref) : d'.socketOf ch = some ref := by
  rcases eq_or_ne ch c with rfl | hne
  · rcases h.socketOf_self with heq | hreplaced
    · exact heq.trans howner
    · exact absurd (hreplaced.old ref howner) hkept
  · exact (h.socketOf_of_ne ch hne).trans howner

theorem CallbacksOwned.of_effects (hown : CallbacksOwned d) (h : Effects d d' c calling resp) :
    CallbacksOwned d' := by
  constructor
  · intro ref cb hcb
    have hold : d.socketOf cb.rrChannel = some ref := by
      have hslot : (d.socketAt ref).bind Socket.onAsyncNewPacket = some cb ∨
          Receives calling ∧ d.socketOf c = some ref ∧ cb.rrChannel = c := by
        rcases ref with ⟨_ | _, index⟩
        · exact callback_of_slotEffect (h.udp index) hcb
        · exact callback_of_slotEffect (h.tcp index) hcb
      rcases hslot with hold | ⟨-, howner, hrrChannel⟩
      · exact hown.packet ref cb hold
      · exact (congrArg d.socketOf hrrChannel).trans howner
    apply socketOf_of_effects h hold
    intro hexpired
    rcases ref with ⟨_ | _, index⟩
    · cases (congrArg
        (fun slot => slot.socket.bind Socket.onAsyncNewPacket) hexpired).symm.trans hcb
    · cases (congrArg
        (fun slot => slot.socket.bind Socket.onAsyncNewPacket) hexpired).symm.trans hcb
  · intro i ch hcb
    have hold : d.socketOf ch = some { type := .TCP, index := i } := by
      rcases cb_of_tcpEffect (h.tcp i) hcb with hold | ⟨-, howner, rfl⟩
      · exact hown.estab i ch hold
      · exact howner
    apply socketOf_of_effects h hold
    intro hexpired
    cases (congrArg (fun slot => slot.pcb.bind TcpPcb.onConnEstabCB) hexpired).symm.trans hcb
  · intro i pcb hpcb hstate
    exact closed_of_tcpEffect (h.tcp i) (hown.closed i) hpcb hstate

theorem owner_of_effects (h : Effects d d' c calling resp) {ch : Nat} {ref : SocketRef}
    (howner : d'.socketOf ch = some ref) (hlive : ¬ Expired d ref) : d.socketOf ch = some ref := by
  rcases eq_or_ne ch c with rfl | hne
  · rcases h.socketOf_self with heq | hreplaced
    · exact heq.symm.trans howner
    · exact absurd (hreplaced.new ref howner) hlive
  · exact (h.socketOf_of_ne ch hne).symm.trans howner

theorem eq_of_owner (hconn : Connected d) (h : Effects d d' c calling resp) {ch : Nat}
    {ref : SocketRef} (howner' : d'.socketOf ch = some ref) (howner : d.socketOf c = some ref) :
    c = ch := by
  by_contra hne
  exact hne (hconn.unshared c ch ref howner
    ((h.socketOf_of_ne ch (Ne.symm hne)).symm.trans howner'))

/-- A channel comes to wait for a packet only by its own `recvfrom`, which announces
the answer. -/
theorem waitsForPacket_of_effects (hconn : Connected d) (h : Effects d d' c calling resp) {ch : Nat}
    {ref : SocketRef} (howner : d'.socketOf ch = some ref)
    (hwaits : waitsForPacket d' ref = true) :
    (d.socketOf ch = some ref ∧ waitsForPacket d ref = true) ∨
      c = ch ∧ Receives calling ∧ resp.retCode = some .WAIT_NEXT ∧ d.socketOf ch = some ref := by
  have hslot : waitsForPacket d ref = true ∨
      Receives calling ∧ resp.retCode = some .WAIT_NEXT ∧ d.socketOf c = some ref := by
    rcases ref with ⟨_ | _, index⟩
    · exact waiting_of_slotEffect (h.udp index) hwaits
    · exact waiting_of_slotEffect (h.tcp index) hwaits
  rcases hslot with hold | ⟨hreceives, hwaitNext, howner'⟩
  · refine .inl ⟨owner_of_effects h howner ?_, hold⟩
    intro hexpired
    cases (not_waits_of_expired hexpired ch).1.symm.trans hold
  · obtain rfl := eq_of_owner hconn h howner howner'
    exact .inr ⟨rfl, hreceives, hwaitNext, howner'⟩

theorem waitsForEstab_of_effects (hconn : Connected d) (hown : CallbacksOwned d)
    (h : Effects d d' c calling resp) {ch : Nat} {ref : SocketRef}
    (howner : d'.socketOf ch = some ref) (hwaits : waitsForEstab d' ch ref = true) :
    (d.socketOf ch = some ref ∧ waitsForEstab d ch ref = true) ∨
      c = ch ∧ Connects calling ∧ resp.retCode = some .WAIT_NEXT ∧ d.socketOf ch = some ref := by
  rcases ref with ⟨_ | _, index⟩
  · cases hwaits
  · rcases awaitsEstab_of_tcpEffect (h.tcp index) (hown.closed index) hwaits with
      hold | ⟨hconnects, hwaitNext, howner'⟩
    · replace hold : waitsForEstab d ch { type := .TCP, index := index } = true := hold
      refine .inl ⟨owner_of_effects h howner ?_, hold⟩
      intro hexpired
      cases (not_waits_of_expired hexpired ch).2.symm.trans hold
    · obtain rfl := eq_of_owner hconn h howner howner'
      exact .inr ⟨rfl, hconnects, hwaitNext, howner'⟩

variable {events : List Event}

theorem socketOf_of_rxEffects (h : RxEffects d d' events) (ch : Nat) :
    d'.socketOf ch = d.socketOf ch := by
  rw [Daemon.socketOf, Daemon.rrChannel, h.rrChannels_eq, Daemon.socketOf, Daemon.rrChannel]

theorem waitsForPacket_of_rxEffects (h : RxEffects d d' events) (ref : SocketRef) :
    waitsForPacket d' ref = waitsForPacket d ref := by
  rcases ref with ⟨_ | _, index⟩
  · exact waiting_of_socketEffect (h.udp index)
  · exact waiting_of_socketEffect (h.tcp index)

theorem waitsForEstab_of_rxEffects (h : RxEffects d d' events) {ch : Nat} {ref : SocketRef}
    (hwaits : waitsForEstab d' ch ref = true) : waitsForEstab d ch ref = true := by
  rcases ref with ⟨_ | _, index⟩
  · cases hwaits
  · exact awaitsEstab_of_pcbEffect (h.pcb index) hwaits

theorem CallbacksOwned.of_rxEffects (hown : CallbacksOwned d) (h : RxEffects d d' events) :
    CallbacksOwned d' := by
  constructor
  · intro ref cb hcb
    rw [socketOf_of_rxEffects h]
    apply hown.packet
    rcases ref with ⟨_ | _, index⟩
    · exact (callback_of_socketEffect (h.udp index)).symm.trans hcb
    · exact (callback_of_socketEffect (h.tcp index)).symm.trans hcb
  · intro i ch hcb
    rw [socketOf_of_rxEffects h]
    exact hown.estab i ch ((cb_of_pcbEffect (h.pcb i)).symm.trans hcb)
  · intro i pcb hpcb hstate
    have heffect := h.pcb i
    rw [hpcb] at heffect
    generalize hbefore : (d.tcpSlot i).pcb = before at heffect
    cases heffect with
    | unchanged hconnState hcb =>
        rcases before with _ | before
        · cases hcb
        · have hclosed := (Option.some.inj hconnState).symm.trans hstate
          exact (Option.some.inj hcb).trans (hown.closed i before hbefore hclosed)
    | established _ hestablished => cases hestablished.symm.trans hstate

theorem socketOf_setSocketAt (d : Daemon) (ref : SocketRef) (so : Socket) (ch : Nat) :
    (d.setSocketAt ref so).socketOf ch = d.socketOf ch := by
  rcases ref with ⟨_ | _, index⟩ <;> rfl

theorem CallbacksOwned.setSocketAt (hown : CallbacksOwned d) {ref : SocketRef} {so so' : Socket}
    (hso : d.socketAt ref = some so) (hcb : so'.onAsyncNewPacket = so.onAsyncNewPacket) :
    CallbacksOwned (d.setSocketAt ref so') := by
  have hsocketOf := socketOf_setSocketAt d ref so'
  constructor
  · intro ref' cb hset
    rw [hsocketOf]
    apply hown.packet
    rcases socketAt_setSocketAt_cases d ref ref' so' with heq | ⟨rfl, heq⟩
    · rw [← heq]
      exact hset
    · rw [heq, Option.bind_some, hcb] at hset
      rw [hso]
      exact hset
  · intro i ch hset
    rw [hsocketOf]
    rw [pcb_setSocketAt] at hset
    exact hown.estab i ch hset
  · intro i pcb hpcb hstate
    rw [pcb_setSocketAt] at hpcb
    exact hown.closed i pcb hpcb hstate

theorem waitsForPacket_setSocketAt {ref ref' : SocketRef} {so so' : Socket}
    (hso : d.socketAt ref = some so) (hwaiting : so'.waiting = true → so.waiting = true)
    (h : waitsForPacket (d.setSocketAt ref so') ref' = true) : waitsForPacket d ref' = true := by
  unfold waitsForPacket at h ⊢
  rcases socketAt_setSocketAt_cases d ref ref' so' with heq | ⟨rfl, heq⟩
  · rw [← heq]
    exact h
  · rw [heq] at h
    rw [hso]
    exact hwaiting h

theorem waitsForEstab_setSocketAt (d : Daemon) (ref : SocketRef) (so : Socket) (ch : Nat) :
    waitsForEstab (d.setSocketAt ref so) ch = waitsForEstab d ch := by
  funext ref'
  unfold waitsForEstab
  rw [pcb_setSocketAt]

/-- Two states of the daemon between which no socket and no PCB changes. -/
structure SameSockets (d d' : Daemon) : Prop where
  stack : d'.stack = d.stack
  socketOf : ∀ ch, d'.socketOf ch = d.socketOf ch

section Same

variable (h : SameSockets d d')

include h

theorem SameSockets.socketAt (ref : SocketRef) : d'.socketAt ref = d.socketAt ref := by
  unfold Daemon.socketAt Daemon.udpSlot Daemon.tcpSlot
  rw [h.stack]

theorem SameSockets.tcpSlot (i : Nat) : d'.tcpSlot i = d.tcpSlot i := by
  unfold Daemon.tcpSlot
  rw [h.stack]

theorem SameSockets.waitsForPacket : Callbacks.waitsForPacket d' = Callbacks.waitsForPacket d := by
  funext ref
  unfold Callbacks.waitsForPacket
  rw [h.socketAt]

theorem SameSockets.waitsForEstab (ch : Nat) :
    Callbacks.waitsForEstab d' ch = Callbacks.waitsForEstab d ch := by
  funext ref
  unfold Callbacks.waitsForEstab
  rw [h.tcpSlot]

theorem SameSockets.connected (hconn : Connected d) : Connected d' := by
  refine hconn.keeps ⟨h.socketOf, ?_⟩
  intro ref halive
  unfold Alive Daemon.udpSlot Daemon.tcpSlot at halive ⊢
  rw [h.stack]
  exact halive

theorem CallbacksOwned.of_sameSockets (hown : CallbacksOwned d) : CallbacksOwned d' := by
  constructor
  · intro ref cb hcb
    rw [h.socketAt] at hcb
    rw [h.socketOf]
    exact hown.packet ref cb hcb
  · intro i ch hcb
    rw [h.tcpSlot] at hcb
    rw [h.socketOf]
    exact hown.estab i ch hcb
  · intro i pcb hpcb hstate
    rw [h.tcpSlot] at hpcb
    exact hown.closed i pcb hpcb hstate

end Same

end Daemon

end MuQuinet.Callbacks
