import MuQuinet.Lib.Outcomes
import MuQuinet.RequestHandler

namespace MuQuinet.ChannelSockets

open MuQuinet.Lib.Outcomes
open MuQuinet.Buffers
open MuQuinet.IpHeaders
open MuQuinet.IpLayer
open MuQuinet.Pcbs
open MuQuinet.RequestHandler
open MuQuinet.Rpc
open MuQuinet.Sockets
open MuQuinet.TcpLayer
open MuQuinet.UdpLayer
open MuQuinet.Wire

def HasSocket (d : Daemon) (ch : Nat) (ref : SocketRef) (so : Socket) : Prop :=
  d.socketOf ch = some ref ∧ d.socketAt ref = some so

def LiveSlot {P : Type} (type : SocketType) (slot : Slot P) : Prop :=
  ∃ pcb so, slot = { pcb := some pcb, socket := some so } ∧ so.type = type

def Alive (d : Daemon) (ref : SocketRef) : Prop :=
  match ref.type with
  | .UDP => LiveSlot .UDP (d.udpSlot ref.index)
  | .TCP => LiveSlot .TCP (d.tcpSlot ref.index)

/-- Every channel that has had a socket owns a live one, and no other channel
owns the same. -/
structure Connected (d : Daemon) : Prop where
  alive : ∀ ch ref, d.socketOf ch = some ref → Alive d ref
  unshared : ∀ ch ch' ref, d.socketOf ch = some ref → d.socketOf ch' = some ref → ch = ch'

theorem socket_eq_ok_iff {d : Daemon} {ch : Nat} {ref : SocketRef} {so : Socket} :
    d.socket ch = .ok (ref, so) ↔ HasSocket d ch ref so := by
  unfold Daemon.socket HasSocket
  rcases d.socketOf ch with _ | ref'
  · simp
  · constructor
    · dsimp only
      rcases hat : d.socketAt ref' with _ | so'
      · rintro ⟨⟩
      · rintro ⟨⟩
        exact ⟨rfl, hat⟩
    · rintro ⟨⟨⟩, hat⟩
      simp only [hat]

/-- The socket of a channel is of the protocol whose list it is in, and its PCB is
alive. -/
theorem Connected.udp {d : Daemon} (h : Connected d) {ch : Nat} {ref : SocketRef} {so : Socket}
    (hso : HasSocket d ch ref so) (htype : so.type = .UDP) :
    ref.type = .UDP ∧ ∃ pcb, d.udpSlot ref.index = { pcb := some pcb, socket := some so } := by
  have halive := h.alive ch ref hso.1
  have hat := hso.2
  rcases ref with ⟨_ | _, index⟩
  · obtain ⟨pcb, so', hslot, -⟩ := halive
    simp only [Daemon.socketAt, hslot, Option.some.injEq] at hat
    exact ⟨rfl, pcb, hat ▸ hslot⟩
  · obtain ⟨pcb, so', hslot, htype'⟩ := halive
    simp only [Daemon.socketAt, hslot, Option.some.injEq] at hat
    rw [hat, htype] at htype'
    cases htype'

theorem Connected.tcp {d : Daemon} (h : Connected d) {ch : Nat} {ref : SocketRef} {so : Socket}
    (hso : HasSocket d ch ref so) (htype : so.type = .TCP) :
    ref.type = .TCP ∧ ∃ pcb, d.tcpSlot ref.index = { pcb := some pcb, socket := some so } := by
  have halive := h.alive ch ref hso.1
  have hat := hso.2
  rcases ref with ⟨_ | _, index⟩
  · obtain ⟨pcb, so', hslot, htype'⟩ := halive
    simp only [Daemon.socketAt, hslot, Option.some.injEq] at hat
    rw [hat, htype] at htype'
    cases htype'
  · obtain ⟨pcb, so', hslot, -⟩ := halive
    simp only [Daemon.socketAt, hslot, Option.some.injEq] at hat
    exact ⟨rfl, pcb, hat ▸ hslot⟩

theorem udpPcb_of_pcb {d : Daemon} {i : Nat} {pcb : Pcb} (h : (d.udpSlot i).pcb = some pcb) :
    d.udpPcb i = .ok pcb := by
  simp only [Daemon.udpPcb, h]

theorem tcpPcb_of_pcb {d : Daemon} {i : Nat} {pcb : TcpPcb} (h : (d.tcpSlot i).pcb = some pcb) :
    d.tcpPcb i = .ok pcb := by
  simp only [Daemon.tcpPcb, h]

theorem udpPcb_of_slot {d : Daemon} {i : Nat} {pcb : Pcb} {so : Option Socket}
    (h : d.udpSlot i = { pcb := some pcb, socket := so }) : d.udpPcb i = .ok pcb :=
  udpPcb_of_pcb (congrArg Slot.pcb h)

theorem tcpPcb_of_slot {d : Daemon} {i : Nat} {pcb : TcpPcb} {so : Option Socket}
    (h : d.tcpSlot i = { pcb := some pcb, socket := so }) : d.tcpPcb i = .ok pcb :=
  tcpPcb_of_pcb (congrArg Slot.pcb h)

section Slots

variable {P : Type} {type : SocketType} {pcbs : List (Slot P)}

theorem slot_index_lt {i : Nat} {so : Socket}
    (h : (pcbs.getD i .expired).socket = some so) : i < pcbs.length := by
  by_contra hge
  rw [List.getD_eq_default _ _ (Nat.not_lt.mp hge)] at h
  cases h

theorem LiveSlot.set {i j : Nat} {slot : Slot P} (h : LiveSlot type (pcbs.getD j .expired))
    (hslot : i = j → LiveSlot type slot) : LiveSlot type ((pcbs.set i slot).getD j .expired) := by
  rcases eq_or_ne i j with rfl | hne
  · rcases Nat.lt_or_ge i pcbs.length with hlt | hge
    · simpa [hlt] using hslot rfl
    · rwa [List.set_eq_of_length_le hge]
  · simpa [hne] using h

theorem LiveSlot.index_lt {i : Nat} (h : LiveSlot type (pcbs.getD i .expired)) :
    i < pcbs.length := by
  obtain ⟨pcb, so, hslot, -⟩ := h
  have hso : (pcbs.getD i .expired).socket = some so := by
    rw [hslot]
  exact slot_index_lt hso

theorem LiveSlot.append {i : Nat} (h : LiveSlot type (pcbs.getD i .expired))
    (more : List (Slot P)) : LiveSlot type ((pcbs ++ more).getD i .expired) := by
  rwa [List.getD_append _ _ _ _ h.index_lt]

theorem LiveSlot.withSocket {slot : Slot P} {so so' : Socket} (h : LiveSlot type slot)
    (hso : slot.socket = some so) (htype : so'.type = so.type) :
    LiveSlot type { slot with socket := some so' } := by
  obtain ⟨pcb, _, rfl, hlive⟩ := h
  obtain rfl := Option.some.inj hso
  exact ⟨pcb, so', rfl, htype.trans hlive⟩

theorem LiveSlot.withPcb {slot : Slot P} (h : LiveSlot type slot) (pcb : P) :
    LiveSlot type { slot with pcb := some pcb } := by
  obtain ⟨_, so, rfl, hlive⟩ := h
  exact ⟨pcb, so, rfl, hlive⟩

theorem LiveSlot.deliver {slot : Slot P} (h : LiveSlot type slot) (peeraddr : SockaddrIn)
    (skbuf : SocketBuffer) (next : List SocketBuffer) :
    LiveSlot type (slot.deliver peeraddr skbuf next).1 := by
  obtain ⟨pcb, so, rfl, hlive⟩ := h
  exact ⟨pcb, so.putToRecvQ peeraddr (skbuf :: next), rfl, (so.type_putToRecvQ _ _).trans hlive⟩

end Slots

theorem liveSlot_tcp_recv {type : SocketType} {slot : Slot TcpPcb} (h : LiveSlot type slot)
    (pcb : TcpPcb) (peerAddr : SockaddrIn) (skbuf : SocketBuffer) (next : List SocketBuffer) :
    LiveSlot type (TcpPcb.recv slot pcb peerAddr skbuf next).1 := by
  unfold TcpPcb.recv
  split
  · exact h.withPcb _
  · dsimp only
    have hdeliver := h.deliver peerAddr (TcpPcb.locatePayload skbuf) next
    split
    · split
      · exact hdeliver
      · exact hdeliver.withPcb _
    · exact h.withPcb _
  · exact h

theorem liveSlot_udp_rx {udp : Udp} {type : SocketType} {i : Nat}
    (h : LiveSlot type (udp.pcbs.getD i .expired)) (uninit : SockaddrIn) (skbuf : SocketBuffer)
    (next : List SocketBuffer) :
    LiveSlot type ((udp.rx uninit skbuf next).1.pcbs.getD i .expired) := by
  unfold Udp.rx
  dsimp only
  split
  · exact h
  · apply h.set
    rintro rfl
    exact h.deliver _ _ _

theorem liveSlot_tcp_rx {tcp : Tcp} {type : SocketType} {i : Nat}
    (h : LiveSlot type (tcp.pcbs.getD i .expired)) (uninit : SockaddrIn) (skbuf : SocketBuffer)
    (next : List SocketBuffer) :
    LiveSlot type ((tcp.rx uninit skbuf next).1.pcbs.getD i .expired) := by
  unfold Tcp.rx
  dsimp only
  split
  · exact h
  · split
    · exact h
    · apply h.set
      rintro rfl
      exact liveSlot_tcp_recv h _ _ _ _

structure Keeps (d d' : Daemon) : Prop where
  socketOf : ∀ ch, d'.socketOf ch = d.socketOf ch
  alive : ∀ ref, Alive d ref → Alive d' ref

theorem Keeps.refl (d : Daemon) : Keeps d d :=
  ⟨fun _ => rfl, fun _ h => h⟩

theorem Keeps.trans {d d' d'' : Daemon} (h : Keeps d d') (h' : Keeps d' d'') : Keeps d d'' :=
  ⟨fun ch => (h'.socketOf ch).trans (h.socketOf ch), fun ref ha => h'.alive ref (h.alive ref ha)⟩

theorem Connected.keeps {d d' : Daemon} (h : Connected d) (hkeeps : Keeps d d') :
    Connected d' := by
  constructor
  · intro ch ref href
    rw [hkeeps.socketOf] at href
    exact hkeeps.alive ref (h.alive ch ref href)
  · intro ch ch' ref href href'
    rw [hkeeps.socketOf] at href href'
    exact h.unshared ch ch' ref href href'

theorem keeps_setUdpSlot {d : Daemon} {i : Nat} {slot : Slot Pcb}
    (h : LiveSlot .UDP (d.udpSlot i) → LiveSlot .UDP slot) : Keeps d (d.setUdpSlot i slot) := by
  refine ⟨fun _ => rfl, ?_⟩
  rintro ⟨_ | _, index⟩ halive
  · refine LiveSlot.set halive ?_
    rintro rfl
    exact h halive
  · exact halive

theorem keeps_setTcpSlot {d : Daemon} {i : Nat} {slot : Slot TcpPcb}
    (h : LiveSlot .TCP (d.tcpSlot i) → LiveSlot .TCP slot) : Keeps d (d.setTcpSlot i slot) := by
  refine ⟨fun _ => rfl, ?_⟩
  rintro ⟨_ | _, index⟩ halive
  · exact halive
  · refine LiveSlot.set halive ?_
    rintro rfl
    exact h halive

theorem socketAt_setSocketAt {d : Daemon} {ref : SocketRef} {so : Socket}
    (h : d.socketAt ref = some so) (so' : Socket) :
    (d.setSocketAt ref so').socketAt ref = some so' := by
  rcases ref with ⟨_ | _, index⟩
  · have hlt : index < d.stack.udp.pcbs.length := slot_index_lt h
    simp [Daemon.setSocketAt, Daemon.socketAt, Daemon.setUdpSlot, Daemon.udpSlot, hlt]
  · have hlt : index < d.stack.tcp.pcbs.length := slot_index_lt h
    simp [Daemon.setSocketAt, Daemon.socketAt, Daemon.setTcpSlot, Daemon.tcpSlot, hlt]

theorem keeps_setSocketAt {d : Daemon} {ref : SocketRef} {so so' : Socket}
    (hso : d.socketAt ref = some so) (htype : so'.type = so.type) :
    Keeps d (d.setSocketAt ref so') := by
  rcases ref with ⟨_ | _, index⟩
  · exact keeps_setUdpSlot fun hlive => hlive.withSocket hso htype
  · exact keeps_setTcpSlot fun hlive => hlive.withSocket hso htype

theorem rrChannel_setRRChannel_of_ne {d : Daemon} {ch ch' : Nat} {rr : Option ReqRespChannel}
    (hne : ch ≠ ch') : (d.setRRChannel ch rr).rrChannel ch' = d.rrChannel ch' := by
  simp [Daemon.rrChannel, Daemon.setRRChannel, hne]

theorem rrChannel_setRRChannel_self (d : Daemon) (ch : Nat) (rr : Option ReqRespChannel) :
    (d.setRRChannel ch rr).rrChannel ch = rr ∨
      d.rrChannel ch = none ∧ (d.setRRChannel ch rr).rrChannel ch = none := by
  rcases Nat.lt_or_ge ch d.rrChannels.length with hlt | hge
  · left
    simp [Daemon.rrChannel, Daemon.setRRChannel, hlt]
  · right
    simp [Daemon.rrChannel, Daemon.setRRChannel, hge]

theorem keeps_setRRChannel {d : Daemon} {ch : Nat} {f : ReqRespChannel → ReqRespChannel}
    (h : ∀ rr, (f rr).socket = rr.socket) :
    Keeps d (d.setRRChannel ch ((d.rrChannel ch).map f)) := by
  refine ⟨?_, fun _ halive => halive⟩
  intro ch'
  rcases eq_or_ne ch ch' with rfl | hne
  · unfold Daemon.socketOf
    rcases rrChannel_setRRChannel_self d ch ((d.rrChannel ch).map f) with heq | ⟨hnone, heq⟩
    · rw [heq]
      rcases d.rrChannel ch with _ | rr
      · rfl
      · exact h rr
    · rw [heq, hnone]
  · rw [Daemon.socketOf, rrChannel_setRRChannel_of_ne hne, Daemon.socketOf]

/-- A call on a PCB leaves the PCB and the port counter of its protocol changed. -/
def udpCalled (d : Daemon) (i : Nat) (port : UInt16) (pcb : Pcb) : Daemon :=
  (d.setUdpSlot i { d.udpSlot i with pcb := some pcb }).setUdpPort port

def tcpCalled (d : Daemon) (i : Nat) (port : UInt16) (pcb : TcpPcb) : Daemon :=
  (d.setTcpSlot i { d.tcpSlot i with pcb := some pcb }).setTcpPort port

theorem pcb_index_lt {P : Type} {pcbs : List (Slot P)} {i : Nat} {pcb : P}
    (h : (pcbs.getD i .expired).pcb = some pcb) : i < pcbs.length := by
  by_contra hge
  rw [List.getD_eq_default _ _ (Nat.not_lt.mp hge)] at h
  cases h

theorem tcpSlot_tcpCalled {d : Daemon} {i : Nat} {pcb : TcpPcb}
    (h : (d.tcpSlot i).pcb = some pcb) (port : UInt16) (pcb' : TcpPcb) :
    (tcpCalled d i port pcb').tcpSlot i = { d.tcpSlot i with pcb := some pcb' } := by
  have hlt : i < d.stack.tcp.pcbs.length := pcb_index_lt h
  simp [tcpCalled, Daemon.setTcpSlot, Daemon.setTcpPort, Daemon.tcpSlot, hlt]

theorem keeps_udpCalled (d : Daemon) (i : Nat) (port : UInt16) (pcb : Pcb) :
    Keeps d (udpCalled d i port pcb) :=
  (keeps_setUdpSlot fun hlive => hlive.withPcb pcb).trans ⟨fun _ => rfl, fun _ h => h⟩

theorem keeps_tcpCalled (d : Daemon) (i : Nat) (port : UInt16) (pcb : TcpPcb) :
    Keeps d (tcpCalled d i port pcb) :=
  (keeps_setTcpSlot fun hlive => hlive.withPcb pcb).trans ⟨fun _ => rfl, fun _ h => h⟩

/-- The exits of `connectCall` on a socket. -/
inductive ConnectExit (d : Daemon) (ch : Nat) (ref : SocketRef) (so : Socket) :
    Daemon → Response → Prop
  | udp {pcb pcb' : Pcb} (port : UInt16) : so.type = .UDP → d.udpPcb ref.index = .ok pcb →
      ConnectExit d ch ref so (udpCalled d ref.index port pcb')
        { returning := some (.connectCall 0 none), retCode := none }
  | inProgress : so.type = .TCP → so.nonblocking = true →
      ConnectExit d ch ref so d (retOk (.recvfromCall EINPROGRESS none none none))
  | waitEstab {pcb : TcpPcb} (port port' : UInt16) (faddr : UInt32) (fport : UInt16) :
      so.type = .TCP → so.nonblocking = false → d.tcpPcb ref.index = .ok pcb →
      ConnectExit d ch ref so
        (tcpCalled d ref.index port'
          (TcpPcb.connect port { pcb with onConnEstabCB := some ch } faddr fport).2.1)
        { returning := none, retCode := some .WAIT_NEXT }

theorem connectCall_exit {d d' : Daemon} {ch : Nat} {addr : List UInt8} {resp : Response}
    (h : connectCall d ch addr = .ok (d', resp)) :
    ∃ ref so, HasSocket d ch ref so ∧ ConnectExit d ch ref so d' resp := by
  simp only [connectCall, bind_eq_ok_iff] at h
  obtain ⟨dest, -, ⟨ref, so⟩, hsocket, h⟩ := h
  refine ⟨ref, so, socket_eq_ok_iff.mp hsocket, ?_⟩
  split at h
  · rename_i htype
    obtain ⟨pcb, hpcb, ⟨⟩⟩ := bind_eq_ok_iff.mp h
    exact .udp _ htype hpcb
  · rename_i htype
    split at h
    · rename_i hnonblocking
      cases h
      exact .inProgress htype hnonblocking
    · rename_i hblocking
      obtain ⟨pcb, hpcb, ⟨⟩⟩ := bind_eq_ok_iff.mp h
      exact .waitEstab _ _ _ _ htype (Bool.eq_false_iff.mpr hblocking) hpcb

theorem connectCall_keeps {d d' : Daemon} {ch : Nat} {addr : List UInt8} {resp : Response}
    (h : connectCall d ch addr = .ok (d', resp)) : Keeps d d' := by
  obtain ⟨ref, so, -, hexit⟩ := connectCall_exit h
  cases hexit with
  | udp => exact keeps_udpCalled _ _ _ _
  | inProgress => exact .refl d
  | waitEstab => exact keeps_tcpCalled _ _ _ _

/-- The exits of `sendtoCall` on a socket. -/
inductive SendtoExit (d : Daemon) (ref : SocketRef) (so : Socket) (buf : List UInt8) :
    Option (List UInt8) → Daemon → Response → Prop
  | udpSendto {addr : List UInt8} {dest : SockaddrIn} {pcb : Pcb}
      {sent : UInt16 × Pcb × Int × UdpDatagram} :
        so.type = .UDP → destAddr addr = .ok dest → d.udpPcb ref.index = .ok pcb →
      sent = UdpPcb.sendto d.stack.udp.port pcb dest.sinAddr dest.sinPort buf →
      SendtoExit d ref so buf (some addr) (udpCalled d ref.index sent.1 sent.2.1)
        (retOk (.sendtoCall (.ofInt sent.2.2.1) none))
  | udpSend {pcb : Pcb} {sent : UInt16 × Pcb × Int × UdpDatagram} : so.type = .UDP →
      d.udpPcb ref.index = .ok pcb → sent = UdpPcb.send d.stack.udp.port pcb buf →
      SendtoExit d ref so buf none (udpCalled d ref.index sent.1 sent.2.1)
        (retOk (.sendtoCall (.ofInt sent.2.2.1) none))
  | tcpSend {addr : Option (List UInt8)} {pcb : TcpPcb}
      {sent : UInt16 × TcpPcb × Int × Option TcpSegment} : so.type = .TCP →
      d.tcpPcb ref.index = .ok pcb → sent = TcpPcb.send d.stack.tcp.port pcb buf →
      SendtoExit d ref so buf addr (tcpCalled d ref.index sent.1 sent.2.1)
        (retOk (.sendtoCall (.ofInt sent.2.2.1) none))

theorem sendtoCall_exit {d d' : Daemon} {ch : Nat} {buf : List UInt8}
    {addr : Option (List UInt8)} {resp : Response}
    (h : sendtoCall d ch buf addr = .ok (d', resp)) :
    ∃ ref so, HasSocket d ch ref so ∧ SendtoExit d ref so buf addr d' resp := by
  simp only [sendtoCall, bind_eq_ok_iff] at h
  obtain ⟨⟨ref, so⟩, hsocket, h⟩ := h
  refine ⟨ref, so, socket_eq_ok_iff.mp hsocket, ?_⟩
  split at h
  · rename_i htype
    split at h
    · obtain ⟨dest, hdest, pcb, hpcb, sent, hsent, ⟨⟩⟩ := by simpa only [bind_eq_ok_iff] using h
      exact .udpSendto htype hdest hpcb (Except.ok.inj hsent).symm
    · obtain ⟨pcb, hpcb, sent, hsent, ⟨⟩⟩ := by simpa only [bind_eq_ok_iff] using h
      exact .udpSend htype hpcb (Except.ok.inj hsent).symm
  · rename_i htype
    obtain ⟨pcb, hpcb, ⟨⟩⟩ := bind_eq_ok_iff.mp h
    exact .tcpSend htype hpcb rfl

theorem sendtoCall_keeps {d d' : Daemon} {ch : Nat} {buf : List UInt8}
    {addr : Option (List UInt8)} {resp : Response}
    (h : sendtoCall d ch buf addr = .ok (d', resp)) : Keeps d d' := by
  obtain ⟨ref, so, -, hexit⟩ := sendtoCall_exit h
  cases hexit with
  | udpSendto => exact keeps_udpCalled _ _ _ _
  | udpSend => exact keeps_udpCalled _ _ _ _
  | tcpSend => exact keeps_tcpCalled _ _ _ _

theorem tryTakeFromRecvQ_fields {so so' : Socket} {entry : SockaddrIn × List SocketBuffer}
    (h : so.tryTakeFromRecvQ = some (entry, so')) :
    so'.type = so.type ∧ so'.onAsyncNewPacket = so.onAsyncNewPacket ∧ so'.waiting = so.waiting := by
  unfold Socket.tryTakeFromRecvQ at h
  split at h
  · cases h
  · cases h
    exact ⟨rfl, rfl, rfl⟩

/-- The exits of `recvfromCall` on a socket. -/
inductive RecvfromExit (so : Socket) (ch : Nat) (requireAddr : Bool) : Socket → Response → Prop
  | packet {entry : SockaddrIn × List SocketBuffer} {rest : List (SockaddrIn × List SocketBuffer)}
      {resp : Response} : so.recvQ = entry :: rest → packetResponse requireAddr entry = .ok resp →
      RecvfromExit so ch requireAddr { so with recvQ := rest } resp
  | again : so.recvQ = [] → so.nonblocking = true →
      RecvfromExit so ch requireAddr so (retOk (.recvfromCall EAGAIN none none none))
  | waitNext {cb : OnAsyncNewPacket} : so.recvQ = [] → so.nonblocking = false → cb.rrChannel = ch →
      RecvfromExit so ch requireAddr ((so.setOnAsyncNewPacketCB cb).setWaiting true)
        { returning := none, retCode := some .WAIT_NEXT }

theorem recvfrom_exit {so so' : Socket} {ch : Nat} {requireAddr : Bool} {resp : Response}
    (h : recvfrom so ch requireAddr = .ok (so', resp)) :
    RecvfromExit so ch requireAddr so' resp := by
  unfold recvfrom Socket.tryTakeFromRecvQ at h
  rcases hqueue : so.recvQ with _ | ⟨entry, rest⟩
  · simp only [hqueue] at h
    split at h
    · rename_i hnonblocking
      cases h
      exact .again hqueue hnonblocking
    · rename_i hblocking
      cases h
      refine .waitNext hqueue (Bool.eq_false_iff.mpr hblocking) ?_
      cases so.type <;> rfl
  · simp only [hqueue] at h
    obtain ⟨_, hresp, ⟨⟩⟩ := map_eq_ok_iff.mp h
    exact .packet hqueue hresp

theorem recvfrom_type {so so' : Socket} {ch : Nat} {requireAddr : Bool} {resp : Response}
    (h : recvfrom so ch requireAddr = .ok (so', resp)) : so'.type = so.type := by
  cases recvfrom_exit h with
  | packet => rfl
  | again => rfl
  | waitNext => rfl

theorem sChannelReadCb_type {so so' : Socket} {resp : Option Response}
    (h : sChannelReadCb so = .ok (so', resp)) : so'.type = so.type := by
  unfold sChannelReadCb at h
  dsimp only at h
  split at h
  · split at h
    · cases h
      rfl
    · obtain ⟨⟨taken, sent⟩, hcb, ⟨⟩⟩ := map_eq_ok_iff.mp h
      unfold onAsyncNewPacket at hcb
      split at hcb
      · cases hcb
      · rename_i entry taken' htake
        obtain ⟨_, -, hcb⟩ := bind_eq_ok_iff.mp hcb
        obtain ⟨_, -, ⟨⟩⟩ := bind_eq_ok_iff.mp hcb
        exact ((tryTakeFromRecvQ_fields htake).1 :)
  · cases h
    rfl

theorem recvfromCall_keeps {d d' : Daemon} {ch : Nat} {requireAddr : Bool} {resp : Response}
    (h : recvfromCall d ch requireAddr = .ok (d', resp)) : Keeps d d' := by
  simp only [recvfromCall, bind_eq_ok_iff] at h
  obtain ⟨⟨ref, so⟩, hsocket, ⟨so', _⟩, hrecvfrom, ⟨⟩⟩ := h
  exact keeps_setSocketAt (socket_eq_ok_iff.mp hsocket).2 (recvfrom_type hrecvfrom)

theorem alive_release {d : Daemon} {ref : SocketRef} {old : Option SocketRef}
    (h : Alive d ref) (hne : old ≠ some ref) : Alive (d.release old) ref := by
  rcases old with _ | ⟨_ | _, index⟩
  · exact h
  · rcases ref with ⟨_ | _, index'⟩
    · refine LiveSlot.set h ?_
      rintro rfl
      exact absurd rfl hne
    · exact h
  · rcases ref with ⟨_ | _, index'⟩
    · exact h
    · refine LiveSlot.set h ?_
      rintro rfl
      exact absurd rfl hne

theorem rrChannels_release (d : Daemon) (old : Option SocketRef) :
    (d.release old).rrChannels = d.rrChannels := by
  rcases old with _ | ⟨_ | _, index⟩ <;> rfl

/-- A channel lets go of its socket, in favour of a new one if it is given one. -/
theorem Connected.replace {d created : Daemon} (h : Connected d) (hkeeps : Keeps d created)
    (ch : Nat) {rr : Option ReqRespChannel}
    (hfresh : ∀ ref, rr.bind ReqRespChannel.socket = some ref → Alive created ref ∧ ¬ Alive d ref) :
    Connected ((created.release (d.socketOf ch)).setRRChannel ch rr) := by
  generalize hreplaced : (created.release (d.socketOf ch)).setRRChannel ch rr = d'
  have hself : ∀ ref, d'.socketOf ch = some ref → Alive created ref ∧ ¬ Alive d ref := by
    intro ref href
    subst hreplaced
    rcases rrChannel_setRRChannel_self (created.release (d.socketOf ch)) ch rr with heq | ⟨-, heq⟩
    · rw [Daemon.socketOf, heq] at href
      exact hfresh ref href
    · rw [Daemon.socketOf, heq] at href
      cases href
  have hother : ∀ ch', ch ≠ ch' → d'.socketOf ch' = d.socketOf ch' := by
    intro ch' hne
    subst hreplaced
    rw [← hkeeps.socketOf ch', Daemon.socketOf, rrChannel_setRRChannel_of_ne hne, Daemon.rrChannel,
      rrChannels_release]
    rfl
  have hreleased : ∀ ref, Alive created ref → d.socketOf ch ≠ some ref → Alive d' ref := by
    intro ref halive hne
    subst hreplaced
    exact alive_release halive hne
  constructor
  · intro ch' ref href
    rcases eq_or_ne ch ch' with rfl | hne
    · obtain ⟨halive, hdead⟩ := hself ref href
      exact hreleased ref halive fun hold => hdead (h.alive ch ref hold)
    · rw [hother ch' hne] at href
      refine hreleased ref (hkeeps.alive ref (h.alive ch' ref href)) ?_
      intro hold
      exact hne (h.unshared ch ch' ref hold href)
  · intro ch₁ ch₂ ref href₁ href₂
    rcases eq_or_ne ch ch₁ with rfl | hne₁
    · rcases eq_or_ne ch ch₂ with rfl | hne₂
      · rfl
      · rw [hother ch₂ hne₂] at href₂
        exact absurd (h.alive ch₂ ref href₂) (hself ref href₁).2
    · rw [hother ch₁ hne₁] at href₁
      rcases eq_or_ne ch ch₂ with rfl | hne₂
      · exact absurd (h.alive ch₁ ref href₁) (hself ref href₂).2
      · rw [hother ch₂ hne₂] at href₂
        exact h.unshared ch₁ ch₂ ref href₁ href₂

theorem Connected.removeRRChannel {d : Daemon} (h : Connected d) (ch : Nat) :
    Connected (d.removeRRChannel ch) :=
  h.replace (.refl d) ch fun _ hnone => nomatch hnone

theorem getD_length_append {P : Type} (pcbs : List (Slot P)) (slot : Slot P) :
    (pcbs ++ [slot]).getD pcbs.length .expired = slot := by
  simp

/-- A new PCB goes to the end of the list, where no channel's socket is. -/
theorem keeps_newUdpPcb (d : Daemon) (so : Socket) :
    Keeps d { d with stack.udp := d.stack.udp.newPcb d.stackAddr so } := by
  refine ⟨fun _ => rfl, ?_⟩
  rintro ⟨_ | _, index⟩ halive
  · exact LiveSlot.append halive _
  · exact halive

theorem keeps_newTcpPcb (d : Daemon) (pcb : TcpPcb) (so : Socket) :
    Keeps d { d with stack.tcp := d.stack.tcp.newPcb pcb so } := by
  refine ⟨fun _ => rfl, ?_⟩
  rintro ⟨_ | _, index⟩ halive
  · exact halive
  · exact LiveSlot.append halive _

theorem fresh_newUdpPcb (d : Daemon) {so : Socket} (htype : so.type = .UDP) :
    let ref : SocketRef := { type := .UDP, index := d.stack.udp.pcbs.length }
    Alive { d with stack.udp := d.stack.udp.newPcb d.stackAddr so } ref ∧ ¬ Alive d ref := by
  constructor
  · exact ⟨_, so, getD_length_append _ _, htype⟩
  · intro halive
    exact Nat.lt_irrefl _ (LiveSlot.index_lt halive)

theorem fresh_newTcpPcb (d : Daemon) (pcb : TcpPcb) {so : Socket} (htype : so.type = .TCP) :
    let ref : SocketRef := { type := .TCP, index := d.stack.tcp.pcbs.length }
    Alive { d with stack.tcp := d.stack.tcp.newPcb pcb so } ref ∧ ¬ Alive d ref := by
  constructor
  · exact ⟨pcb, so, getD_length_append _ _, htype⟩
  · intro halive
    exact Nat.lt_irrefl _ (LiveSlot.index_lt halive)

theorem socket_setSocket {rr : Option ReqRespChannel} {new ref : SocketRef}
    (h : (rr.map fun rr => { rr with socket := some new }).bind ReqRespChannel.socket = some ref) :
    new = ref := by
  rcases rr with _ | rr
  · cases h
  · exact Option.some.inj h

theorem socketCall_connected {d d' : Daemon} {mem : Uninit} {ch : Nat} {domain type : Int32}
    {resp : Response} (h : Connected d)
    (hcall : socketCall d mem ch domain type = .ok (d', resp)) : Connected d' := by
  unfold socketCall at hcall
  split at hcall
  · cases hcall
  · split at hcall
    · cases hcall
    · dsimp only at hcall
      split at hcall
      · cases hcall
        refine h.replace (keeps_newTcpPcb d _ _) ch ?_
        intro ref href
        obtain rfl := socket_setSocket href
        exact fresh_newTcpPcb d _ rfl
      · cases hcall
        refine h.replace (keeps_newUdpPcb d _) ch ?_
        intro ref href
        obtain rfl := socket_setSocket href
        exact fresh_newUdpPcb d rfl

def IsSocketCall (calling : Calling) : Prop :=
  ∃ domain type protocol, calling = .socketCall domain type protocol

/-- `socketCall` is the one request that lets go of a socket. -/
theorem handleRequest_keeps {d d' : Daemon} {mem : Uninit} {ch : Nat} {req : Request}
    {resp : Response} (hcalling : ¬ IsSocketCall req.calling)
    (hcall : handleRequest d mem ch req = .ok (d', resp)) : Keeps d d' := by
  unfold handleRequest at hcall
  generalize req.calling = calling at hcalling hcall
  cases calling with
  | socketCall domain type protocol => exact absurd ⟨domain, type, protocol, rfl⟩ hcalling
  | connectCall addr => exact connectCall_keeps hcall
  | recvfromCall len flags requireAddr => exact recvfromCall_keeps hcall
  | sendtoCall buf flags addr => exact sendtoCall_keeps hcall
  | getpeernameCall =>
      obtain ⟨_, -, ⟨⟩⟩ := bind_eq_ok_iff.mp hcall
      exact .refl d
  | getsocknameCall =>
      obtain ⟨_, -, ⟨⟩⟩ := bind_eq_ok_iff.mp hcall
      exact .refl d
  | atstartAction progname =>
      cases hcall
      exact keeps_setRRChannel fun _ => rfl
  | _ =>
      cases hcall
      exact .refl d

theorem handleRequest_connected {d d' : Daemon} {mem : Uninit} {ch : Nat} {req : Request}
    {resp : Response} (h : Connected d)
    (hcall : handleRequest d mem ch req = .ok (d', resp)) : Connected d' := by
  by_cases hcalling : IsSocketCall req.calling
  · obtain ⟨domain, type, protocol, hreq⟩ := hcalling
    rw [handleRequest, hreq] at hcall
    exact socketCall_connected h hcall
  · exact h.keeps (handleRequest_keeps hcalling hcall)

/-- The exits of `onReadReady`. -/
inductive ReadExit (d : Daemon) (mem : Uninit) (ch : Nat) :
    ReadResult → Bool → Daemon → Option Response → Prop
  | again (writeFails : Bool) : ReadExit d mem ch .again writeFails d none
  | eof (writeFails : Bool) : ReadExit d mem ch .eof writeFails (d.removeRRChannel ch) none
  | written {req : Request} {d' : Daemon} {resp sent : Response} :
      handleRequest d mem ch req = .ok (d', resp) → write resp = .ok sent →
      ReadExit d mem ch (.message req) false d' (some sent)
  | unwritten {req : Request} {handled : Daemon} {resp sent : Response} :
      handleRequest d mem ch req = .ok (handled, resp) → write resp = .ok sent →
      ReadExit d mem ch (.message req) true
        (handled.setRRChannel ch
          ((handled.rrChannel ch).map fun rr => { rr with registered := false })) none

theorem onReadReady_exit {d d' : Daemon} {mem : Uninit} {ch : Nat} {result : ReadResult}
    {writeFails : Bool} {sent : Option Response}
    (h : onReadReady d mem ch result writeFails = .ok (d', sent)) :
    ReadExit d mem ch result writeFails d' sent := by
  cases result with
  | again =>
      cases h
      exact .again writeFails
  | eof =>
      cases h
      exact .eof writeFails
  | error => cases h
  | message req =>
      simp only [onReadReady, bind_eq_ok_iff] at h
      obtain ⟨⟨handled, resp⟩, hcall, sent', hwrite, h⟩ := h
      cases writeFails with
      | true =>
          cases h
          exact .unwritten hcall hwrite
      | false =>
          cases h
          exact .written hcall hwrite

theorem onReadReady_connected {d d' : Daemon} {mem : Uninit} {ch : Nat} {result : ReadResult}
    {writeFails : Bool} {sent : Option Response} (h : Connected d)
    (hread : onReadReady d mem ch result writeFails = .ok (d', sent)) : Connected d' := by
  cases onReadReady_exit hread with
  | again => exact h
  | eof => exact h.removeRRChannel ch
  | written hcall => exact handleRequest_connected h hcall
  | unwritten hcall =>
      exact (handleRequest_connected h hcall).keeps (keeps_setRRChannel fun _ => rfl)

theorem keeps_demultiplex (d : Daemon) (uninit : SockaddrIn) (hdr : IpHeader)
    (skbuf : SocketBuffer) (next : List SocketBuffer) :
    Keeps d { d with stack := (demultiplex d.stack uninit hdr skbuf next).1 } := by
  unfold demultiplex
  dsimp only
  split
  · refine ⟨fun _ => rfl, ?_⟩
    rintro ⟨_ | _, index⟩ halive
    · exact liveSlot_udp_rx halive _ _ _
    · exact halive
  · refine ⟨fun _ => rfl, ?_⟩
    rintro ⟨_ | _, index⟩ halive
    · exact halive
    · exact liveSlot_tcp_rx halive _ _ _
  · exact .refl d

theorem keeps_rx (d : Daemon) (uninit : SockaddrIn) (skbuf : SocketBuffer) :
    Keeps d { d with stack := (rx d.stack uninit skbuf).1 } := by
  unfold rx
  dsimp only
  split
  · exact .refl d
  · split
    · exact .refl d
    · split
      · split
        · exact .refl d
        · exact ⟨fun _ => rfl, fun _ halive => halive⟩
        · rename_i defrager packet next _
          have hdefrag : Keeps d { d with stack.defrager := defrager } :=
            ⟨fun _ => rfl, fun _ halive => halive⟩
          exact hdefrag.trans (keeps_demultiplex _ uninit _ packet next)
      · exact keeps_demultiplex d uninit _ skbuf []

end MuQuinet.ChannelSockets
