import MuQuinet.ChannelSockets
import MuQuinet.Lib.Populations

namespace MuQuinet.HandlerEffects

open MuQuinet.Lib.Outcomes
open MuQuinet.Lib.Populations.Population
open MuQuinet.ChannelSockets
open MuQuinet.Pcbs
open MuQuinet.RequestHandler
open MuQuinet.Rpc
open MuQuinet.Sockets
open MuQuinet.TcpLayer
open MuQuinet.UdpLayer

/-- What a request on a channel does to the element of a protocol's list that
`ref` is about. -/
inductive SlotEffect {P : Type} (d : Daemon) (ch : Nat) (ref : SocketRef) (calling : Calling)
    (resp : Response) (fresh : P → Prop) (called : P → P → Prop) : Slot P → Slot P → Prop
  | unchanged (slot : Slot P) : SlotEffect d ch ref calling resp fresh called slot slot
  | released (slot : Slot P) : d.socketOf ch = some ref →
      SlotEffect d ch ref calling resp fresh called slot .expired
  | created {pcb : P} (type : SocketType) (nonblocking : Bool) : fresh pcb →
      SlotEffect d ch ref calling resp fresh called .expired
        { pcb := some pcb, socket := some { type := type, nonblocking := nonblocking } }
  | called {pcb pcb' : P} (socket : Option Socket) : d.socketOf ch = some ref → called pcb pcb' →
      SlotEffect d ch ref calling resp fresh called
        { pcb := some pcb, socket := socket } { pcb := some pcb', socket := socket }
  | received {so so' : Socket} {len flags : Int32} {requireAddr : Bool} (pcb : Option P) :
      d.socketOf ch = some ref → calling = .recvfromCall len flags requireAddr →
      recvfrom so ch requireAddr = .ok (so', resp) →
      SlotEffect d ch ref calling resp fresh called
        { pcb := pcb, socket := some so } { pcb := pcb, socket := some so' }

def FreshTcpPcb (pcb : TcpPcb) : Prop :=
  pcb.connState = .CLOSED ∧ pcb.onConnEstabCB = none

/-- The calls that a handler makes on the `TcpPcb` of its channel. -/
inductive TcpCalled (ch : Nat) (resp : Response) : Calling → TcpPcb → TcpPcb → Prop
  | connect (pcb : TcpPcb) (addr : List UInt8) (port : UInt16) (faddr : UInt32) (fport : UInt16) :
      resp = { returning := none, retCode := some .WAIT_NEXT } →
      TcpCalled ch resp (.connectCall addr) pcb
        (TcpPcb.connect port { pcb with onConnEstabCB := some ch } faddr fport).2.1
  | send (pcb : TcpPcb) (buf : List UInt8) (flags : Int32) (addr : Option (List UInt8))
      (port : UInt16) (ret : Int32) : resp = retOk (.sendtoCall ret none) →
      TcpCalled ch resp (.sendtoCall buf flags addr) pcb (TcpPcb.send port pcb buf).2.1

def UdpEffect (d : Daemon) (ch : Nat) (calling : Calling) (resp : Response) (i : Nat) :
    Slot Pcb → Slot Pcb → Prop :=
  SlotEffect d ch { type := .UDP, index := i } calling resp (fun _ => True) (fun _ _ => True)

def TcpEffect (d : Daemon) (ch : Nat) (calling : Calling) (resp : Response) (i : Nat) :
    Slot TcpPcb → Slot TcpPcb → Prop :=
  SlotEffect d ch { type := .TCP, index := i } calling resp FreshTcpPcb (TcpCalled ch resp calling)

theorem udpSlot_release (d : Daemon) (old : Option SocketRef) (i : Nat) :
    (d.release old).udpSlot i = d.udpSlot i ∨
      old = some { type := .UDP, index := i } ∧ (d.release old).udpSlot i = .expired := by
  rcases old with _ | ⟨_ | _, index⟩
  · exact .inl rfl
  · rcases getD_set_cases d.stack.udp.pcbs index i .expired .expired with heq | ⟨rfl, heq⟩
    · exact .inl heq
    · exact .inr ⟨rfl, heq⟩
  · exact .inl rfl

theorem tcpSlot_release (d : Daemon) (old : Option SocketRef) (i : Nat) :
    (d.release old).tcpSlot i = d.tcpSlot i ∨
      old = some { type := .TCP, index := i } ∧ (d.release old).tcpSlot i = .expired := by
  rcases old with _ | ⟨_ | _, index⟩
  · exact .inl rfl
  · exact .inl rfl
  · rcases getD_set_cases d.stack.tcp.pcbs index i .expired .expired with heq | ⟨rfl, heq⟩
    · exact .inl heq
    · exact .inr ⟨rfl, heq⟩

theorem socketAt_setSocketAt_cases (d : Daemon) (ref ref' : SocketRef) (so : Socket) :
    (d.setSocketAt ref so).socketAt ref' = d.socketAt ref' ∨
      ref = ref' ∧ (d.setSocketAt ref so).socketAt ref' = some so := by
  rcases ref with ⟨_ | _, index⟩ <;> rcases ref' with ⟨_ | _, index'⟩
  · rcases getD_set_cases d.stack.udp.pcbs index index'
      { d.udpSlot index with socket := some so } .expired with heq | ⟨rfl, heq⟩
    · exact .inl (congrArg Slot.socket heq)
    · exact .inr ⟨rfl, congrArg Slot.socket heq⟩
  · exact .inl rfl
  · exact .inl rfl
  · rcases getD_set_cases d.stack.tcp.pcbs index index'
      { d.tcpSlot index with socket := some so } .expired with heq | ⟨rfl, heq⟩
    · exact .inl (congrArg Slot.socket heq)
    · exact .inr ⟨rfl, congrArg Slot.socket heq⟩

theorem pcb_setSocketAt (d : Daemon) (ref : SocketRef) (so : Socket) (i : Nat) :
    ((d.setSocketAt ref so).tcpSlot i).pcb = (d.tcpSlot i).pcb := by
  rcases ref with ⟨_ | _, index⟩
  · rfl
  · rcases getD_set_cases d.stack.tcp.pcbs index i
      { d.tcpSlot index with socket := some so } .expired with heq | ⟨rfl, heq⟩
    · exact congrArg Slot.pcb heq
    · have hpcb := congrArg Slot.pcb heq
      exact hpcb

theorem getD_set_expired {P : Type} (pcbs : List (Slot P)) (i : Nat) :
    (pcbs.set i .expired).getD i .expired = .expired := by
  rcases Nat.lt_or_ge i pcbs.length with hlt | hge
  · simp [hlt]
  · rw [List.set_eq_of_length_le hge, List.getD_eq_default _ _ hge]

def Expired (d : Daemon) (ref : SocketRef) : Prop :=
  match ref.type with
  | .UDP => d.udpSlot ref.index = .expired
  | .TCP => d.tcpSlot ref.index = .expired

/-- A channel lets go of its socket, in favour of a new one if it has one after. -/
structure Replaced (d d' : Daemon) (ch : Nat) : Prop where
  old : ∀ ref, d.socketOf ch = some ref → Expired d' ref
  new : ∀ ref, d'.socketOf ch = some ref → Expired d ref

structure Effects (d d' : Daemon) (ch : Nat) (calling : Calling) (resp : Response) : Prop where
  udp : ∀ i, UdpEffect d ch calling resp i (d.udpSlot i) (d'.udpSlot i)
  tcp : ∀ i, TcpEffect d ch calling resp i (d.tcpSlot i) (d'.tcpSlot i)
  socketOf_of_ne : ∀ ch', ch' ≠ ch → d'.socketOf ch' = d.socketOf ch'
  socketOf_self : d'.socketOf ch = d.socketOf ch ∨ Replaced d d' ch

section Calls

variable {d d' : Daemon} {ch : Nat} {calling : Calling} {resp : Response}

/-- A call that leaves the stack alone, and the sockets of the channels. -/
theorem effects_of_stack_eq (hstack : d'.stack = d.stack)
    (hsocketOf : ∀ ch', d'.socketOf ch' = d.socketOf ch') :
    Effects d d' ch calling resp := by
  constructor
  · intro i
    have hslot : d'.udpSlot i = d.udpSlot i := by
      rw [Daemon.udpSlot, hstack, Daemon.udpSlot]
    rw [hslot]
    exact .unchanged _
  · intro i
    have hslot : d'.tcpSlot i = d.tcpSlot i := by
      rw [Daemon.tcpSlot, hstack, Daemon.tcpSlot]
    rw [hslot]
    exact .unchanged _
  · intro ch' _
    exact hsocketOf ch'
  · exact .inl (hsocketOf ch)

theorem socketOf_setRRChannel_of_ne (rr : Option ReqRespChannel) (ch' : Nat) (hne : ch' ≠ ch) :
    (d.setRRChannel ch rr).socketOf ch' = d.socketOf ch' := by
  rw [Daemon.socketOf, rrChannel_setRRChannel_of_ne hne.symm, Daemon.socketOf]

/-- A channel lets go of its socket after a new one was created. -/
theorem Effects.release {created : Daemon} (h : Effects d created ch calling resp)
    {rr : Option ReqRespChannel}
    (hfresh : ∀ ref, rr.bind ReqRespChannel.socket = some ref → Expired d ref) :
    Effects d ((created.release (d.socketOf ch)).setRRChannel ch rr) ch calling resp := by
  constructor
  · intro i
    change UdpEffect d ch calling resp i (d.udpSlot i) ((created.release (d.socketOf ch)).udpSlot i)
    rcases udpSlot_release created (d.socketOf ch) i with heq | ⟨hold, heq⟩
    · rw [heq]
      exact h.udp i
    · rw [heq]
      exact .released _ hold
  · intro i
    change TcpEffect d ch calling resp i (d.tcpSlot i) ((created.release (d.socketOf ch)).tcpSlot i)
    rcases tcpSlot_release created (d.socketOf ch) i with heq | ⟨hold, heq⟩
    · rw [heq]
      exact h.tcp i
    · rw [heq]
      exact .released _ hold
  · intro ch' hne
    rw [socketOf_setRRChannel_of_ne rr ch' hne, Daemon.socketOf, Daemon.rrChannel,
      rrChannels_release]
    exact h.socketOf_of_ne ch' hne
  · right
    constructor
    · intro ref href
      rw [href]
      rcases ref with ⟨_ | _, index⟩
      · exact getD_set_expired created.stack.udp.pcbs index
      · exact getD_set_expired created.stack.tcp.pcbs index
    · intro ref href
      rcases rrChannel_setRRChannel_self (created.release (d.socketOf ch)) ch rr with
        heq | ⟨-, heq⟩
      · rw [Daemon.socketOf, heq] at href
        exact hfresh ref href
      · rw [Daemon.socketOf, heq] at href
        cases href

theorem effects_newTcpPcb {pcb : TcpPcb} (hfresh : FreshTcpPcb pcb) (type : SocketType)
    (nonblocking : Bool) :
    Effects d { d with
      stack.tcp := d.stack.tcp.newPcb pcb { type := type, nonblocking := nonblocking } }
      ch calling resp := by
  refine ⟨fun _ => .unchanged _, ?_, fun _ _ => rfl, .inl rfl⟩
  intro i
  rcases getD_append_cases d.stack.tcp.pcbs
    { pcb := some pcb, socket := some { type := type, nonblocking := nonblocking } } .expired i
      with heq | ⟨-, hexpired, heq⟩
  · rw [Daemon.tcpSlot, Daemon.tcpSlot, Tcp.newPcb, heq]
    exact .unchanged _
  · rw [Daemon.tcpSlot, Daemon.tcpSlot, Tcp.newPcb, heq, hexpired]
    exact .created type nonblocking hfresh

theorem effects_newUdpPcb (type : SocketType) (nonblocking : Bool) :
    Effects d { d with
      stack.udp :=
        d.stack.udp.newPcb d.stackAddr { type := type, nonblocking := nonblocking } }
      ch calling resp := by
  refine ⟨?_, fun _ => .unchanged _, fun _ _ => rfl, .inl rfl⟩
  intro i
  rcases getD_append_cases d.stack.udp.pcbs
    { pcb := some (.new d.stackAddr)
      socket := some { type := type, nonblocking := nonblocking } } .expired i with
      heq | ⟨-, hexpired, heq⟩
  · rw [Daemon.udpSlot, Daemon.udpSlot, Udp.newPcb, heq]
    exact .unchanged _
  · rw [Daemon.udpSlot, Daemon.udpSlot, Udp.newPcb, heq, hexpired]
    exact .created type nonblocking trivial

theorem socketCall_effects {mem : Uninit} {domain type : Int32}
    (h : socketCall d mem ch domain type = .ok (d', resp)) : Effects d d' ch calling resp := by
  unfold socketCall at h
  split at h
  · cases h
  · split at h
    · cases h
    · dsimp only at h
      split at h
      · cases h
        refine (effects_newTcpPcb ⟨rfl, rfl⟩ _ _).release ?_
        intro ref href
        obtain rfl := socket_setSocket href
        exact List.getD_eq_default _ _ (Nat.le_refl _)
      · cases h
        refine (effects_newUdpPcb _ _).release ?_
        intro ref href
        obtain rfl := socket_setSocket href
        exact List.getD_eq_default _ _ (Nat.le_refl _)

theorem SlotEffect.set {P : Type} {fresh : P → Prop} {called : P → P → Prop} {type : SocketType}
    {pcbs : List (Slot P)} {index : Nat} {slot : Slot P}
    (h : SlotEffect d ch { type := type, index := index } calling resp fresh called
      (pcbs.getD index .expired) slot) (i : Nat) :
    SlotEffect d ch { type := type, index := i } calling resp fresh called
      (pcbs.getD i .expired) ((pcbs.set index slot).getD i .expired) := by
  rcases getD_set_cases pcbs index i slot .expired with heq | ⟨rfl, heq⟩
  · rw [heq]
    exact .unchanged _
  · rw [heq]
    exact h

theorem effects_setUdpSlot {index : Nat} {slot : Slot Pcb}
    (h : UdpEffect d ch calling resp index (d.udpSlot index) slot) :
    Effects d (d.setUdpSlot index slot) ch calling resp :=
  ⟨fun i => SlotEffect.set h i, fun _ => .unchanged _, fun _ _ => rfl, .inl rfl⟩

theorem effects_setTcpSlot {index : Nat} {slot : Slot TcpPcb}
    (h : TcpEffect d ch calling resp index (d.tcpSlot index) slot) :
    Effects d (d.setTcpSlot index slot) ch calling resp :=
  ⟨fun _ => .unchanged _, fun i => SlotEffect.set h i, fun _ _ => rfl, .inl rfl⟩

theorem effects_udpCall {index : Nat} {pcb : Pcb} {socket : Option Socket} (pcb' : Pcb)
    (howner : d.socketOf ch = some { type := .UDP, index := index })
    (hslot : d.udpSlot index = { pcb := some pcb, socket := socket }) (port : UInt16) :
    Effects d (udpCalled d index port pcb') ch calling resp := by
  have heffect : UdpEffect d ch calling resp index (d.udpSlot index)
      { d.udpSlot index with pcb := some pcb' } := by
    rw [hslot]
    exact .called socket howner trivial
  obtain ⟨hudp, htcp, hsocketOf, -⟩ := effects_setUdpSlot heffect
  exact ⟨hudp, htcp, hsocketOf, .inl rfl⟩

theorem effects_tcpCall {index : Nat} {pcb pcb' : TcpPcb} {socket : Option Socket}
    (howner : d.socketOf ch = some { type := .TCP, index := index })
    (hslot : d.tcpSlot index = { pcb := some pcb, socket := socket })
    (hcalled : TcpCalled ch resp calling pcb pcb') (port : UInt16) :
    Effects d (tcpCalled d index port pcb') ch calling resp := by
  have heffect : TcpEffect d ch calling resp index (d.tcpSlot index)
      { d.tcpSlot index with pcb := some pcb' } := by
    rw [hslot]
    exact .called socket howner hcalled
  obtain ⟨hudp, htcp, hsocketOf, -⟩ := effects_setTcpSlot heffect
  exact ⟨hudp, htcp, hsocketOf, .inl rfl⟩

theorem effects_setSocketAt {ref : SocketRef} {so so' : Socket} {len flags : Int32}
    {requireAddr : Bool} (hsocket : HasSocket d ch ref so)
    (hcalling : calling = .recvfromCall len flags requireAddr)
    (hrecvfrom : recvfrom so ch requireAddr = .ok (so', resp)) :
    Effects d (d.setSocketAt ref so') ch calling resp := by
  obtain ⟨howner, hat⟩ := hsocket
  rcases ref with ⟨_ | _, index⟩
  · have hslot : d.udpSlot index = { pcb := (d.udpSlot index).pcb, socket := some so } := by
      rw [← hat]
      rfl
    have heffect : UdpEffect d ch calling resp index (d.udpSlot index)
        { d.udpSlot index with socket := some so' } := by
      rw [hslot]
      exact .received _ howner hcalling hrecvfrom
    exact effects_setUdpSlot heffect
  · have hslot : d.tcpSlot index = { pcb := (d.tcpSlot index).pcb, socket := some so } := by
      rw [← hat]
      rfl
    have heffect : TcpEffect d ch calling resp index (d.tcpSlot index)
        { d.tcpSlot index with socket := some so' } := by
      rw [hslot]
      exact .received _ howner hcalling hrecvfrom
    exact effects_setTcpSlot heffect

theorem removeRRChannel_effects (d : Daemon) (ch : Nat) (calling : Calling) (resp : Response) :
    Effects d (d.removeRRChannel ch) ch calling resp :=
  (effects_of_stack_eq rfl fun _ => rfl).release fun _ hnone => nomatch hnone

/-- What is stored in a channel, apart from its socket, has no effect on the sockets. -/
theorem Effects.setRRChannel (h : Effects d d' ch calling resp)
    {f : ReqRespChannel → ReqRespChannel} (hf : ∀ rr, (f rr).socket = rr.socket) :
    Effects d (d'.setRRChannel ch ((d'.rrChannel ch).map f)) ch calling resp := by
  have hkeeps : Keeps d' (d'.setRRChannel ch ((d'.rrChannel ch).map f)) := keeps_setRRChannel hf
  have hsocketOf := hkeeps.socketOf
  refine ⟨h.udp, h.tcp, ?_, ?_⟩
  · intro ch' hne
    rw [hsocketOf]
    exact h.socketOf_of_ne ch' hne
  · rcases h.socketOf_self with heq | ⟨hold, hnew⟩
    · exact .inl ((hsocketOf ch).trans heq)
    · refine .inr ⟨hold, ?_⟩
      intro ref href
      exact hnew ref ((hsocketOf ch).symm.trans href)

theorem connectCall_effects {addr : List UInt8} (hconn : Connected d)
    (h : connectCall d ch addr = .ok (d', resp)) :
    Effects d d' ch (.connectCall addr) resp := by
  obtain ⟨⟨type, index⟩, so, hsocket, hexit⟩ := connectCall_exit h
  cases hexit with
  | udp port htype =>
      obtain ⟨rfl, pcb, hslot⟩ := hconn.udp hsocket htype
      exact effects_udpCall _ hsocket.1 hslot port
  | inProgress => exact effects_of_stack_eq rfl fun _ => rfl
  | waitEstab port port' faddr fport htype _ hpcb =>
      obtain ⟨rfl, pcb, hslot⟩ := hconn.tcp hsocket htype
      obtain rfl := Except.ok.inj ((tcpPcb_of_slot hslot).symm.trans hpcb)
      exact effects_tcpCall hsocket.1 hslot (.connect pcb addr _ _ _ rfl) port'

theorem sendtoCall_effects {buf : List UInt8} {flags : Int32} {addr : Option (List UInt8)}
    (hconn : Connected d) (h : sendtoCall d ch buf addr = .ok (d', resp)) :
    Effects d d' ch (.sendtoCall buf flags addr) resp := by
  obtain ⟨⟨type, index⟩, so, hsocket, hexit⟩ := sendtoCall_exit h
  cases hexit with
  | udpSendto htype =>
      obtain ⟨rfl, pcb, hslot⟩ := hconn.udp hsocket htype
      exact effects_udpCall _ hsocket.1 hslot _
  | udpSend htype =>
      obtain ⟨rfl, pcb, hslot⟩ := hconn.udp hsocket htype
      exact effects_udpCall _ hsocket.1 hslot _
  | tcpSend htype hpcb hsent =>
      obtain ⟨rfl, pcb, hslot⟩ := hconn.tcp hsocket htype
      obtain rfl := Except.ok.inj ((tcpPcb_of_slot hslot).symm.trans hpcb)
      subst hsent
      exact effects_tcpCall hsocket.1 hslot (.send pcb buf flags addr _ _ rfl) _

theorem recvfromCall_effects {len flags : Int32} {requireAddr : Bool}
    (h : recvfromCall d ch requireAddr = .ok (d', resp)) :
    Effects d d' ch (.recvfromCall len flags requireAddr) resp := by
  simp only [recvfromCall, bind_eq_ok_iff] at h
  obtain ⟨⟨ref, so⟩, hsocket, ⟨so', _⟩, hrecvfrom, ⟨⟩⟩ := h
  exact effects_setSocketAt (socket_eq_ok_iff.mp hsocket) rfl hrecvfrom

/-- A request has an effect on the socket and the PCB of its channel only. -/
theorem handleRequest_effects {mem : Uninit} {req : Request} (hconn : Connected d)
    (h : handleRequest d mem ch req = .ok (d', resp)) : Effects d d' ch req.calling resp := by
  unfold handleRequest at h
  generalize req.calling = calling at h
  cases calling with
  | socketCall domain type protocol => exact socketCall_effects h
  | connectCall addr => exact connectCall_effects hconn h
  | recvfromCall len flags requireAddr => exact recvfromCall_effects h
  | sendtoCall buf flags addr => exact sendtoCall_effects hconn h
  | getpeernameCall =>
      obtain ⟨_, -, ⟨⟩⟩ := bind_eq_ok_iff.mp h
      exact effects_of_stack_eq rfl fun _ => rfl
  | getsocknameCall =>
      obtain ⟨_, -, ⟨⟩⟩ := bind_eq_ok_iff.mp h
      exact effects_of_stack_eq rfl fun _ => rfl
  | atstartAction progname =>
      cases h
      refine Effects.setRRChannel (effects_of_stack_eq rfl fun _ => rfl) ?_
      exact fun _ => rfl
  | _ =>
      cases h
      exact effects_of_stack_eq rfl fun _ => rfl

end Calls

end MuQuinet.HandlerEffects
