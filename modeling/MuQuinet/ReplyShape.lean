import MuQuinet.Callbacks
import MuQuinet.DaemonSurvival

namespace MuQuinet.ReplyShape

open MuQuinet.Lib.Machines
open MuQuinet.Lib.Outcomes
open MuQuinet.Buffers
open MuQuinet.Callbacks
open MuQuinet.ChannelSockets
open MuQuinet.DaemonSurvival
open MuQuinet.DeliveryIsolation
open MuQuinet.HandlerEffects
open MuQuinet.IpLayer
open MuQuinet.PacketEffects
open MuQuinet.Pcbs
open MuQuinet.RequestHandler
open MuQuinet.Rpc
open MuQuinet.Sockets
open MuQuinet.TcpLayer

/-- The requests of the interceptor. -/
def Intercepted : Calling → Prop
  | .pollCall | .selectCall | .getsockoptCall | .setsockoptCall | .fcntlCall | .notSet => False
  | _ => True

/-- The case of a response is the one that corresponds to a request. -/
def Returns : Calling → Returning → Prop
  | .socketCall _ _ _, .socketCall _ _ => True
  | .connectCall _, .connectCall _ _ => True
  | .closeCall, .closeCall _ _ => True
  | .recvfromCall _ _ _, .recvfromCall _ _ _ _ => True
  | .sendtoCall _ _ _, .sendtoCall _ _ => True
  | .getpeernameCall, .getpeernameCall _ _ _ => True
  | .getsocknameCall, .getsocknameCall _ _ _ => True
  | .atstartAction _, .atstartAction _ _ => True
  | _, _ => False

/-- A response has its return code, and answers a request or announces an answer. -/
structure Shaped (calling : Calling) (resp : Response) : Prop where
  retCode_isSome : resp.retCode.isSome
  returns : resp.retCode ≠ some .WAIT_NEXT →
    ∃ returning, resp.returning = some returning ∧ Returns calling returning

/-- A request to connect is about a blocking TCP socket. -/
def ConnectWaits (d : Daemon) (ch : Nat) : Calling → Prop
  | .connectCall _ => ∀ ref so, HasSocket d ch ref so → so.type = .TCP ∧ so.nonblocking = false
  | _ => True

theorem shaped_retOk {calling : Calling} {returning : Returning} (h : Returns calling returning) :
    Shaped calling (retOk returning) :=
  ⟨rfl, fun _ => ⟨returning, rfl, h⟩⟩

theorem shaped_waitNext (calling : Calling) (returning : Option Returning) :
    Shaped calling { returning := returning, retCode := some .WAIT_NEXT } :=
  ⟨rfl, fun h => absurd rfl h⟩

theorem hasSocket_unique {d : Daemon} {ch : Nat} {ref ref' : SocketRef} {so so' : Socket}
    (h : HasSocket d ch ref so) (h' : HasSocket d ch ref' so') : ref' = ref ∧ so' = so := by
  obtain rfl : ref' = ref := Option.some.inj (h'.1.symm.trans h.1)
  exact ⟨rfl, Option.some.inj (h'.2.symm.trans h.2)⟩

theorem connectCall_shaped_iff {d d' : Daemon} {ch : Nat} {addr : List UInt8} {resp : Response}
    (h : connectCall d ch addr = .ok (d', resp)) :
    Shaped (.connectCall addr) resp ↔ ConnectWaits d ch (.connectCall addr) := by
  obtain ⟨ref, so, hsocket, hexit⟩ := connectCall_exit h
  cases hexit with
  | udp port htype =>
      refine iff_of_false (fun hshaped => nomatch hshaped.retCode_isSome) ?_
      intro hwaits
      cases htype.symm.trans (hwaits ref so hsocket).1
  | inProgress htype hnonblocking =>
      refine iff_of_false ?_ ?_
      · intro hshaped
        obtain ⟨returning, hreturning, hreturns⟩ := hshaped.returns (by decide)
        cases hreturning
        exact hreturns
      · intro hwaits
        cases hnonblocking.symm.trans (hwaits ref so hsocket).2
  | waitEstab port port' faddr fport htype hblocking =>
      refine iff_of_true (shaped_waitNext _ _) ?_
      intro ref' so' hsocket'
      obtain ⟨rfl, rfl⟩ := hasSocket_unique hsocket hsocket'
      exact ⟨htype, hblocking⟩

theorem packetResponse_shaped {requireAddr : Bool} {entry : SockaddrIn × List SocketBuffer}
    {resp : Response} (h : packetResponse requireAddr entry = .ok resp) (len flags : Int32)
    (requireAddr' : Bool) : Shaped (.recvfromCall len flags requireAddr') resp := by
  unfold packetResponse at h
  split at h
  · cases h
  · cases h
    exact shaped_retOk trivial

theorem recvfrom_shaped {so so' : Socket} {ch : Nat} {requireAddr : Bool} {resp : Response}
    (h : recvfrom so ch requireAddr = .ok (so', resp)) (len flags : Int32) :
    Shaped (.recvfromCall len flags requireAddr) resp := by
  cases recvfrom_exit h with
  | packet _ hresp => exact packetResponse_shaped hresp len flags requireAddr
  | again => exact shaped_retOk trivial
  | waitNext => exact shaped_waitNext _ _

theorem sendtoCall_shaped {d d' : Daemon} {ch : Nat} {buf : List UInt8}
    {addr : Option (List UInt8)} {resp : Response} (flags : Int32)
    (h : sendtoCall d ch buf addr = .ok (d', resp)) :
    Shaped (.sendtoCall buf flags addr) resp := by
  obtain ⟨ref, so, -, hexit⟩ := sendtoCall_exit h
  cases hexit with
  | udpSendto => exact shaped_retOk trivial
  | udpSend => exact shaped_retOk trivial
  | tcpSend => exact shaped_retOk trivial

theorem socketCall_shaped {d d' : Daemon} {mem : Uninit} {ch : Nat} {domain type protocol : Int32}
    {resp : Response} (h : socketCall d mem ch domain type = .ok (d', resp)) :
    Shaped (.socketCall domain type protocol) resp := by
  unfold socketCall at h
  split at h
  · cases h
  · split at h
    · cases h
    · dsimp only at h
      split at h
      · cases h
        exact shaped_retOk trivial
      · cases h
        exact shaped_retOk trivial

/-- Of the handlers only the one of `connect` has exits that leave a response
without its return code or in the wrong case. -/
theorem handleRequest_shaped_iff {d d' : Daemon} {mem : Uninit} {ch : Nat} {req : Request}
    {resp : Response} (hintercepted : Intercepted req.calling)
    (h : handleRequest d mem ch req = .ok (d', resp)) :
    Shaped req.calling resp ↔ ConnectWaits d ch req.calling := by
  unfold handleRequest at h
  generalize req.calling = calling at h hintercepted
  cases calling with
  | socketCall domain type protocol => exact iff_of_true (socketCall_shaped h) trivial
  | connectCall addr => exact connectCall_shaped_iff h
  | closeCall =>
      cases h
      exact iff_of_true (shaped_retOk trivial) trivial
  | recvfromCall len flags requireAddr =>
      simp only [recvfromCall, bind_eq_ok_iff] at h
      obtain ⟨⟨ref, so⟩, -, ⟨so', _⟩, hrecvfrom, ⟨⟩⟩ := h
      exact iff_of_true (recvfrom_shaped hrecvfrom len flags) trivial
  | sendtoCall buf flags addr => exact iff_of_true (sendtoCall_shaped flags h) trivial
  | getpeernameCall =>
      obtain ⟨_, -, ⟨⟩⟩ := bind_eq_ok_iff.mp h
      exact iff_of_true (shaped_retOk trivial) trivial
  | getsocknameCall =>
      obtain ⟨_, -, ⟨⟩⟩ := bind_eq_ok_iff.mp h
      exact iff_of_true (shaped_retOk trivial) trivial
  | atstartAction progname =>
      cases h
      exact iff_of_true (shaped_retOk trivial) trivial
  | _ => exact hintercepted.elim

/-- The response that the callback of a connection writes. -/
def connEstabResponse : Response := retOk (.connectCall 0 none)

def callback (s : DaemonSurvival.State) (ref : SocketRef) : Option OnAsyncNewPacket :=
  match s with
  | .running d => (d.socketAt ref).bind Socket.onAsyncNewPacket
  | .failed _ => none

def connEstabCB (s : DaemonSurvival.State) (i : Nat) : Option Nat :=
  match s with
  | .running d => (d.tcpSlot i).pcb.bind TcpPcb.onConnEstabCB
  | .failed _ => none

/-- The daemon, the requests whose handlers set the callbacks of its sockets and
connections, and the responses handed to `write` so far with what they answer. -/
structure State where
  daemon : DaemonSurvival.State
  receiving : SocketRef → Option Calling
  connecting : Nat → Option Calling
  responses : List (Option Calling × Response)

def written (s : State) (a : Label) : List (Option Calling × Response) :=
  match s.daemon, a with
  | .running d, .read mem ch (.message req) _ =>
      match handleRequest d mem ch req with
      | .ok (_, resp) => [(some req.calling, resp)]
      | .error _ => []
  | .running d, .notified ref =>
      match (d.socketAt ref).map sChannelReadCb with
      | some (.ok (_, some resp)) => [(s.receiving ref, resp)]
      | _ => []
  | .running d, .rx uninit skbuf =>
      let events := (rx d.stack uninit skbuf).2
      (estabs events).map fun _ => ((receivers events).head?.bind s.connecting, connEstabResponse)
  | _, _ => []

/-- A callback belongs to the request that changed it last. -/
def ownerAfter {α : Type} [DecidableEq α] (before after : Option α) (owner : Option Calling) :
    Label → Option Calling
  | .read _ _ (.message req) _ => if after = before then owner else some req.calling
  | _ => owner

def step (s : State) (a : Label) : Option State :=
  (DaemonSurvival.next s.daemon a).map fun daemon =>
    { daemon := daemon
      receiving := fun ref => ownerAfter (callback s.daemon ref) (callback daemon ref)
        (s.receiving ref) a
      connecting := fun i => ownerAfter (connEstabCB s.daemon i) (connEstabCB daemon i)
        (s.connecting i) a
      responses := s.responses ++ written s a }

def machine : Machine State Label where
  initial s := ∃ d, s.daemon = .running d ∧ d.rrChannels = [] ∧ d.stack.udp.pcbs = [] ∧
    d.stack.tcp.pcbs = [] ∧ s.responses = []
  next := step

def FromInterceptor (_ : State) : Label → Prop
  | .read _ _ (.message req) _ => Intercepted req.calling
  | _ => True

/-- Only the interceptor's requests arrive, and to connect only on blocking TCP sockets. -/
def WaitsToConnect (s : State) : Label → Prop
  | .read _ ch (.message req) _ =>
      Intercepted req.calling ∧ ∀ d, s.daemon = .running d → ConnectWaits d ch req.calling
  | _ => True

theorem sChannelReadCb_spec {so so' : Socket} {resp : Option Response}
    (h : sChannelReadCb so = .ok (so', resp)) :
    so'.onAsyncNewPacket = so.onAsyncNewPacket ∧ ∀ sent, resp = some sent →
      ∃ cb entry, so.onAsyncNewPacket = some cb ∧
        packetResponse cb.requireAddr entry = .ok sent := by
  cases HandlerAnswers.sChannelReadCb_effect h with
  | idle => exact ⟨rfl, fun _ hnone => nomatch hnone⟩
  | unset => exact ⟨rfl, fun _ hnone => nomatch hnone⟩
  | replied _ hcb _ hresp =>
      refine ⟨rfl, ?_⟩
      rintro _ ⟨⟩
      exact ⟨_, _, hcb, hresp⟩

/-- What a step of the daemon does to its sockets and connections. -/
inductive StepEffect (d d' : Daemon) : Label → Prop
  | request {mem : Uninit} {ch : Nat} {req : Request} {writeFails : Bool} {resp : Response} :
      Effects d d' ch req.calling resp → StepEffect d d' (.read mem ch (.message req) writeFails)
  | release {a : Label} (ch : Nat) : (∀ resp, Effects d d' ch .notSet resp) → StepEffect d d' a
  | rx {uninit : SockaddrIn} {skbuf : SocketBuffer} :
      RxEffects d d' (rx d.stack uninit skbuf).2 → StepEffect d d' (.rx uninit skbuf)
  | notified {ref : SocketRef} {so so' : Socket} {resp : Option Response} :
      d.socketAt ref = some so → sChannelReadCb so = .ok (so', resp) →
      d' = d.setSocketAt ref so' → StepEffect d d' (.notified ref)

theorem next_effect {d d' : Daemon} {a : Label} (hconn : Connected d)
    (h : DaemonSurvival.next (.running d) a = some (.running d')) : StepEffect d d' a := by
  cases next_exit h with
  | accept => exact .release 0 fun _ => effects_of_stack_eq rfl (socketOf_accept d)
  | @read _ ch _ _ _ _ _ hread =>
      cases onReadReady_exit hread with
      | again => exact .release ch fun _ => effects_of_stack_eq rfl fun _ => rfl
      | eof => exact .release ch (removeRRChannel_effects d ch _)
      | written hcall => exact .request (handleRequest_effects hconn hcall)
      | unwritten hcall =>
          exact .request ((handleRequest_effects hconn hcall).setRRChannel fun _ => rfl)
  | @hangUp ch => exact .release ch (removeRRChannel_effects d ch _)
  | rx uninit skbuf => exact .rx (rx_effects d uninit skbuf)
  | notified hso hcb => exact .notified hso hcb rfl

section Owners

variable {s t : DaemonSurvival.State} {a : Label}

/-- A step that sets the callback of a socket reads a request to receive. -/
theorem callback_next (hconn : ∀ d, s = .running d → Connected d)
    (h : DaemonSurvival.next s a = some t) {ref : SocketRef} {cb : OnAsyncNewPacket}
    (hcb : callback t ref = some cb) : callback s ref = some cb ∨
      ∃ mem ch req writeFails, a = .read mem ch (.message req) writeFails ∧
        Receives req.calling := by
  rcases s with d | fault
  · rcases t with d' | fault
    · have hslots : ∀ {ch calling resp}, Effects d d' ch calling resp →
          (d.socketAt ref).bind Socket.onAsyncNewPacket = some cb ∨
            Receives calling := by
        intro ch calling resp heffects
        rcases ref with ⟨_ | _, index⟩
        · exact (callback_of_slotEffect (heffects.udp index) hcb).imp_right And.left
        · exact (callback_of_slotEffect (heffects.tcp index) hcb).imp_right And.left
      cases next_effect (hconn d rfl) h with
      | request heffects =>
          rcases hslots heffects with hsame | hcalling
          · exact .inl hsame
          · exact .inr ⟨_, _, _, _, rfl, hcalling⟩
      | release ch heffects =>
          rcases hslots (heffects (retOk (.closeCall 0 none))) with hsame | ⟨_, _, _, hcalling⟩
          · exact .inl hsame
          · cases hcalling
      | rx heffects =>
          rcases ref with ⟨_ | _, index⟩
          · exact .inl ((callback_of_socketEffect (heffects.udp index)).symm.trans hcb)
          · exact .inl ((callback_of_socketEffect (heffects.tcp index)).symm.trans hcb)
      | @notified ref' so so' resp hso hrun hd' =>
          subst hd'
          have hkept := (sChannelReadCb_spec hrun).1
          rcases socketAt_setSocketAt_cases d ref' ref so' with heq | ⟨rfl, heq⟩
          · exact .inl ((congrArg (Option.bind · Socket.onAsyncNewPacket) heq).symm.trans hcb)
          · left
            simp only [callback, heq, hso, Option.bind_some] at hcb ⊢
            rw [← hkept]
            exact hcb
    · cases hcb
  · cases h

/-- A step that sets the callback of a connection reads a request to connect. -/
theorem connEstabCB_next (hconn : ∀ d, s = .running d → Connected d)
    (h : DaemonSurvival.next s a = some t) {i rrChannel : Nat}
    (hcb : connEstabCB t i = some rrChannel) : connEstabCB s i = some rrChannel ∨
      ∃ mem ch req writeFails, a = .read mem ch (.message req) writeFails ∧
        Connects req.calling := by
  rcases s with d | fault
  · rcases t with d' | fault
    · cases next_effect (hconn d rfl) h with
      | request heffects =>
          rcases cb_of_tcpEffect (heffects.tcp i) hcb with hsame | ⟨hcalling, -⟩
          · exact .inl hsame
          · exact .inr ⟨_, _, _, _, rfl, hcalling⟩
      | release ch heffects =>
          rcases cb_of_tcpEffect ((heffects (retOk (.closeCall 0 none))).tcp i) hcb with
            hsame | ⟨⟨_, hcalling⟩, -⟩
          · exact .inl hsame
          · cases hcalling
      | rx heffects => exact .inl ((cb_of_pcbEffect (heffects.pcb i)).symm.trans hcb)
      | notified hso hrun hd' =>
          subst hd'
          simp only [connEstabCB, pcb_setSocketAt] at hcb
          exact .inl hcb
    · cases hcb
  · cases h

end Owners

theorem ownerAfter_spec {α : Type} [DecidableEq α] {kind : Calling → Prop} {before after : Option α}
    {owner : Option Calling} {a : Label} (hkept : before = after → ∃ calling ∈ owner, kind calling)
    (hset : before = after ∨ ∃ mem ch req writeFails, a = .read mem ch (.message req) writeFails ∧
      kind req.calling) : ∃ calling ∈ ownerAfter before after owner a, kind calling := by
  unfold ownerAfter
  split
  · rename_i mem ch req writeFails
    split
    · rename_i heq
      exact hkept heq.symm
    · rename_i hne
      rcases hset with heq | ⟨_, _, _, _, ⟨⟩, hkind⟩
      · exact absurd heq.symm hne
      · exact ⟨req.calling, rfl, hkind⟩
  · rename_i hother
    rcases hset with heq | ⟨mem, ch, req, writeFails, rfl, -⟩
    · exact hkept heq
    · exact absurd rfl (hother mem ch req writeFails)

/-- The callbacks belong to requests that ask for what they answer. -/
structure Invariant (s : State) : Prop where
  reachable : DaemonSurvival.machine.Reachable s.daemon
  receiving : ∀ ref cb, callback s.daemon ref = some cb →
    ∃ calling ∈ s.receiving ref, Receives calling
  connecting : ∀ i rrChannel, connEstabCB s.daemon i = some rrChannel →
    ∃ calling ∈ s.connecting i, Connects calling

theorem invariant_step {s t : State} {a : Label} (h : Invariant s) (hstep : step s a = some t) :
    Invariant t := by
  obtain ⟨daemon, hnext, rfl⟩ := Option.map_eq_some_iff.mp hstep
  have hconn := connected h.reachable
  refine ⟨h.reachable.step trivial hnext, ?_, ?_⟩
  · intro ref cb hcb
    apply ownerAfter_spec
    · intro heq
      exact h.receiving ref cb (heq.trans hcb)
    · exact (callback_next hconn hnext hcb).imp_left (·.trans hcb.symm)
  · intro i rrChannel hcb
    apply ownerAfter_spec
    · intro heq
      exact h.connecting i rrChannel (heq.trans hcb)
    · exact (connEstabCB_next hconn hnext hcb).imp_left (·.trans hcb.symm)

theorem invariant_initial {s : State} (h : machine.initial s) : Invariant s := by
  obtain ⟨d, hd, hrrChannels, hudp, htcp, -⟩ := h
  refine ⟨.initial ⟨d, hd, hrrChannels⟩, ?_, ?_⟩
  · rintro ⟨_ | _, index⟩ cb hcb
    · simp [callback, hd, Daemon.socketAt, Daemon.udpSlot, hudp, Slot.expired] at hcb
    · simp [callback, hd, Daemon.socketAt, Daemon.tcpSlot, htcp, Slot.expired] at hcb
  · intro i rrChannel hcb
    simp [connEstabCB, hd, Daemon.tcpSlot, htcp, Slot.expired] at hcb

theorem invariant {s : State} (h : machine.Reachable s) : Invariant s := by
  refine h.invariant (fun _ => invariant_initial) ?_
  rintro s a t hs - hstep
  exact invariant_step hs hstep

/-- A response answers the request that it is for in its shape. -/
def AnswersInShape (entry : Option Calling × Response) : Prop :=
  ∃ calling ∈ entry.1, Shaped calling entry.2

theorem written_shaped {s : State} (h : Invariant s) {a : Label} (hwaits : WaitsToConnect s a) :
    ∀ entry ∈ written s a, AnswersInShape entry := by
  unfold written
  split
  · rename_i d mem ch req writeFails hd
    split
    · rename_i d' resp hcall
      intro entry hentry
      obtain rfl := List.mem_singleton.mp hentry
      exact ⟨req.calling, rfl, (handleRequest_shaped_iff hwaits.1 hcall).mpr (hwaits.2 d hd)⟩
    · intro entry hentry
      cases hentry
  · rename_i d ref hd
    split
    · rename_i so resp hrun
      intro entry hentry
      obtain rfl := List.mem_singleton.mp hentry
      obtain ⟨so, hso, hrun⟩ := Option.map_eq_some_iff.mp hrun
      obtain ⟨cb, packet, hcb, hresp⟩ := (sChannelReadCb_spec hrun).2 resp rfl
      have hcallback : callback s.daemon ref = some cb := by
        simp only [callback, hd, hso, Option.bind_some, hcb]
      obtain ⟨calling, howner, len, flags, requireAddr, rfl⟩ := h.receiving ref cb hcallback
      exact ⟨_, howner, packetResponse_shaped hresp len flags requireAddr⟩
    · intro entry hentry
      cases hentry
  · rename_i d uninit skbuf hd
    intro entry hentry
    obtain ⟨rrChannel, hmem, rfl⟩ := List.mem_map.mp hentry
    obtain ⟨-, i, pcb, pcb', hreceivers, hpcb, -, hcb, -⟩ :=
      (rx_effects d uninit skbuf).establishes rrChannel hmem
    have hestabCB : connEstabCB s.daemon i = some rrChannel := by
      simp only [connEstabCB, hd, hpcb, Option.bind_some, hcb]
    obtain ⟨calling, howner, addr, rfl⟩ := h.connecting i rrChannel hestabCB
    have hshaped : Shaped (.connectCall addr) connEstabResponse := shaped_retOk trivial
    refine ⟨.connectCall addr, ?_, hshaped⟩
    rw [hreceivers]
    exact howner
  · intro entry hentry
    cases hentry

/-- Every response has the shape that its request asks for in the runs that connect
blocking TCP sockets only, and the response to a request has it in no other case. -/
theorem replies_shaped_iff_connectWaits (s : State) :
    (machine.ReachableUnder WaitsToConnect s → ∀ entry ∈ s.responses, AnswersInShape entry) ∧
      ∀ d mem ch req d' resp, Intercepted req.calling →
        handleRequest d mem ch req = .ok (d', resp) →
          (Shaped req.calling resp ↔ ConnectWaits d ch req.calling) := by
  constructor
  · intro h
    induction h with
    | initial hinitial =>
        obtain ⟨d, -, -, -, -, hresponses⟩ := hinitial
        rw [hresponses]
        simp
    | step hreached hguard hstep ih =>
        obtain ⟨daemon, hnext, rfl⟩ := Option.map_eq_some_iff.mp hstep
        intro entry hentry
        rcases List.mem_append.mp hentry with hentry | hentry
        · exact ih entry hentry
        · exact written_shaped (invariant hreached.reachable) hguard entry hentry
  · intro d mem ch req d' resp hintercepted hcall
    exact handleRequest_shaped_iff hintercepted hcall

def sampleState : State :=
  { daemon := .running sampleDaemon
    receiving := fun _ => none
    connecting := fun _ => none
    responses := [] }

theorem sampleState_initial : machine.initial sampleState :=
  ⟨sampleDaemon, rfl, rfl, rfl, rfl, rfl⟩

def sampleAddr : List UInt8 :=
  [2, 0, 0, 80, 10, 0, 0, 1, 0, 0, 0, 0, 0, 0, 0, 0]

/-- What the peer at that address answers to the first SYN of the daemon. -/
def sampleSynAck : SocketBuffer :=
  tunDeviceRx ([0x45, 0, 0, 40, 0, 7, 0, 0, 64, 6, 0, 0, 10, 0, 0, 1, 192, 168, 0, 1] ++
    [0, 80, 4, 1, 0, 0, 0, 8, 0, 0, 0, 2, 0x50, 0x12, 0, 0, 0, 0, 0, 0])

theorem replies_shaped_sample :
    (∃ s, machine.ReachableUnder WaitsToConnect s ∧ s.responses.length = 2 ∧
      ∀ entry ∈ s.responses, AnswersInShape entry) ∧
      ∃ d resp, handleRequest sampleDaemon sampleUninit 0 { calling := .closeCall, pid := 7 } =
        .ok (d, resp) ∧ Shaped .closeCall resp := by
  constructor
  · have hinitial :
        machine.ReachableUnder WaitsToConnect sampleState := .initial sampleState_initial
    have haccepted := hinitial.step (a := Label.accept) trivial rfl
    have hsocket := haccepted.step (a := sampleRead (.socketCall 2 1 0))
      ⟨trivial, fun _ _ => trivial⟩ rfl
    have hconnect := hsocket.step (a := sampleRead (.connectCall sampleAddr)) (by
      refine ⟨trivial, ?_⟩
      rintro d ⟨⟩ ref so ⟨⟨⟩, ⟨⟩⟩
      exact ⟨rfl, rfl⟩) rfl
    exact ⟨_, hconnect, rfl, (replies_shaped_iff_connectWaits _).1 hconnect⟩
  · refine ⟨_, _, rfl, ?_⟩
    exact ((replies_shaped_iff_connectWaits sampleState).2 sampleDaemon sampleUninit 0
      { calling := .closeCall, pid := 7 } _ _ trivial rfl).mpr trivial

/-- The response to `connect` on a UDP socket has no return code. -/
theorem udp_connect_unshaped :
    ¬ ∀ s, machine.ReachableUnder FromInterceptor s → ∀ entry ∈ s.responses,
      AnswersInShape entry := by
  intro hshaped
  have hinitial : machine.ReachableUnder FromInterceptor sampleState := .initial sampleState_initial
  have haccepted := hinitial.step (a := Label.accept) trivial rfl
  have hsocket := haccepted.step (a := sampleRead (.socketCall 2 2 0)) trivial rfl
  have hconnect := hsocket.step (a := sampleRead (.connectCall sampleAddr)) trivial rfl
  obtain ⟨calling, -, hshape⟩ := hshaped _ hconnect
    (some (.connectCall sampleAddr), { returning := some (.connectCall 0 none), retCode := none })
    (.tail _ (.head _))
  cases hshape.retCode_isSome

end MuQuinet.ReplyShape
