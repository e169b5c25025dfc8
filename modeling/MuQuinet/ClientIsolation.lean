import MuQuinet.DaemonSurvival
import MuQuinet.PacketEffects

namespace MuQuinet.ClientIsolation

open MuQuinet.Lib.Machines
open MuQuinet.Lib.Outcomes
open MuQuinet.Lib.Populations.Population (getD_set_cases)
open MuQuinet.Buffers
open MuQuinet.ChannelSockets
open MuQuinet.DaemonSurvival
open MuQuinet.DeliveryIsolation
open MuQuinet.HandlerEffects
open MuQuinet.IpHeaders
open MuQuinet.IpLayer
open MuQuinet.Pcbs
open MuQuinet.RequestHandler
open MuQuinet.Rpc
open MuQuinet.Sockets
open MuQuinet.TcpLayer
open MuQuinet.UdpLayer

/-- A socket is as before, with its queue and its flags, and so is its PCB. -/
def SameSlot (d d' : Daemon) (ref : SocketRef) : Prop :=
  match ref.type with
  | .UDP => d'.udpSlot ref.index = d.udpSlot ref.index
  | .TCP => d'.tcpSlot ref.index = d.tcpSlot ref.index

/-- What belongs to a channel is as before. -/
structure Untouched (ch : Nat) (d d' : Daemon) : Prop where
  rrChannel_eq : d'.rrChannel ch = d.rrChannel ch
  slot_eq : ∀ ref, d.socketOf ch = some ref → SameSlot d d' ref

section Untouched

variable {ch : Nat} {d d' d'' : Daemon}

theorem SameSlot.refl (d : Daemon) (ref : SocketRef) : SameSlot d d ref := by
  rcases ref with ⟨_ | _, index⟩ <;> rfl

theorem SameSlot.trans {ref : SocketRef} (h : SameSlot d d' ref) (h' : SameSlot d' d'' ref) :
    SameSlot d d'' ref := by
  rcases ref with ⟨_ | _, index⟩
  · exact Eq.trans h' h
  · exact Eq.trans h' h

theorem Untouched.refl (ch : Nat) (d : Daemon) : Untouched ch d d :=
  ⟨rfl, fun ref _ => .refl d ref⟩

theorem Untouched.socketOf_eq (h : Untouched ch d d') : d'.socketOf ch = d.socketOf ch :=
  congrArg (·.bind ReqRespChannel.socket) h.rrChannel_eq

theorem Untouched.trans (h : Untouched ch d d') (h' : Untouched ch d' d'') :
    Untouched ch d d'' := by
  refine ⟨h'.rrChannel_eq.trans h.rrChannel_eq, ?_⟩
  intro ref href
  exact (h.slot_eq ref href).trans (h'.slot_eq ref (h.socketOf_eq.trans href))

end Untouched

/-- The sockets that a packet is received on. -/
def recipients (d : Daemon) (uninit : SockaddrIn) (skbuf : SocketBuffer) : List SocketRef :=
  let type := if protoxmap (iphdr skbuf).protocol = some .TCP then .TCP else .UDP
  (receivers (rx d.stack uninit skbuf).2).map fun i => { type := type, index := i }

/-- The steps that are not for a channel: what other clients do, and packets that its
socket does not receive. -/
def Foreign (ch : Nat) : State → Label → Prop
  | .running _, .read _ c _ _ => c ≠ ch
  | .running _, .hangUp c => c ≠ ch
  | .running d, .rx uninit skbuf => ∀ ref ∈ recipients d uninit skbuf, d.socketOf ch ≠ some ref
  | .running d, .notified ref => d.socketOf ch ≠ some ref
  | _, _ => True

/-- The runs from a state of the daemon. -/
def machineFrom (d : Daemon) : Machine State Label :=
  { machine with initial := (· = .running d) }

section Handlers

variable {d d' : Daemon} {ch c : Nat}

theorem rrChannel_of_eq (h : d'.rrChannels = d.rrChannels) (ch : Nat) :
    d'.rrChannel ch = d.rrChannel ch := by
  rw [Daemon.rrChannel, h, Daemon.rrChannel]

theorem rrChannels_setSocketAt (d : Daemon) (ref : SocketRef) (so : Socket) :
    (d.setSocketAt ref so).rrChannels = d.rrChannels := by
  rcases ref with ⟨_ | _, index⟩ <;> rfl

theorem rrChannel_removeRRChannel (hne : c ≠ ch) :
    (d.removeRRChannel c).rrChannel ch = d.rrChannel ch := by
  rw [Daemon.removeRRChannel, rrChannel_setRRChannel_of_ne hne]
  exact rrChannel_of_eq (rrChannels_release d _) ch

theorem socketCall_rrChannel {mem : Uninit} {domain type : Int32} {resp : Response}
    (hne : c ≠ ch) (h : socketCall d mem c domain type = .ok (d', resp)) :
    d'.rrChannel ch = d.rrChannel ch := by
  unfold socketCall at h
  split at h
  · cases h
  · split at h
    · cases h
    · dsimp only at h
      split at h
      · cases h
        rw [rrChannel_setRRChannel_of_ne hne]
        exact rrChannel_of_eq (rrChannels_release _ _) ch
      · cases h
        rw [rrChannel_setRRChannel_of_ne hne]
        exact rrChannel_of_eq (rrChannels_release _ _) ch

/-- A request changes no channel but its own. -/
theorem handleRequest_rrChannel {mem : Uninit} {req : Request} {resp : Response} (hne : c ≠ ch)
    (h : handleRequest d mem c req = .ok (d', resp)) : d'.rrChannel ch = d.rrChannel ch := by
  unfold handleRequest at h
  generalize req.calling = calling at h
  cases calling with
  | socketCall domain type protocol => exact socketCall_rrChannel hne h
  | connectCall addr =>
      obtain ⟨ref, so, -, hexit⟩ := connectCall_exit h
      cases hexit <;> rfl
  | recvfromCall len flags requireAddr =>
      simp only [recvfromCall, bind_eq_ok_iff] at h
      obtain ⟨⟨ref, so⟩, -, ⟨so', _⟩, -, ⟨⟩⟩ := h
      exact rrChannel_of_eq (rrChannels_setSocketAt d ref so') ch
  | sendtoCall buf flags addr =>
      obtain ⟨ref, so, -, hexit⟩ := sendtoCall_exit h
      cases hexit <;> rfl
  | getpeernameCall =>
      obtain ⟨_, -, ⟨⟩⟩ := bind_eq_ok_iff.mp h
      rfl
  | getsocknameCall =>
      obtain ⟨_, -, ⟨⟩⟩ := bind_eq_ok_iff.mp h
      rfl
  | atstartAction progname =>
      cases h
      exact rrChannel_setRRChannel_of_ne hne
  | _ =>
      cases h
      rfl

/-- A request leaves the elements alone that are neither free nor the channel's own. -/
theorem slot_eq_of_effect {P : Type} {ref : SocketRef} {calling : Calling} {resp : Response}
    {fresh : P → Prop} {called : P → P → Prop} {slot slot' : Slot P}
    (h : SlotEffect d c ref calling resp fresh called slot slot')
    (howner : d.socketOf c ≠ some ref) (hlive : slot ≠ .expired) : slot' = slot := by
  cases h with
  | unchanged => rfl
  | released _ hself => exact absurd hself howner
  | created => exact absurd rfl hlive
  | called _ hself => exact absurd hself howner
  | received _ hself => exact absurd hself howner

theorem ne_expired_of_liveSlot {P : Type} {type : SocketType} {slot : Slot P}
    (h : LiveSlot type slot) : slot ≠ .expired := by
  rintro rfl
  obtain ⟨pcb, so, heq, -⟩ := h
  cases heq

theorem sameSlot_of_effects (hconn : Connected d) {calling : Calling} {resp : Response}
    (heffects : Effects d d' c calling resp) (hne : c ≠ ch) {ref : SocketRef}
    (href : d.socketOf ch = some ref) : SameSlot d d' ref := by
  have howner : d.socketOf c ≠ some ref := fun hself => hne (hconn.unshared c ch ref hself href)
  have halive := hconn.alive ch ref href
  rcases ref with ⟨_ | _, index⟩
  · exact slot_eq_of_effect (heffects.udp index) howner (ne_expired_of_liveSlot halive)
  · exact slot_eq_of_effect (heffects.tcp index) howner (ne_expired_of_liveSlot halive)

theorem untouched_of_request (hconn : Connected d) {mem : Uninit} {req : Request}
    {resp : Response} (hne : c ≠ ch) (h : handleRequest d mem c req = .ok (d', resp)) :
    Untouched ch d d' :=
  ⟨handleRequest_rrChannel hne h,
    fun _ href => sameSlot_of_effects hconn (handleRequest_effects hconn h) hne href⟩

theorem untouched_removeRRChannel (hconn : Connected d) (hne : c ≠ ch) :
    Untouched ch d (d.removeRRChannel c) := by
  refine ⟨rrChannel_removeRRChannel hne, ?_⟩
  intro ref href
  exact sameSlot_of_effects hconn
    (removeRRChannel_effects d c .notSet { returning := none, retCode := none }) hne href

theorem untouched_onReadReady (hconn : Connected d) {mem : Uninit} {result : ReadResult}
    {writeFails : Bool} {sent : Option Response} (hne : c ≠ ch)
    (h : onReadReady d mem c result writeFails = .ok (d', sent)) : Untouched ch d d' := by
  cases onReadReady_exit h with
  | again => exact .refl ch d
  | eof => exact untouched_removeRRChannel hconn hne
  | written hcall => exact untouched_of_request hconn hne hcall
  | unwritten hcall =>
      refine (untouched_of_request hconn hne hcall).trans ⟨?_, ?_⟩
      · exact rrChannel_setRRChannel_of_ne hne
      · exact fun ref _ => .refl _ ref

theorem untouched_setSocketAt {ref : SocketRef} (hne : d.socketOf ch ≠ some ref) (so : Socket) :
    Untouched ch d (d.setSocketAt ref so) := by
  refine ⟨rrChannel_of_eq (rrChannels_setSocketAt d ref so) ch, ?_⟩
  rintro ⟨_ | _, index⟩ href
  all_goals
    rcases ref with ⟨_ | _, index'⟩
  · rcases getD_set_cases d.stack.udp.pcbs index' index
      { d.udpSlot index' with socket := some so } .expired with heq | ⟨rfl, -⟩
    · exact heq
    · exact absurd href hne
  · rfl
  · rfl
  · rcases getD_set_cases d.stack.tcp.pcbs index' index
      { d.tcpSlot index' with socket := some so } .expired with heq | ⟨rfl, -⟩
    · exact heq
    · exact absurd href hne

theorem untouched_accept (hch : (d.rrChannel ch).isSome = true) : Untouched ch d (accept d) := by
  refine ⟨?_, fun ref _ => .refl d ref⟩
  have hlt : ch < d.rrChannels.length := by
    by_contra hge
    rw [Daemon.rrChannel, List.getD_eq_default _ _ (Nat.not_lt.mp hge)] at hch
    cases hch
  exact List.getD_append _ _ _ _ hlt

end Handlers

section Packets

variable {d : Daemon} {ch : Nat}

theorem getD_of_getElem? {P : Type} {pcbs pcbs' : List (Slot P)} {i : Nat}
    (h : pcbs'[i]? = pcbs[i]?) : pcbs'.getD i .expired = pcbs.getD i .expired := by
  rw [List.getD_eq_getElem?_getD, h, List.getD_eq_getElem?_getD]

theorem receivers_append (events events' : List Event) :
    receivers (events ++ events') = receivers events ++ receivers events' :=
  List.filterMap_append

theorem demultiplex_udpSlot (st : Stack) (uninit : SockaddrIn) (hdr : IpHeader)
    (skbuf : SocketBuffer) (next : List SocketBuffer) {i : Nat}
    (h : i ∈ receivers (demultiplex st uninit hdr skbuf next).2 →
      protoxmap hdr.protocol = some .TCP) :
    (demultiplex st uninit hdr skbuf next).1.udp.pcbs.getD i .expired =
      st.udp.pcbs.getD i .expired := by
  unfold demultiplex at h ⊢
  dsimp only at h ⊢
  split at h
  · rename_i hudp
    refine getD_of_getElem? ((udp_rx_isolated st.udp uninit _ next).others_unchanged i ?_)
    intro hreceived
    have htcp := h (by rw [receivers_append]; exact List.mem_append_right _ hreceived)
    rw [hudp] at htcp
    cases htcp
  · rfl
  · rfl

theorem demultiplex_tcpSlot (st : Stack) (uninit : SockaddrIn) (hdr : IpHeader)
    (skbuf : SocketBuffer) (next : List SocketBuffer) {i : Nat}
    (h : i ∈ receivers (demultiplex st uninit hdr skbuf next).2 →
      protoxmap hdr.protocol ≠ some .TCP) :
    (demultiplex st uninit hdr skbuf next).1.tcp.pcbs.getD i .expired =
      st.tcp.pcbs.getD i .expired := by
  unfold demultiplex at h ⊢
  dsimp only at h ⊢
  split at h
  · rfl
  · rename_i htcp
    refine getD_of_getElem? ((tcp_rx_isolated st.tcp uninit _ next).others_unchanged i ?_)
    intro hreceived
    exact h (by rw [receivers_append]; exact List.mem_append_right _ hreceived) htcp
  · rfl

theorem rx_udpSlot (st : Stack) (uninit : SockaddrIn) (skbuf : SocketBuffer) {i : Nat}
    (h : i ∈ receivers (rx st uninit skbuf).2 →
      protoxmap (iphdr skbuf).protocol = some .TCP) :
    (rx st uninit skbuf).1.udp.pcbs.getD i .expired = st.udp.pcbs.getD i .expired := by
  revert h
  unfold rx
  dsimp only
  split
  · exact fun _ => rfl
  · split
    · exact fun _ => rfl
    · split
      · split
        · exact fun _ => rfl
        · exact fun _ => rfl
        · rename_i defrager packet next _
          exact demultiplex_udpSlot { st with defrager := defrager } uninit _ packet next
      · exact demultiplex_udpSlot st uninit _ skbuf []

theorem rx_tcpSlot (st : Stack) (uninit : SockaddrIn) (skbuf : SocketBuffer) {i : Nat}
    (h : i ∈ receivers (rx st uninit skbuf).2 →
      protoxmap (iphdr skbuf).protocol ≠ some .TCP) :
    (rx st uninit skbuf).1.tcp.pcbs.getD i .expired = st.tcp.pcbs.getD i .expired := by
  revert h
  unfold rx
  dsimp only
  split
  · exact fun _ => rfl
  · split
    · exact fun _ => rfl
    · split
      · split
        · exact fun _ => rfl
        · exact fun _ => rfl
        · rename_i defrager packet next _
          exact demultiplex_tcpSlot { st with defrager := defrager } uninit _ packet next
      · exact demultiplex_tcpSlot st uninit _ skbuf []

theorem untouched_rx {uninit : SockaddrIn} {skbuf : SocketBuffer}
    (h : ∀ ref ∈ recipients d uninit skbuf, d.socketOf ch ≠ some ref) :
    Untouched ch d { d with stack := (rx d.stack uninit skbuf).1 } := by
  refine ⟨rfl, ?_⟩
  rintro ⟨_ | _, index⟩ href
  · refine rx_udpSlot d.stack uninit skbuf ?_
    intro hreceived
    by_contra hother
    exact h _ (List.mem_map.mpr ⟨index, hreceived, by rw [if_neg hother]⟩) href
  · refine rx_tcpSlot d.stack uninit skbuf ?_
    intro hreceived htcp
    exact h _ (List.mem_map.mpr ⟨index, hreceived, by rw [if_pos htcp]⟩) href

end Packets

theorem untouched_next {d d' : Daemon} {ch : Nat} {a : Label} (hconn : Connected d)
    (hch : (d.rrChannel ch).isSome = true) (hforeign : Foreign ch (.running d) a)
    (hnext : next (.running d) a = some (.running d')) : Untouched ch d d' := by
  cases next_exit hnext with
  | accept => exact untouched_accept hch
  | read _ hread => exact untouched_onReadReady hconn hforeign hread
  | hangUp => exact untouched_removeRRChannel hconn hforeign
  | rx uninit skbuf => exact untouched_rx hforeign
  | notified => exact untouched_setSocketAt hforeign _

/-- Whatever other clients ask for, and whatever is sent to them, a client finds its
channel, its socket with all that waits there, and its PCB as it left them. -/
theorem untouched_of_foreign {d d' : Daemon} {ch : Nat} (hreached : machine.Reachable (.running d))
    (hch : (d.rrChannel ch).isSome = true)
    (hrun : (machineFrom d).ReachableUnder (Foreign ch) (.running d')) : Untouched ch d d' := by
  have hinvariant : ∀ s, (machineFrom d).ReachableUnder (Foreign ch) s →
      ∀ e, s = .running e → machine.Reachable s ∧ Untouched ch d e := by
    intro s hs
    induction hs with
    | initial hinitial =>
        rintro e rfl
        cases hinitial
        exact ⟨hreached, .refl ch d⟩
    | @step s t a hs hforeign hnext ih =>
        rintro e rfl
        rcases s with f | fault
        · obtain ⟨hf, huntouched⟩ := ih f rfl
          have hsome : (f.rrChannel ch).isSome = true := huntouched.rrChannel_eq ▸ hch
          exact ⟨hf.step trivial hnext,
            huntouched.trans (untouched_next (connected hf f rfl) hsome hforeign hnext)⟩
        · cases hnext
  exact (hinvariant _ hrun d' rfl).2

def sampleOwn : List Label :=
  [.accept, .accept, sampleRead (.socketCall 2 2 0)]

def sampleOthers : List Label :=
  [.read sampleUninit 1 (.message { calling := .socketCall 2 1 0, pid := 8 }) false, .hangUp 1]

theorem untouched_sample :
    ∃ d d', machine.exec (.running sampleDaemon) sampleOwn = some (.running d) ∧
      machine.exec (.running d) sampleOthers = some (.running d') ∧
      d.socketOf 0 = some { type := .UDP, index := 0 } ∧ Untouched 0 d d' := by
  obtain ⟨d, d', hown, hothers, hch, href⟩ :
    ∃ d d', machine.exec (.running sampleDaemon) sampleOwn = some (.running d) ∧
      machine.exec (.running d) sampleOthers = some (.running d') ∧
      (d.rrChannel 0).isSome = true ∧ d.socketOf 0 = some { type := .UDP, index := 0 } :=
    ⟨_, _, rfl, rfl, rfl, rfl⟩
  have hreached : machine.Reachable (.running d) :=
    Machine.reachable_of_exec (.initial ⟨sampleDaemon, rfl, rfl⟩) hown
  have hforeign : ∀ s, ∀ a ∈ sampleOthers, Foreign 0 s a := by
    intro s a ha
    simp only [sampleOthers, List.mem_cons, List.not_mem_nil, or_false] at ha
    rcases ha with rfl | rfl <;> cases s <;> simp [Foreign]
  have hrun : (machineFrom d).ReachableUnder (Foreign 0) (.running d') :=
    Machine.reachableUnder_of_exec (M := machineFrom d) (.initial rfl) hforeign hothers
  exact ⟨d, d', hown, hothers, href, untouched_of_foreign hreached hch hrun⟩

end MuQuinet.ClientIsolation
