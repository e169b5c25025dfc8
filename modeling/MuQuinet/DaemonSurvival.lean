import MuQuinet.Lib.Machines
import MuQuinet.HandlerAnswers

namespace MuQuinet.DaemonSurvival

open MuQuinet.Lib.Machines
open MuQuinet.Buffers
open MuQuinet.Builds
open MuQuinet.ChannelSockets
open MuQuinet.HandlerAnswers
open MuQuinet.IpLayer
open MuQuinet.RequestHandler
open MuQuinet.Rpc
open MuQuinet.Sockets

def accept (d : Daemon) : Daemon :=
  { d with rrChannels := d.rrChannels ++ [some {}] }

theorem socketOf_accept (d : Daemon) (ch : Nat) : (accept d).socketOf ch = d.socketOf ch := by
  unfold Daemon.socketOf Daemon.rrChannel accept
  rcases Nat.lt_trichotomy ch d.rrChannels.length with hlt | rfl | hgt
  · rw [List.getD_append _ _ _ _ hlt]
  · simp
  · have hge : (d.rrChannels ++ [some ({} : ReqRespChannel)]).length ≤ ch := by
      rw [List.length_append, List.length_singleton]
      exact hgt
    rw [List.getD_eq_default _ _ hge, List.getD_eq_default _ _ (Nat.le_of_lt hgt)]

theorem accept_connected {d : Daemon} (h : Connected d) : Connected (accept d) :=
  h.keeps ⟨socketOf_accept d, fun _ halive => halive⟩

/-- The daemon while it runs, or the fault that its event loop thread met. -/
inductive State
  | running (d : Daemon)
  | failed (fault : Fault)
deriving DecidableEq, Repr

inductive Label
  | accept
  | read (mem : Uninit) (ch : Nat) (result : ReadResult) (writeFails : Bool)
  | hangUp (ch : Nat)
  | rx (uninit : SockaddrIn) (skbuf : SocketBuffer)
  /-- The loop reads the notification pipe of a socket. -/
  | notified (ref : SocketRef)
deriving DecidableEq, Repr

def polled (d : Daemon) (ch : Nat) : Bool :=
  (d.rrChannel ch).any ReqRespChannel.registered

def next : State → Label → Option State
  | .failed _, _ => none
  | .running d, .accept => some (.running (accept d))
  | .running d, .read mem ch result writeFails =>
      if polled d ch then
        match onReadReady d mem ch result writeFails with
        | .ok (d, _) => some (.running d)
        | .error fault => some (.failed fault)
      else none
  | .running d, .hangUp ch =>
      if polled d ch then some (.running (d.removeRRChannel ch)) else none
  | .running d, .rx uninit skbuf =>
      some (.running { d with stack := (rx d.stack uninit skbuf).1 })
  | .running d, .notified ref =>
      match d.socketAt ref with
      | none => none
      | some so =>
          match sChannelReadCb so with
          | .ok (so, _) => some (.running (d.setSocketAt ref so))
          -- A callback that waits for a packet or fails is no step of these runs, which
          -- are about `onReadReady`.
          | .error _ => none

def machine : Machine State Label where
  initial s := ∃ d, s = .running d ∧ d.rrChannels = []
  next := next

/-- The steps in a build: those of `next`, but for the requests whose handler does not
return. -/
def nextIn (build : Build) : State → Label → Option State
  | .running d, .read mem ch result writeFails =>
      if polled d ch then
        match onReadReadyIn build d mem ch result writeFails with
        | .ok (d, _) => some (.running d)
        | .error fault => some (.failed fault)
      else none
  | s, a => next s a

def machineIn (build : Build) : Machine State Label where
  initial := machine.initial
  next := nextIn build

/-- The daemon from its start, before any packet. -/
def started : Machine State Label where
  initial s := ∃ d, s = .running d ∧ d.rrChannels = [] ∧ d.stack.udp.pcbs = [] ∧
    d.stack.tcp.pcbs = [] ∧ d.stack.defrager.defragCtxList = []
  next := next

theorem reachable_of_started {guard : State → Label → Prop} {s : State}
    (h : started.ReachableUnder guard s) : machine.Reachable s := by
  induction h with
  | initial hs =>
      obtain ⟨d, hd, hrrChannels, -⟩ := hs
      exact .initial ⟨d, hd, hrrChannels⟩
  | step _ _ hnext ih => exact ih.step trivial hnext

/-- What the daemon serves in a build: where `Pcb::bind` does not return, nothing that
comes to call it. -/
def ServedIn (build : Build) (d : Daemon) (ch : Nat) (result : ReadResult) : Prop :=
  Served d ch result ∧ (build.bindReturns = true ∨ result.callsBind d ch = false)

def ServedStep (build : Build) : State → Label → Prop
  | .running d, .read _ ch result _ => ServedIn build d ch result
  | _, _ => True

/-- The steps after which the daemon still runs. -/
inductive NextExit (d : Daemon) : Label → Daemon → Prop
  | accept : NextExit d .accept (accept d)
  | read {mem : Uninit} {ch : Nat} {result : ReadResult} {writeFails : Bool} {d' : Daemon}
      {sent : Option Response} : polled d ch = true →
      onReadReady d mem ch result writeFails = .ok (d', sent) →
      NextExit d (.read mem ch result writeFails) d'
  | hangUp {ch : Nat} : polled d ch = true → NextExit d (.hangUp ch) (d.removeRRChannel ch)
  | rx (uninit : SockaddrIn) (skbuf : SocketBuffer) :
      NextExit d (.rx uninit skbuf) { d with stack := (rx d.stack uninit skbuf).1 }
  | notified {ref : SocketRef} {so so' : Socket} {sent : Option Response} :
      d.socketAt ref = some so → sChannelReadCb so = .ok (so', sent) →
      NextExit d (.notified ref) (d.setSocketAt ref so')

theorem next_exit {d d' : Daemon} {a : Label} (h : next (.running d) a = some (.running d')) :
    NextExit d a d' := by
  cases a with
  | accept =>
      cases h
      exact .accept
  | read mem ch result writeFails =>
      simp only [next] at h
      split at h
      · rename_i hpolled
        split at h
        · rename_i hread
          cases h
          exact .read hpolled hread
        · cases h
      · cases h
  | hangUp ch =>
      simp only [next] at h
      split at h
      · rename_i hpolled
        cases h
        exact .hangUp hpolled
      · cases h
  | rx uninit skbuf =>
      cases h
      exact .rx uninit skbuf
  | notified ref =>
      simp only [next] at h
      split at h
      · cases h
      · rename_i hso
        split at h
        · rename_i hcb
          cases h
          exact .notified hso hcb
        · cases h

theorem connected_step {d : Daemon} {a : Label} {s : State} (h : Connected d)
    (hnext : next (.running d) a = some s) : ∀ d', s = .running d' → Connected d' := by
  rintro d' rfl
  cases next_exit hnext with
  | accept => exact accept_connected h
  | read _ hread => exact onReadReady_connected h hread
  | hangUp => exact h.removeRRChannel _
  | rx uninit skbuf => exact h.keeps (keeps_rx d uninit skbuf)
  | notified hso hcb => exact h.keeps (keeps_setSocketAt hso (sChannelReadCb_type hcb))

theorem connected {s : State} (h : machine.Reachable s) :
    ∀ d, s = .running d → Connected d := by
  refine h.invariant (I := fun s => ∀ d, s = .running d → Connected d) ?_ ?_
  · rintro s ⟨d, rfl, hempty⟩ d' ⟨⟩
    have hnone : ∀ ch, d.socketOf ch = none := by
      intro ch
      simp [Daemon.socketOf, Daemon.rrChannel, hempty]
    constructor
    · intro ch ref href
      rw [hnone] at href
      cases href
    · intro ch ch' ref href
      rw [hnone] at href
      cases href
  · rintro s a t hs - hnext
    rcases s with d | fault
    · exact connected_step (hs d rfl) hnext
    · cases hnext

theorem onReadReadyIn_ok_iff {d : Daemon} (h : Connected d) (build : Build) (mem : Uninit)
    (ch : Nat) (result : ReadResult) (writeFails : Bool) :
    (∃ r, onReadReadyIn build d mem ch result writeFails = .ok r) ↔
      ServedIn build d ch result := by
  unfold onReadReadyIn ServedIn
  rw [← onReadReady_ok_iff h mem ch result writeFails]
  split
  · rename_i hbind
    simp [hbind]
  · rename_i hreturns
    rw [not_and_or, Bool.not_eq_false, Bool.not_eq_true] at hreturns
    exact (and_iff_left hreturns).symm

theorem onReadReadyIn_eq_ok {build : Build} {d : Daemon} {mem : Uninit} {ch : Nat}
    {result : ReadResult} {writeFails : Bool} {r : Daemon × Option Response}
    (h : onReadReadyIn build d mem ch result writeFails = .ok r) :
    onReadReady d mem ch result writeFails = .ok r := by
  unfold onReadReadyIn at h
  split at h
  · cases h
  · exact h

/-- A step after which the daemon still runs is the same in every build. -/
theorem next_of_nextIn {build : Build} {s : State} {a : Label} {d : Daemon}
    (h : nextIn build s a = some (.running d)) : next s a = some (.running d) := by
  unfold nextIn at h
  split at h
  · split at h
    · rename_i hpolled
      split at h
      · rename_i hread
        rw [next, if_pos hpolled, onReadReadyIn_eq_ok hread]
        exact h
      · cases h
    · cases h
  · exact h

/-- `machine` is the daemon of the builds in which `Pcb::bind` returns. -/
theorem machineIn_of_bindReturns {build : Build} (h : build.bindReturns = true) :
    machineIn build = machine := by
  have hnext : nextIn build = next := by
    funext s a
    unfold nextIn
    split
    · simp [onReadReadyIn, h, next]
    · rfl
  rw [machineIn, hnext]
  rfl

theorem reachable_of_running {build : Build} {guard : State → Label → Prop} {s : State}
    (h : (machineIn build).ReachableUnder guard s) {d : Daemon} (hs : s = .running d) :
    machine.Reachable s := by
  induction h generalizing d with
  | initial hinitial => exact .initial hinitial
  | @step s t a _ _ hnext ih =>
      subst hs
      rcases s with before | fault
      · exact (ih rfl).step trivial (next_of_nextIn hnext)
      · cases hnext

theorem read_running_iff {d : Daemon} (h : Connected d) (build : Build) (mem : Uninit) {ch : Nat}
    (hpolled : polled d ch = true) (result : ReadResult) (writeFails : Bool) :
    (∃ d', nextIn build (.running d) (.read mem ch result writeFails) = some (.running d')) ↔
      ServedIn build d ch result := by
  rw [← onReadReadyIn_ok_iff h build mem ch result writeFails]
  simp only [nextIn, hpolled, if_true]
  rcases onReadReadyIn build d mem ch result writeFails with fault | ⟨d', sent⟩
  · simp
  · simp

theorem running_of_served {build : Build} {d : Daemon} {a : Label} {s : State} (h : Connected d)
    (hserved : ServedStep build (.running d) a) (hnext : nextIn build (.running d) a = some s) :
    ∃ d', s = .running d' := by
  cases a with
  | read mem ch result writeFails =>
      have hpolled : polled d ch = true := by
        by_contra hunpolled
        simp [nextIn, hunpolled] at hnext
      obtain ⟨d', hrunning⟩ := (read_running_iff h build mem hpolled result writeFails).mpr hserved
      exact ⟨d', Option.some.inj (hnext.symm.trans hrunning)⟩
  | accept => exact ⟨_, (Option.some.inj hnext).symm⟩
  | rx uninit skbuf => exact ⟨_, (Option.some.inj hnext).symm⟩
  | hangUp ch =>
      simp only [nextIn, next] at hnext
      split at hnext
      · exact ⟨_, (Option.some.inj hnext).symm⟩
      · cases hnext
  | notified ref =>
      simp only [nextIn, next] at hnext
      split at hnext
      · cases hnext
      · split at hnext
        · exact ⟨_, (Option.some.inj hnext).symm⟩
        · cases hnext

/-- In any build the daemon survives the runs whose requests it serves there, and meets a
fault at every other request. -/
theorem survives_iff_served (build : Build) (s : State) :
    ((machineIn build).ReachableUnder (ServedStep build) s → ∃ d, s = .running d) ∧
    (∀ d mem ch result writeFails, (machineIn build).Reachable s → s = .running d →
      polled d ch = true →
      ((∃ d', (machineIn build).next s (.read mem ch result writeFails) = some (.running d')) ↔
        ServedIn build d ch result)) := by
  constructor
  · intro h
    cases h with
    | initial hinitial =>
        obtain ⟨d, rfl, -⟩ := hinitial
        exact ⟨d, rfl⟩
    | @step s t a hreached hserved hnext =>
        rcases s with d | fault
        · have hconn := connected (reachable_of_running hreached rfl) d rfl
          exact running_of_served hconn hserved hnext
        · cases hnext
  · rintro d mem ch result writeFails hreached rfl hpolled
    exact read_running_iff (connected (reachable_of_running hreached rfl) d rfl) build mem hpolled
      result writeFails

def sampleDaemon : Daemon :=
  { rrChannels := []
    stack :=
      { defrager := { defragCtxList := [] }
        udp := { pcbs := [], port := 1024 }
        tcp := { pcbs := [], port := 1024 } }
    stackAddr := 0x0100a8c0 }

def sampleUninit : Uninit :=
  { sendUnack := 0, sendNext := 0, irs := 0, recvNext := 0 }

def sampleRead (calling : Calling) : Label :=
  .read sampleUninit 0 (.message { calling := calling, pid := 7 }) false

theorem sampleAccepted_reachableUnder (build : Build) (guard : State → Label → Prop)
    (hguard : guard (.running sampleDaemon) .accept) :
    (machineIn build).ReachableUnder guard (.running (accept sampleDaemon)) := by
  have hinitial : (machineIn build).ReachableUnder guard (.running sampleDaemon) :=
    .initial ⟨sampleDaemon, rfl, rfl⟩
  exact hinitial.step hguard rfl

theorem sampleAccepted_reachable : machine.Reachable (.running (accept sampleDaemon)) :=
  reachable_of_running (sampleAccepted_reachableUnder .debug (fun _ _ => True) trivial) rfl

theorem survives_sample :
    (∃ d, State.running (accept sampleDaemon) = .running d) ∧
      ∃ d', (machineIn .release).next (.running (accept sampleDaemon))
        (sampleRead (.socketCall 2 2 0)) = some (.running d') := by
  have hserved := survives_iff_served .release (.running (accept sampleDaemon))
  refine ⟨hserved.1 (sampleAccepted_reachableUnder _ _ trivial), ?_⟩
  refine (hserved.2 _ _ _ _ _ (sampleAccepted_reachableUnder _ _ trivial) rfl rfl).mpr ?_
  exact ⟨⟨rfl, .inr (by decide)⟩, .inr rfl⟩

/-- A daemon with a UDP socket, whose client sends a datagram. -/
theorem bind_failed :
    (machineIn .release).ReachableUnder (ServedStep .debug) (.failed .noReturn) := by
  have haccepted := sampleAccepted_reachableUnder .release (ServedStep .debug) trivial
  obtain ⟨d, hsocket, hserved, hfailed⟩ : ∃ d,
      (machineIn .release).next (.running (accept sampleDaemon)) (sampleRead (.socketCall 2 2 0)) =
        some (.running d) ∧
      ServedStep .debug (.running d) (sampleRead (.sendtoCall [1] 0 none)) ∧
      (machineIn .release).next (.running d) (sampleRead (.sendtoCall [1] 0 none)) =
        some (.failed .noReturn) := by
    refine ⟨_, rfl, ⟨⟨_, _, ⟨rfl, rfl⟩, ?_⟩, .inl rfl⟩, rfl⟩
    rintro - bytes ⟨⟩
  have hrequest : ServedStep .debug (.running (accept sampleDaemon))
      (sampleRead (.socketCall 2 2 0)) := ⟨⟨rfl, .inr (by decide)⟩, .inl rfl⟩
  exact (haccepted.step hrequest hsocket).step hserved hfailed

/-- No build survives `getpeername` before `socket`, and the default one dies of a request
that an unoptimised one serves. -/
theorem clients_end_daemon :
    (¬ ∃ build, ∀ s, (machineIn build).Reachable s → ∃ d, s = .running d) ∧
      ¬ ∀ s, (machineIn .release).ReachableUnder (ServedStep .debug) s → ∃ d, s = .running d := by
  constructor
  · rintro ⟨build, hsurvives⟩
    have hfails : (machineIn build).next (.running (accept sampleDaemon))
        (sampleRead .getpeernameCall) = some (.failed .nullSocket) := by
      obtain ⟨asserts, _ | _⟩ := build <;> rfl
    have hfailed : (machineIn build).Reachable (.failed .nullSocket) :=
      (sampleAccepted_reachableUnder build _ trivial).step trivial hfails
    obtain ⟨d, ⟨⟩⟩ := hsurvives _ hfailed
  · intro hsurvives
    obtain ⟨d, ⟨⟩⟩ := hsurvives _ bind_failed

end MuQuinet.DaemonSurvival
