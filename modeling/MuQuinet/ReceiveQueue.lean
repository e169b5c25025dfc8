import MuQuinet.BufferAccounts
import MuQuinet.Lib.Simulations

namespace MuQuinet.ReceiveQueue

open MuQuinet.Lib.Machines
open MuQuinet.Lib.Simulations
open MuQuinet.AddressLeak (sampleAnswer sampleStart sampleStart_initial)
open MuQuinet.BufferAccounts (FromDevice)
open MuQuinet.Buffers
open MuQuinet.DaemonSurvival (sampleRead started)
open MuQuinet.IpHeaders
open MuQuinet.IpLayer
open MuQuinet.Pcbs
open MuQuinet.Reassembly
open MuQuinet.Sockets

/-- The daemon and the packets that `Ip::enRxQue` has put into `rxQ`. -/
structure State where
  daemon : DaemonSurvival.State
  rxQ : List SocketBuffer

/-- What the threads do: the one of `Interface` reads from the device, the one of `Ip` takes
a packet from `rxQ`, and the event loop does the rest. -/
inductive Label
  | arrive (bytes : List UInt8)
  | round (uninit : SockaddrIn)
  | eventLoop (a : DaemonSurvival.Label)

/-- `Ip::enRxQue`; `qSizeLimit` is not looked at. -/
def enRxQue (rxQ : List SocketBuffer) (skbuf : SocketBuffer) : List SocketBuffer :=
  if (iphdr skbuf).version ≠ 4 then rxQ else rxQ ++ [skbuf]

/-- A round of the loop of `Ip::start`, on the packet that it has taken. -/
def ipRound (st : Stack) (uninit : SockaddrIn) (skbuf : SocketBuffer) : Stack × List Event :=
  if skbuf.payloadEnd - skbuf.hdrsBegin.getD 0 < 20 then (st, [.dropped])
  else if isFrag skbuf then
    match defrag st.defrager skbuf with
    | none => (st, [.nullPrev])
    | some (defrager, []) => ({ st with defrager := defrager }, [])
    | some (defrager, packet :: next) =>
        demultiplex { st with defrager := defrager } uninit (iphdr skbuf) packet next
  else demultiplex st uninit (iphdr skbuf) skbuf []

/-- The event loop does not receive packets. -/
def isRx : DaemonSurvival.Label → Bool
  | .rx _ _ => true
  | _ => false

def next (s : State) : Label → Option State
  | .arrive bytes =>
      match s.daemon with
      | .running _ => some { s with rxQ := enRxQue s.rxQ (tunDeviceRx bytes) }
      | .failed _ => none
  | .round uninit =>
      match s.daemon, s.rxQ with
      | .running d, skbuf :: rest =>
          some
            { daemon := .running { d with stack := (ipRound d.stack uninit skbuf).1 }
              rxQ := rest }
      | _, _ => none
  | .eventLoop a =>
      if isRx a then none
      else (DaemonSurvival.next s.daemon a).map fun daemon => { s with daemon := daemon }

def machine : Machine State Label where
  initial s := started.initial s.daemon ∧ s.rxQ = []
  next := next

/-- The packets that arrive and are not dropped at once. -/
def accepted : Label → List SocketBuffer
  | .arrive bytes => enRxQue [] (tunDeviceRx bytes)
  | _ => []

/-- The calls of the event loop. -/
def called : Label → List DaemonSurvival.Label
  | .eventLoop a => [a]
  | _ => []

def taken : DaemonSurvival.Label → List SocketBuffer
  | .rx _ skbuf => [skbuf]
  | _ => []

def notRx (a : DaemonSurvival.Label) : List DaemonSurvival.Label :=
  if isRx a then [] else [a]

/-- The steps of the daemon that receives a packet at once. -/
def atOnce (s : State) : Label → List DaemonSurvival.Label
  | .arrive _ => []
  | .round uninit => s.rxQ.head?.toList.map (.rx uninit)
  | .eventLoop a => [a]

/-- What arrives just before it is received. -/
def queuedFirst : DaemonSurvival.Label → List Label
  | .rx uninit skbuf =>
      .arrive skbuf.rawBytes :: if (iphdr skbuf).version ≠ 4 then [] else [.round uninit]
  | a => [.eventLoop a]

theorem rx_eq (st : Stack) (uninit : SockaddrIn) (skbuf : SocketBuffer) :
    rx st uninit skbuf =
      if (iphdr skbuf).version ≠ 4 then (st, [.dropped]) else ipRound st uninit skbuf :=
  rfl

theorem enRxQue_eq (rxQ : List SocketBuffer) (skbuf : SocketBuffer) :
    enRxQue rxQ skbuf = rxQ ++ enRxQue [] skbuf := by
  unfold enRxQue
  split
  · rw [List.append_nil]
  · rfl

section Queue

/-- What is queued has been found to be of version 4. -/
def Queued (s : State) : Prop :=
  ∀ skbuf ∈ s.rxQ, (iphdr skbuf).version = 4 ∧ ∃ bytes, skbuf = tunDeviceRx bytes

theorem mem_enRxQue_nil {bytes : List UInt8} {skbuf : SocketBuffer}
    (h : skbuf ∈ enRxQue [] (tunDeviceRx bytes)) :
    (iphdr skbuf).version = 4 ∧ ∃ bytes, skbuf = tunDeviceRx bytes := by
  unfold enRxQue at h
  split at h
  · cases h
  · rename_i hversion
    obtain rfl := List.mem_singleton.mp h
    exact ⟨not_not.mp hversion, bytes, rfl⟩

theorem queued_step {s t : State} {a : Label} (h : Queued s) (hnext : next s a = some t) :
    Queued t := by
  cases a with
  | arrive bytes =>
      simp only [next] at hnext
      split at hnext
      · cases hnext
        intro skbuf hmem
        rw [enRxQue_eq] at hmem
        rcases List.mem_append.mp hmem with hold | hnew
        · exact h skbuf hold
        · exact mem_enRxQue_nil hnew
      · cases hnext
  | round uninit =>
      simp only [next] at hnext
      split at hnext
      · rename_i hqueue
        cases hnext
        intro skbuf hmem
        apply h
        rw [hqueue]
        exact List.mem_cons_of_mem _ hmem
      · cases hnext
  | eventLoop a =>
      simp only [next] at hnext
      split at hnext
      · cases hnext
      · obtain ⟨daemon, -, rfl⟩ := Option.map_eq_some_iff.mp hnext
        exact h

/-- The queue and the daemon, beside the daemon that receives at once. -/
def SameDaemon (s : State) (daemon : DaemonSurvival.State) : Prop :=
  Queued s ∧ s.daemon = daemon

theorem next_atOnce {s t : State} {a : Label} {daemon : DaemonSurvival.State}
    (h : SameDaemon s daemon) (hnext : next s a = some t) :
    ∃ daemon', started.exec daemon (atOnce s a) = some daemon' ∧ SameDaemon t daemon' := by
  obtain ⟨hqueued, rfl⟩ := h
  have hqueued' := queued_step hqueued hnext
  cases a with
  | arrive bytes =>
      simp only [next] at hnext
      split at hnext
      · cases hnext
        exact ⟨_, rfl, hqueued', rfl⟩
      · cases hnext
  | round uninit =>
      simp only [next] at hnext
      split at hnext
      · rename_i d skbuf rest hdaemon hqueue
        cases hnext
        have hversion : (iphdr skbuf).version = 4 := by
          apply And.left
          apply hqueued
          rw [hqueue]
          exact List.mem_cons_self
        refine ⟨_, ?_, hqueued', rfl⟩
        rw [hdaemon]
        simp only [atOnce, hqueue, List.head?_cons, Option.toList_some, List.map_cons,
          List.map_nil, Machine.exec, started, DaemonSurvival.next, rx_eq, hversion, ne_eq,
          not_true_eq_false, if_false, Option.bind_some]
      · cases hnext
  | eventLoop a =>
      simp only [next] at hnext
      split at hnext
      · cases hnext
      · obtain ⟨daemon, hdaemon, rfl⟩ := Option.map_eq_some_iff.mp hnext
        refine ⟨daemon, ?_, hqueued', rfl⟩
        simp only [atOnce, Machine.exec, started, hdaemon, Option.bind_some]

/-- A step takes the packet that is first in the queue, and adds what arrives as the last. -/
theorem taken_step {s t : State} {a : Label} (hnext : next s a = some t) :
    (atOnce s a).flatMap taken ++ t.rxQ = s.rxQ ++ accepted a := by
  cases a with
  | arrive bytes =>
      simp only [next] at hnext
      split at hnext
      · cases hnext
        exact enRxQue_eq _ _
      · cases hnext
  | round uninit =>
      simp only [next] at hnext
      split at hnext
      · rename_i hqueue
        cases hnext
        simp [atOnce, hqueue, taken, accepted]
      · cases hnext
  | eventLoop a =>
      simp only [next] at hnext
      split at hnext
      · cases hnext
      · rename_i hrx
        obtain ⟨daemon, -, rfl⟩ := Option.map_eq_some_iff.mp hnext
        cases a with
        | rx => exact absurd rfl hrx
        | _ => simp [atOnce, taken, accepted]

theorem called_step {s t : State} {a : Label} (hnext : next s a = some t) :
    (atOnce s a).flatMap notRx ++ [] = [] ++ called a := by
  cases a with
  | arrive bytes => rfl
  | round uninit =>
      rcases hqueue : s.rxQ with _ | ⟨skbuf, rest⟩
      · simp [atOnce, hqueue, called]
      · simp [atOnce, hqueue, called, notRx, isRx]
  | eventLoop a =>
      simp only [next] at hnext
      split at hnext
      · cases hnext
      · rename_i hrx
        simp [atOnce, called, notRx, hrx]

/-- However the threads take turns, the packets are received in the order in which they
arrived, none twice and none left out but those that still wait, and the daemon does what it
does when it receives each at once. -/
theorem received_in_order {s t : State} {labels : List Label} (h : machine.initial s)
    (hexec : machine.exec s labels = some t) :
    ∃ steps, started.exec s.daemon steps = some t.daemon ∧
      steps.flatMap taken ++ t.rxQ = labels.flatMap accepted ∧
      steps.flatMap notRx = labels.flatMap called := by
  obtain ⟨-, hempty⟩ := h
  have hsame : SameDaemon s s.daemon := by
    refine ⟨?_, rfl⟩
    intro skbuf hmem
    rw [hempty] at hmem
    cases hmem
  have hstep : ∀ s a t daemon, SameDaemon s daemon → machine.next s a = some t →
      ∃ daemon', started.exec daemon (atOnce s a) = some daemon' ∧ SameDaemon t daemon' :=
    fun _ _ _ _ hs hnext => next_atOnce hs hnext
  obtain ⟨daemon, hsteps, -, rfl⟩ := exec_expansion hstep hsame hexec
  refine ⟨expansion machine atOnce s labels, hsteps, ?_, ?_⟩
  · have htakenStep : ∀ s a t, machine.next s a = some t →
        (atOnce s a).flatMap taken ++ t.rxQ = s.rxQ ++ accepted a :=
      fun _ _ _ hnext => taken_step hnext
    have htaken := expansion_in_order htakenStep hexec
    rwa [hempty, List.nil_append] at htaken
  · have hcalledStep : ∀ s a t, machine.next s a = some t →
        (atOnce s a).flatMap notRx ++ (fun _ => []) t = (fun _ => []) s ++ called a :=
      fun _ _ _ hnext => called_step hnext
    have hcalled := expansion_in_order hcalledStep hexec
    rwa [List.append_nil, List.nil_append] at hcalled

/-- Two answers arrive before the first is taken. -/
def sampleArrivals : List Label :=
  [.eventLoop .accept, .eventLoop (sampleRead (.socketCall 2 2 0)),
    .eventLoop (sampleRead (.sendtoCall [1] 0 (some ReplyShape.sampleAddr))),
    .arrive sampleAnswer.rawBytes, .arrive sampleAnswer.rawBytes, .round .zero]

theorem received_in_order_sample :
    ∃ t steps, machine.exec { daemon := .running sampleStart, rxQ := [] } sampleArrivals =
        some t ∧
      started.exec (.running sampleStart) steps = some t.daemon ∧
      steps.flatMap taken ++ t.rxQ = [sampleAnswer, sampleAnswer] := by
  obtain ⟨t, hexec⟩ : ∃ t, machine.exec { daemon := .running sampleStart, rxQ := [] }
      sampleArrivals = some t := ⟨_, rfl⟩
  obtain ⟨steps, hsteps, htaken, -⟩ := received_in_order ⟨sampleStart_initial, rfl⟩ hexec
  exact ⟨t, steps, hexec, hsteps, htaken⟩

/-- What the daemon receives from its device, it can receive through the queue. -/
theorem next_queuedFirst {daemon daemon' : DaemonSurvival.State} {a : DaemonSurvival.Label}
    (hdevice : FromDevice a) (hnext : started.next daemon a = some daemon') :
    machine.exec { daemon := daemon, rxQ := [] } (queuedFirst a) =
      some { daemon := daemon', rxQ := [] } := by
  replace hnext : DaemonSurvival.next daemon a = some daemon' := hnext
  cases a with
  | rx uninit skbuf =>
      obtain ⟨bytes, rfl⟩ := hdevice
      rcases daemon with d | fault
      · cases hnext
        have harrive : next { daemon := .running d, rxQ := [] } (.arrive bytes) =
            some { daemon := .running d, rxQ := enRxQue [] (tunDeviceRx bytes) } := rfl
        rw [queuedFirst, rx_eq]
        by_cases hversion : (iphdr (tunDeviceRx bytes)).version = 4
        · rw [if_neg (not_not.mpr hversion), if_neg (not_not.mpr hversion)]
          rw [enRxQue, if_neg (not_not.mpr hversion)] at harrive
          exact Option.bind_eq_some_iff.mpr ⟨_, harrive, rfl⟩
        · rw [if_pos hversion, if_pos hversion]
          rw [enRxQue, if_pos hversion] at harrive
          exact Option.bind_eq_some_iff.mpr ⟨_, harrive, rfl⟩
      · cases hnext
  | _ =>
      simp only [queuedFirst, Machine.exec, machine, next, isRx, hnext]
      rfl

theorem reachable_queuedFirst {daemon : DaemonSurvival.State}
    (h : started.ReachableUnder (fun _ a => FromDevice a) daemon) :
    machine.Reachable { daemon := daemon, rxQ := [] } := by
  induction h with
  | initial hinitial => exact .initial ⟨hinitial, rfl⟩
  | step _ hdevice hnext ih => exact Machine.reachable_of_exec ih (next_queuedFirst hdevice hnext)

theorem fromDevice_atOnce {s : State} (h : Queued s) {a : Label} {t : State}
    (hnext : next s a = some t) : ∀ b ∈ atOnce s a, FromDevice b := by
  intro b hb
  cases a with
  | arrive bytes => cases hb
  | round uninit =>
      obtain ⟨skbuf, hskbuf, rfl⟩ := List.mem_map.mp hb
      exact (h skbuf (List.mem_of_mem_head? (Option.mem_toList.mp hskbuf))).2
  | eventLoop a =>
      obtain rfl := List.mem_singleton.mp hb
      cases b with
      | rx => cases hnext
      | _ => trivial

theorem queued_reachable {s : State} (h : machine.Reachable s) :
    Queued s ∧ started.ReachableUnder (fun _ a => FromDevice a) s.daemon := by
  induction h with
  | initial hinitial =>
      obtain ⟨hstarted, hempty⟩ := hinitial
      refine ⟨?_, .initial hstarted⟩
      intro skbuf hmem
      rw [hempty] at hmem
      cases hmem
  | @step s t a _ _ hnext ih =>
      obtain ⟨hqueued, hreached⟩ := ih
      obtain ⟨daemon, hsteps, hqueued', rfl⟩ := next_atOnce ⟨hqueued, rfl⟩ hnext
      exact ⟨hqueued', Machine.reachableUnder_of_exec hreached
        (fun _ b hb => fromDevice_atOnce hqueued hnext b hb) hsteps⟩

/-- The daemon gets into just the states that it gets into when each packet is received as
it arrives: the queue between its threads shows nowhere. -/
theorem reachable_iff (daemon : DaemonSurvival.State) :
    (∃ rxQ, machine.Reachable { daemon := daemon, rxQ := rxQ }) ↔
      started.ReachableUnder (fun _ a => FromDevice a) daemon := by
  constructor
  · rintro ⟨rxQ, h⟩
    exact (queued_reachable h).2
  · intro h
    exact ⟨[], reachable_queuedFirst h⟩

end Queue

end MuQuinet.ReceiveQueue
