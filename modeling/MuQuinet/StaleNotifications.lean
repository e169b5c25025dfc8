import MuQuinet.WakeUps

namespace MuQuinet.StaleNotifications

open MuQuinet.Lib.Machines
open MuQuinet.Sockets
open MuQuinet.WakeUps

/-- When `recvfromCall` tries the queue and a receive waits already, or will
wait because of this call, then the queue keeps a packet after the call, or no
notification of an earlier packet is left over. -/
def NothingStale (s : System) : Label → Prop
  | .tryTake =>
      s.so.waiting = true ∨ s.so.recvQ = [] ∧ s.so.nonblocking = false →
        s.so.recvQ.tail ≠ [] ∨ ¬ Notified s
  | _ => True

def Invariant (s : System) : Prop :=
  match s.eventLoop with
  | .idle => s.so.waiting = true → Notified s → s.so.recvQ ≠ []
  | .tookNone _ => Notified s → s.so.recvQ ≠ []
  | .draining | .drained => s.so.waiting = true → s.so.recvQ ≠ []
  | .inCallback => s.so.recvQ ≠ []
  | .callbackDone => True

theorem invariant_initial {s : System} (h : machine.initial s) : Invariant s := by
  obtain ⟨type, nonblocking, rfl⟩ := h
  intro hwaiting
  cases hwaiting

theorem invariant_of_recvQ_ne_nil {s : System} (h : s.so.recvQ ≠ []) : Invariant s := by
  rcases hloop : s.eventLoop with _ | request | _ | _ | _ | _ <;>
    simp [Invariant, hloop, h]

theorem invariant_of_same {s t : System} (h : Invariant s) (hloop : t.eventLoop = s.eventLoop)
    (hwaiting : t.so.waiting = true → s.so.waiting = true) (hnotified : Notified t → Notified s)
    (hrecvQ : s.so.recvQ ≠ [] → t.so.recvQ ≠ []) : Invariant t := by
  unfold Invariant at h ⊢
  rw [hloop]
  generalize s.eventLoop = eventLoop at h ⊢
  rcases eventLoop with _ | request | _ | _ | _ | _
  · exact fun hw hn => hrecvQ (h (hwaiting hw) (hnotified hn))
  · exact fun hn => hrecvQ (h (hnotified hn))
  · exact fun hw => hrecvQ (h (hwaiting hw))
  · exact fun hw => hrecvQ (h (hwaiting hw))
  · exact hrecvQ h
  · trivial

theorem invariant_step {s t : System} {label : Label} (h : Invariant s)
    (hguard : NothingStale s label) (hstep : Step s label t) : Invariant t := by
  cases hstep with
  | full _ _ => exact h
  | enqueue _ _ =>
      apply invariant_of_recvQ_ne_nil
      simp [Socket.enqueue]
  | write henqueued =>
      refine invariant_of_same h rfl ?_ ?_ ?_
      · exact fun hwaiting => by simpa using hwaiting
      · exact fun _ => .inr henqueued
      · exact fun hrecvQ => by simpa using hrecvQ
  | took hidle hrecvQ =>
      simp only [Invariant, hidle]
      intro hwaiting hnotified
      rcases hguard (.inl hwaiting) with htail | hnot
      · simpa [hrecvQ] using htail
      · exact absurd hnotified hnot
  | again _ _ _ => exact invariant_of_same h rfl id id id
  | tookNone hidle hrecvQ hblocking =>
      intro hnotified
      rcases hguard (.inr ⟨hrecvQ, hblocking⟩) with htail | hnot
      · exact absurd (by simp [hrecvQ]) htail
      · exact absurd hnotified hnot
  | setWaiting htook =>
      simp only [Invariant, htook] at h
      rintro - hnotified
      exact h hnotified
  | readCb hidle hpipe =>
      simp only [Invariant, hidle] at h
      intro hwaiting
      exact h hwaiting (.inl hpipe)
  | readPipe hdraining hpipe =>
      exact invariant_of_same h rfl id (fun _ => .inl hpipe) id
  | drained hdraining _ =>
      simp only [Invariant, hdraining] at h
      exact h
  | callback hdrained hwaiting _ =>
      simp only [Invariant, hdrained] at h
      exact h hwaiting
  | noCallback _ _ _ => trivial
  | notWaiting _ hnot =>
      intro hwaiting
      exact absurd (hnot.symm.trans hwaiting) (by simp)
  | takeInCallback _ _ => trivial
  | clearWaiting _ =>
      intro hwaiting
      cases hwaiting

/-- The state in which `wait_dequeue` blocks the event loop. -/
def Blocked (s : System) : Prop :=
  s.eventLoop = .inCallback ∧ s.so.recvQ = []

theorem leads_blocked {s : System} (hidle : s.eventLoop = .idle)
    (hwaiting : s.so.waiting = true) (hset : s.so.onAsyncNewPacket.isSome)
    (hnotified : Notified s) (hrecvQ : s.so.recvQ = []) :
    ∃ t, machine.Leads s t ∧ Blocked t := by
  obtain ⟨t, hleads, hcallback, hsame, -, -⟩ :=
    reachesCallback_of_notified hwaiting hset hidle hnotified
  exact ⟨t, hleads, hcallback, hsame.trans hrecvQ⟩

theorem leads_blocked_of_stale {s : System} (hreach : machine.Reachable s)
    (hidle : s.eventLoop = .idle) (hstale : ¬ NothingStale s .tryTake) :
    ∃ t, machine.Leads s t ∧ Blocked t := by
  simp only [NothingStale, Classical.not_imp, not_or, not_not] at hstale
  obtain ⟨hwaits, htail, hnotified⟩ := hstale
  have hcb := onAsyncNewPacket_isSome hreach
  rcases hrecvQ : s.so.recvQ with _ | ⟨entry, rest⟩
  · rcases hnonblocking : s.so.nonblocking with _ | _
    · have htake : machine.next s .tryTake =
          some { s with eventLoop := .tookNone s.requests, requests := s.requests + 1 } := by
        simp [machine, next, hidle, Socket.tryTakeFromRecvQ, hrecvQ, hnonblocking]
      have hwait : machine.next
          { s with eventLoop := .tookNone s.requests, requests := s.requests + 1 }
          (.setWaiting (.onAsyncNewTcpPacket 0)) =
            some
              { s with
                so := (s.so.setOnAsyncNewPacketCB (.onAsyncNewTcpPacket 0)).setWaiting true
                eventLoop := .idle
                requests := s.requests + 1
                waitingFor := s.requests } := rfl
      obtain ⟨t, hleads, hblocked⟩ := leads_blocked (s := { s with
        so := (s.so.setOnAsyncNewPacketCB (.onAsyncNewTcpPacket 0)).setWaiting true
        eventLoop := .idle
        requests := s.requests + 1
        waitingFor := s.requests }) rfl rfl rfl hnotified hrecvQ
      exact ⟨t, .head htake (.head hwait hleads), hblocked⟩
    · have hwaiting : s.so.waiting = true := by simpa [hnonblocking] using hwaits
      exact leads_blocked hidle hwaiting (hcb hwaiting) hnotified hrecvQ
  · have hwaiting : s.so.waiting = true := by simpa [hrecvQ] using hwaits
    have hrest : rest = [] := by simpa [hrecvQ] using htail
    have htake : machine.next s .tryTake =
        some
          { s with
            so := { s.so with recvQ := rest }
            requests := s.requests + 1
            replies := s.replies ++ [(s.requests, entry)] } := by
      simp [machine, next, hidle, Socket.tryTakeFromRecvQ, hrecvQ]
    obtain ⟨t, hleads, hblocked⟩ := leads_blocked (s := { s with
      so := { s.so with recvQ := rest }
      requests := s.requests + 1
      replies := s.replies ++ [(s.requests, entry)] }) hidle hwaiting (hcb hwaiting) hnotified hrest
    exact ⟨t, .head htake hleads, hblocked⟩

/-- The event loop never blocks in its callback in the runs that leave no stale
notification, and can block after any other call of `recvfromCall`. -/
theorem not_blocked_of_nothingStale (s : System) :
    (machine.ReachableUnder NothingStale s → ¬ Blocked s) ∧
      (machine.Reachable s → s.eventLoop = .idle → ¬ NothingStale s .tryTake →
        ∃ t, machine.Leads s t ∧ Blocked t) := by
  constructor
  · rintro h ⟨hcallback, hrecvQ⟩
    have hinvariant : Invariant s :=
      h.invariant (fun _ hinitial => invariant_initial hinitial)
        fun _ _ _ hs hguard hnext => invariant_step hs hguard (step_of_next hnext)
    simp only [Invariant, hcallback] at hinvariant
    exact hinvariant hrecvQ
  · intro hreach hidle hstale
    exact leads_blocked_of_stale hreach hidle hstale

def sampleEntry : Entry := (.zero, [])

def sampleSystem : System :=
  { so := { type := .UDP, nonblocking := false } }

theorem sampleSystem_initial : machine.initial sampleSystem :=
  ⟨_, _, rfl⟩

def sampleDelegated : System :=
  { sampleSystem with eventLoop := .tookNone 0, requests := 1 }

def sampleStale : System :=
  { so := { type := .UDP, nonblocking := false, notifyPipe := 1 }
    requests := 1
    accepted := [sampleEntry]
    replies := [(0, sampleEntry)] }

theorem sampleStale_reachable : machine.Reachable sampleStale := by
  have hrun : machine.exec sampleSystem [.enqueue sampleEntry, .write, .tryTake] =
      some sampleStale := by
    decide
  exact Machine.reachable_of_exec (.initial sampleSystem_initial) hrun

theorem not_blocked_of_nothingStale_sample :
    (∃ s, machine.ReachableUnder NothingStale s ∧ s.eventLoop = .inCallback ∧ ¬ Blocked s) ∧
      ∃ t, machine.Leads sampleStale t ∧ Blocked t := by
  have hclean : NothingStale sampleSystem .tryTake := by
    rintro -
    exact .inr (by simp [Notified, sampleSystem])
  have htake : machine.next sampleSystem .tryTake = some sampleDelegated := by decide
  have hdelegated : machine.ReachableUnder NothingStale sampleDelegated :=
    .step (.initial sampleSystem_initial) hclean htake
  obtain ⟨s, hrun, hcallback⟩ : ∃ s, machine.exec sampleDelegated
      [.setWaiting (.onAsyncNewUdpPacket 0 false), .enqueue sampleEntry, .write, .readCb,
        .readPipe, .readPipe, .checkWaiting] = some s ∧ s.eventLoop = .inCallback :=
    ⟨_, rfl, rfl⟩
  have hreach := Machine.reachableUnder_of_exec hdelegated
    (by simp [NothingStale]) hrun
  have hstale : ¬ NothingStale sampleStale .tryTake := by
    intro h
    rcases h (.inr ⟨rfl, rfl⟩) with htail | hnot
    · exact htail rfl
    · exact hnot (.inl Nat.one_pos)
  exact ⟨⟨s, hreach, hcallback, (not_blocked_of_nothingStale s).1 hreach⟩,
    (not_blocked_of_nothingStale sampleStale).2 sampleStale_reachable rfl hstale⟩

/-- The notification of the packet taken wakes the next receive. -/
theorem second_receive_blocks : ∃ s, machine.Reachable s ∧ Blocked s := by
  obtain ⟨s, hrun, hblocked⟩ : ∃ s, machine.exec sampleStale
      [.tryTake, .setWaiting (.onAsyncNewUdpPacket 0 false), .readCb, .readPipe, .readPipe,
        .checkWaiting] = some s ∧ Blocked s :=
    ⟨_, rfl, rfl, rfl⟩
  exact ⟨s, Machine.reachable_of_exec sampleStale_reachable hrun, hblocked⟩

end MuQuinet.StaleNotifications
