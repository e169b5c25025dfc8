import MuQuinet.Lib.Machines
import MuQuinet.Sockets

namespace MuQuinet.WakeUps

open MuQuinet.Lib.Machines
open MuQuinet.Buffers
open MuQuinet.Sockets

abbrev Entry := SockaddrIn × List SocketBuffer

inductive Producer
  | idle
  | enqueued
deriving DecidableEq, Repr

/-- Where the event loop thread is: in `recvfromCall` after a failed
`try_takeFromRecvQ`, or in `sChannelReadCb`. -/
inductive EventLoop
  | idle
  | tookNone (request : Nat)
  | draining
  | drained
  | inCallback
  | callbackDone
deriving DecidableEq, Repr

namespace EventLoop

/-- In `sChannelReadCb`, up to the packet that its callback takes. -/
def BeforeTake : EventLoop → Prop
  | .draining | .drained | .inCallback => True
  | _ => False

def InReadCb (loop : EventLoop) : Prop :=
  loop.BeforeTake ∨ loop = .callbackDone

end EventLoop

/-- A socket between the two threads.  Requests are numbered in the order of the
calls of `recvfromCall`; `waitingFor` is the one that set `waiting` last.
`accepted` lists what `putToRecvQ` enqueued, and `replies` what was sent to
clients. -/
structure System where
  so : Socket
  producer : Producer := .idle
  eventLoop : EventLoop := .idle
  requests : Nat := 0
  waitingFor : Nat := 0
  accepted : List Entry := []
  replies : List (Nat × Entry) := []
deriving DecidableEq, Repr

inductive Label
  /-- `putToRecvQ` up to its `enqueue`. -/
  | enqueue (entry : Entry)
  | write
  /-- `recvfromCall` up to its `try_takeFromRecvQ`, with the reply if a packet
  was there or the socket does not block. -/
  | tryTake
  /-- The end of `recvfromCall` after `wait_next`. -/
  | setWaiting (cb : OnAsyncNewPacket)
  | readCb
  | readPipe
  | checkWaiting
  /-- The callback takes a packet and writes its response. -/
  | takeInCallback
  | clearWaiting
deriving DecidableEq, Repr

/-- One step of either thread; `none` where the thread is elsewhere, or blocked. -/
def next (s : System) : Label → Option System
  | .enqueue entry =>
      if s.producer = .idle then
        if s.so.recvQ.length > recvQlimit then some s
        else
          some
            { s with
              so := s.so.enqueue entry
              producer := .enqueued
              accepted := s.accepted ++ [entry] }
      else none
  | .write =>
      if s.producer = .enqueued then
        some { s with so := s.so.markSChannelAsReadable, producer := .idle }
      else none
  | .tryTake =>
      if s.eventLoop = .idle then
        match s.so.tryTakeFromRecvQ with
        | some (entry, so) =>
            some
              { s with
                so := so
                requests := s.requests + 1
                replies := s.replies ++ [(s.requests, entry)] }
        | none =>
            if s.so.nonblocking then some { s with requests := s.requests + 1 }
            else
              some
                { s with
                  eventLoop := .tookNone s.requests
                  requests := s.requests + 1 }
      else none
  | .setWaiting cb =>
      match s.eventLoop with
      | .tookNone request =>
          some
            { s with
              so := (s.so.setOnAsyncNewPacketCB cb).setWaiting true
              eventLoop := .idle
              waitingFor := request }
      | _ => none
  | .readCb =>
      if s.eventLoop = .idle ∧ 0 < s.so.notifyPipe then
        some { s with eventLoop := .draining }
      else none
  | .readPipe =>
      if s.eventLoop = .draining then
        if s.so.notifyPipe = 0 then some { s with eventLoop := .drained }
        else some { s with so := s.so.readNotifyPipe }
      else none
  | .checkWaiting =>
      if s.eventLoop = .drained then
        if s.so.waiting then
          if s.so.onAsyncNewPacket.isSome then some { s with eventLoop := .inCallback }
          else some { s with eventLoop := .callbackDone }
        else some { s with eventLoop := .idle }
      else none
  | .takeInCallback =>
      if s.eventLoop = .inCallback then
        match s.so.tryTakeFromRecvQ with
        | some (entry, so) =>
            some
              { s with
                so := so
                eventLoop := .callbackDone
                replies := s.replies ++ [(s.waitingFor, entry)] }
        | none => none
      else none
  | .clearWaiting =>
      if s.eventLoop = .callbackDone then
        some { s with so := s.so.setWaiting false, eventLoop := .idle }
      else none

def machine : Machine System Label where
  initial s := ∃ type nonblocking, s = { so := { type := type, nonblocking := nonblocking } }
  next := next

inductive Step (s : System) : Label → System → Prop
  | full {entry : Entry} : s.producer = .idle → s.so.recvQ.length > recvQlimit →
      Step s (.enqueue entry) s
  | enqueue {entry : Entry} : s.producer = .idle → s.so.recvQ.length ≤ recvQlimit →
      Step s (.enqueue entry)
        { s with
          so := s.so.enqueue entry
          producer := .enqueued
          accepted := s.accepted ++ [entry] }
  | write : s.producer = .enqueued →
      Step s .write { s with so := s.so.markSChannelAsReadable, producer := .idle }
  | took {entry : Entry} {rest : List Entry} : s.eventLoop = .idle →
      s.so.recvQ = entry :: rest →
        Step s .tryTake
          { s with
            so := { s.so with recvQ := rest }
            requests := s.requests + 1
            replies := s.replies ++ [(s.requests, entry)] }
  | again : s.eventLoop = .idle → s.so.recvQ = [] → s.so.nonblocking = true →
      Step s .tryTake { s with requests := s.requests + 1 }
  | tookNone : s.eventLoop = .idle → s.so.recvQ = [] → s.so.nonblocking = false →
      Step s .tryTake
        { s with
          eventLoop := .tookNone s.requests
          requests := s.requests + 1 }
  | setWaiting {cb : OnAsyncNewPacket} {request : Nat} : s.eventLoop = .tookNone request →
      Step s (.setWaiting cb)
        { s with
          so := (s.so.setOnAsyncNewPacketCB cb).setWaiting true
          eventLoop := .idle
          waitingFor := request }
  | readCb : s.eventLoop = .idle → 0 < s.so.notifyPipe →
      Step s .readCb { s with eventLoop := .draining }
  | readPipe : s.eventLoop = .draining → 0 < s.so.notifyPipe →
      Step s .readPipe { s with so := s.so.readNotifyPipe }
  | drained : s.eventLoop = .draining → s.so.notifyPipe = 0 →
      Step s .readPipe { s with eventLoop := .drained }
  | callback : s.eventLoop = .drained → s.so.waiting = true →
      s.so.onAsyncNewPacket.isSome → Step s .checkWaiting { s with eventLoop := .inCallback }
  | noCallback : s.eventLoop = .drained → s.so.waiting = true →
      s.so.onAsyncNewPacket = none → Step s .checkWaiting { s with eventLoop := .callbackDone }
  | notWaiting : s.eventLoop = .drained → s.so.waiting = false →
      Step s .checkWaiting { s with eventLoop := .idle }
  | takeInCallback {entry : Entry} {rest : List Entry} : s.eventLoop = .inCallback →
      s.so.recvQ = entry :: rest →
        Step s .takeInCallback
          { s with
            so := { s.so with recvQ := rest }
            eventLoop := .callbackDone
            replies := s.replies ++ [(s.waitingFor, entry)] }
  | clearWaiting : s.eventLoop = .callbackDone →
      Step s .clearWaiting { s with so := s.so.setWaiting false, eventLoop := .idle }

theorem step_of_next {s t : System} {label : Label} (h : next s label = some t) :
    Step s label t := by
  cases label with
  | enqueue entry =>
      simp only [next] at h
      split at h
      · rename_i hidle
        split at h
        · rename_i hfull
          cases h
          exact .full hidle hfull
        · rename_i hroom
          cases h
          exact .enqueue hidle (Nat.not_lt.mp hroom)
      · cases h
  | write =>
      simp only [next] at h
      split at h
      · rename_i henqueued
        cases h
        exact .write henqueued
      · cases h
  | tryTake =>
      simp only [next] at h
      split at h
      · rename_i hidle
        cases hrecvQ : s.so.recvQ with
        | nil =>
            simp only [Socket.tryTakeFromRecvQ, hrecvQ] at h
            split at h
            · rename_i hnonblocking
              cases h
              exact .again hidle hrecvQ hnonblocking
            · rename_i hblocking
              cases h
              exact .tookNone hidle hrecvQ (Bool.eq_false_iff.mpr hblocking)
        | cons entry rest =>
            simp only [Socket.tryTakeFromRecvQ, hrecvQ, Option.some.injEq] at h
            subst h
            exact .took hidle hrecvQ
      · cases h
  | setWaiting cb =>
      simp only [next] at h
      split at h
      · rename_i request htook
        cases h
        exact .setWaiting htook
      · cases h
  | readCb =>
      simp only [next] at h
      split at h
      · rename_i hready
        cases h
        exact .readCb hready.1 hready.2
      · cases h
  | readPipe =>
      simp only [next] at h
      split at h
      · rename_i hdraining
        split at h
        · rename_i hempty
          cases h
          exact .drained hdraining hempty
        · rename_i hmore
          cases h
          exact .readPipe hdraining (Nat.pos_of_ne_zero hmore)
      · cases h
  | checkWaiting =>
      simp only [next] at h
      split at h
      · rename_i hdrained
        split at h
        · rename_i hwaiting
          split at h
          · rename_i hset
            cases h
            exact .callback hdrained hwaiting hset
          · rename_i hunset
            cases h
            exact .noCallback hdrained hwaiting (Option.not_isSome_iff_eq_none.mp hunset)
        · rename_i hnot
          cases h
          exact .notWaiting hdrained (Bool.eq_false_iff.mpr hnot)
      · cases h
  | takeInCallback =>
      simp only [next] at h
      split at h
      · rename_i hcallback
        cases hrecvQ : s.so.recvQ with
        | nil =>
            simp only [Socket.tryTakeFromRecvQ, hrecvQ] at h
            cases h
        | cons entry rest =>
            simp only [Socket.tryTakeFromRecvQ, hrecvQ, Option.some.injEq] at h
            subst h
            exact .takeInCallback hcallback hrecvQ
      · cases h
  | clearWaiting =>
      simp only [next] at h
      split at h
      · rename_i hdone
        cases h
        exact .clearWaiting hdone
      · cases h

/-- The two steps of the IP thread, one after the other, are `putToRecvQ`. -/
theorem exec_enqueue_write {s : System} (hidle : s.producer = .idle)
    (hroom : s.so.recvQ.length ≤ recvQlimit) (entry : Entry) :
    machine.exec s [.enqueue entry, .write] =
      some { s with
        so := s.so.putToRecvQ entry.1 entry.2
        accepted := s.accepted ++ [entry] } := by
  cases s
  simp only at hidle hroom
  subst hidle
  simp [Machine.exec, machine, next, Nat.not_lt.mpr hroom, Socket.putToRecvQ]

def Notified (s : System) : Prop :=
  0 < s.so.notifyPipe ∨ s.producer = .enqueued

theorem onAsyncNewPacket_isSome {s : System} (h : machine.Reachable s) :
    s.so.waiting = true → s.so.onAsyncNewPacket.isSome := by
  refine h.invariant (I := fun s => s.so.waiting = true → s.so.onAsyncNewPacket.isSome) ?_ ?_
  · rintro s ⟨type, nonblocking, rfl⟩ hwaiting
    cases hwaiting
  · intro s label t hs _ hnext
    cases step_of_next hnext with
    | write _ => simpa using hs
    | setWaiting _ => exact fun _ => rfl
    | clearWaiting _ =>
        intro hwaiting
        cases hwaiting
    | _ => exact hs

theorem leads_drained {s : System} (hdraining : s.eventLoop = .draining) :
    machine.Leads s { s with so := s.so.drainNotifyPipe, eventLoop := .drained } := by
  induction hpipe : s.so.notifyPipe using Nat.strongRecOn generalizing s with
  | ind pipe ih =>
      by_cases hempty : s.so.notifyPipe = 0
      · have hnext : machine.next s .readPipe = some { s with eventLoop := .drained } := by
          simp [machine, next, hdraining, hempty]
        have hso : s.so.drainNotifyPipe = s.so := by
          rw [Socket.drainNotifyPipe, ← hempty]
        rw [hso]
        exact .single hnext
      · have hnext : machine.next s .readPipe = some { s with so := s.so.readNotifyPipe } := by
          simp [machine, next, hdraining, hempty]
        have hless : s.so.readNotifyPipe.notifyPipe < pipe := by
          simp only [Socket.readNotifyPipe]
          omega
        have hrest := ih _ hless (s := { s with so := s.so.readNotifyPipe }) hdraining rfl
        exact .head hnext hrest

/-- A run leads to the callback of the receive that waits, and takes no packet. -/
def ReachesCallback (s : System) : Prop :=
  ∃ t, machine.Leads s t ∧ t.eventLoop = .inCallback ∧ t.so.recvQ = s.so.recvQ ∧
    t.waitingFor = s.waitingFor ∧ t.replies = s.replies

section Callback

variable {s : System} (hwaiting : s.so.waiting = true)
  (hset : s.so.onAsyncNewPacket.isSome)

include hwaiting hset

theorem reachesCallback_of_drained (hdrained : s.eventLoop = .drained) : ReachesCallback s := by
  have hcheck : machine.next s .checkWaiting = some { s with eventLoop := .inCallback } := by
    simp [machine, next, hdrained, hwaiting, hset]
  exact ⟨_, .single hcheck, rfl, rfl, rfl, rfl⟩

theorem reachesCallback_of_draining (hdraining : s.eventLoop = .draining) :
    ReachesCallback s := by
  obtain ⟨t, hleads, hcallback, hsame⟩ := reachesCallback_of_drained
    (s := { s with so := s.so.drainNotifyPipe, eventLoop := .drained }) hwaiting hset rfl
  exact ⟨t, (leads_drained hdraining).trans hleads, hcallback, hsame⟩

theorem reachesCallback_of_readable (hidle : s.eventLoop = .idle)
    (hpipe : 0 < s.so.notifyPipe) : ReachesCallback s := by
  have hread : machine.next s .readCb = some { s with eventLoop := .draining } := by
    simp [machine, next, hidle, hpipe]
  obtain ⟨t, hleads, hcallback, hsame⟩ := reachesCallback_of_draining
    (s := { s with eventLoop := .draining }) hwaiting hset rfl
  exact ⟨t, .head hread hleads, hcallback, hsame⟩

theorem reachesCallback_of_notified (hidle : s.eventLoop = .idle) (hnotified : Notified s) :
    ReachesCallback s := by
  rcases hnotified with hpipe | henqueued
  · exact reachesCallback_of_readable hwaiting hset hidle hpipe
  · have hwrite : machine.next s .write =
        some { s with so := s.so.markSChannelAsReadable, producer := .idle } := by
      simp [machine, next, henqueued]
    obtain ⟨t, hleads, hcallback, hrecvQ, hsame⟩ := reachesCallback_of_readable
      (s := { s with so := s.so.markSChannelAsReadable, producer := .idle })
      (by simpa using hwaiting) (by simpa using hset) hidle
      s.so.notifyPipe_markSChannelAsReadable_pos
    exact ⟨t, .head hwrite hleads, hcallback, by simpa using hrecvQ, hsame⟩

end Callback

end MuQuinet.WakeUps
