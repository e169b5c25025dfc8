import MuQuinet.WakeUps

namespace MuQuinet.WakeUpDelivery

open MuQuinet.Lib.Machines
open MuQuinet.Sockets
open MuQuinet.WakeUps

def Delegated (s : System) : Prop :=
  s.so.waiting = true ∨ ∃ request, s.eventLoop = .tookNone request

def Announced (s : System) : Prop :=
  Delegated s → ¬ s.eventLoop.InReadCb → s.so.recvQ ≠ [] → Notified s

def answered (s : System) : List Nat :=
  s.replies.map Prod.fst

def InOrder (s : System) : Prop :=
  s.replies.map Prod.snd ++ s.so.recvQ = s.accepted

theorem announced_step {s t : System} {label : Label} (h : Announced s)
    (hstep : Step s label t) : Announced t := by
  cases hstep with
  | full _ _ => exact h
  | enqueue _ _ =>
      rintro - - -
      exact .inr rfl
  | write _ =>
      rintro - - -
      exact .inl s.so.notifyPipe_markSChannelAsReadable_pos
  | took _ hrecvQ =>
      rintro hdelegated hloop -
      exact h hdelegated hloop (by simp [hrecvQ])
  | again _ _ _ => exact h
  | tookNone _ hrecvQ _ =>
      rintro - - hne
      exact absurd hrecvQ hne
  | setWaiting htook =>
      rintro - - hne
      apply h (.inr ⟨_, htook⟩)
      · simp [htook, EventLoop.InReadCb, EventLoop.BeforeTake]
      · exact hne
  | notWaiting _ hnot =>
      rintro (hwaiting | ⟨request, htook⟩)
      · exact absurd (hnot.symm.trans hwaiting) (by simp)
      · cases htook
  | clearWaiting _ =>
      rintro (hwaiting | ⟨request, htook⟩)
      · cases hwaiting
      · cases htook
  | readPipe hdraining _ =>
      rintro - hloop
      exact absurd (by simp [hdraining, EventLoop.InReadCb, EventLoop.BeforeTake]) hloop
  | readCb _ _ | drained _ _ | callback _ _ _ =>
      rintro - hloop
      exact absurd (.inl trivial) hloop
  | noCallback _ _ _ | takeInCallback _ _ =>
      rintro - hloop
      exact absurd (.inr rfl) hloop

theorem inOrder_step {s t : System} {label : Label} (h : InOrder s)
    (hstep : Step s label t) : InOrder t := by
  cases hstep with
  | enqueue _ _ =>
      simp only [InOrder, Socket.enqueue]
      rw [← List.append_assoc, h]
  | write _ =>
      simp only [InOrder, Socket.recvQ_markSChannelAsReadable]
      exact h
  | took _ hrecvQ | takeInCallback _ hrecvQ =>
      simp only [InOrder, hrecvQ] at h ⊢
      simpa using h
  | _ => exact h

theorem announced {s : System} (h : machine.Reachable s) : Announced s := by
  refine h.invariant (I := Announced) ?_
    fun _ _ _ hs _ hnext => announced_step hs (step_of_next hnext)
  rintro s ⟨type, nonblocking, rfl⟩ - - hne
  exact absurd rfl hne

theorem inOrder {s : System} (h : machine.Reachable s) : InOrder s := by
  refine h.invariant (I := InOrder) ?_
    fun _ _ _ hs _ hnext => inOrder_step hs (step_of_next hnext)
  rintro s ⟨type, nonblocking, rfl⟩
  rfl

def sampleSystem : System :=
  { so := { type := .UDP, nonblocking := false } }

end MuQuinet.WakeUpDelivery
