import MuQuinet.PassThrough

namespace MuQuinet.DeadDescriptors

open MuQuinet.Lib.Machines
open MuQuinet.Builds
open MuQuinet.FdTable
open MuQuinet.PassThrough
open MuQuinet.Rpc
open MuQuinet.Sockets

/-- The table, and the descriptors that were closed and whose entries no `socket()` has
taken again. -/
structure Table where
  interceptor : Interceptor
  closed : List Int
deriving DecidableEq, Repr

/-- `close()` where the descriptors of `answering` take the request and give back a
response, be they channels or not. -/
def close (answering : List Int) : Nat → Interceptor → Int → Option Interceptor
  | 0, _, _ => none
  | depth + 1, s, fd =>
      if s.isAssignedByMuquinet fd then
        let ch := s.fd2channel fd
        if ch ∈ answering then close answering depth (s.unsetFd2channel fd) ch else none
      else some (s.glibcClose fd)

/-- A call, with the descriptors that answer a request and the number of nested calls of
`close` that it may come to. -/
structure Label where
  call : FdTable.Call
  answering : List Int
  depth : Nat

def next (t : Table) (a : Label) : Option Table :=
  match a.call with
  | .socket ch ret =>
      (FdTable.next t.interceptor (.socket ch ret)).map fun s =>
        { interceptor := s
          closed := t.closed.filter fun fd => decide (fd ≠ t.interceptor.nextAvailFd) }
  | .close fd =>
      (close a.answering a.depth t.interceptor fd).map fun s =>
        { interceptor := { s with live := s.live.filter fun socket => decide (socket.1 ≠ fd) }
          closed := if s.isAssignedByMuquinet fd then fd :: t.closed else t.closed }

def machine : Machine Table Label where
  initial t := FdTable.machine.initial t.interceptor ∧ t.closed = []
  next := next

/-- A descriptor of the reserved range that is no live socket's. -/
def Dead (t : Table) (fd : Int) : Prop :=
  t.interceptor.isAssignedByMuquinet fd ∧ ∀ socket ∈ t.interceptor.live, socket.1 ≠ fd

/-- The call comes back with an error before it touches a descriptor.  A process that an
assertion stops gets no error. -/
def FailsQuietly : Action → Prop
  | .returns ret => ret = -1
  | .glibc _ | .request _ _ | .assertFails | .noReturn => False

/-- The length of the address is what the functions assert, or nothing is asserted. -/
def LengthPasses (build : Build) (addrlen : UInt32) : Prop :=
  build.asserts = true → addrlen.toNat = sizeofSockaddrIn

/-- The call gets as far as its request. -/
def Requests (build : Build) : PassThrough.Call → Prop
  | .connect _ _ addrlen => LengthPasses build addrlen
  | .close _ | .getpeername _ _ _ | .getsockname _ _ _ => True
  | .read _ buf len | .write _ buf len | .send _ buf len _ | .recv _ buf len _
  | .recvfrom _ buf len _ _ _ => buf ≠ NULL ∧ len ≠ 0
  | .sendto _ buf len _ destAddr addrlen =>
      (buf ≠ NULL ∧ len ≠ 0) ∧ (destAddr ≠ NULL → LengthPasses build addrlen)
  | .socket _ _ _ | .setsockopt _ _ _ _ _ | .getsockopt _ _ _ _ _ => False

/-- Where the channels are all that answers, `close` is the one of the table. -/
theorem close_openChannels (depth : Nat) (s : Interceptor) (fd : Int) :
    close s.openChannels depth s fd = s.close depth fd := by
  induction depth generalizing s fd with
  | zero => rfl
  | succ depth ih =>
      rw [close, Interceptor.close]
      split
      · dsimp only
        split
        · exact ih (s.unsetFd2channel fd) (s.fd2channel fd)
        · rfl
      · rfl

section Table

variable {s s' : Interceptor} {fd : Int}

theorem fd2channel_unsetFd2channel_self :
    (s.unsetFd2channel fd).fd2channel fd = 0 := by
  unfold Interceptor.unsetFd2channel Interceptor.setFd2channel Interceptor.fd2channel
  rw [List.getD_eq_getElem?_getD, List.getElem?_set_self']
  cases s.fd2channelVector[(fd - s.startfd).toNat]? <;> rfl

/-- An entry that is cleared stays so while others are cleared. -/
theorem fd2channel_unsetFd2channel_of_zero {fd' : Int} (hge : s.startfd ≤ fd)
    (hge' : s.startfd ≤ fd') (h : s.fd2channel fd = 0) :
    (s.unsetFd2channel fd').fd2channel fd = 0 := by
  rcases eq_or_ne fd fd' with rfl | hne
  · exact fd2channel_unsetFd2channel_self
  · rw [Interceptor.unsetFd2channel, fd2channel_setFd2channel_of_ne hge hge' hne 0, h]

/-- `close` leaves the range alone, and it only clears entries. -/
theorem close_frame {answering : List Int} {depth : Nat}
    (h : close answering depth s fd = some s') :
    s'.startfd = s.startfd ∧ s'.fdCount = s.fdCount ∧ s'.lastFdAssigned = s.lastFdAssigned ∧
      ∀ fd', s.startfd ≤ fd' → s.fd2channel fd' = 0 → s'.fd2channel fd' = 0 := by
  induction depth generalizing s fd with
  | zero => cases h
  | succ depth ih =>
      rw [close] at h
      split at h
      · rename_i hassigned
        dsimp only at h
        split at h
        · obtain ⟨hstart, hcount, hlast, hcleared⟩ := ih h
          refine ⟨hstart, hcount, hlast, ?_⟩
          intro fd' hge hzero
          exact hcleared fd' hge (fd2channel_unsetFd2channel_of_zero hge hassigned.1 hzero)
        · cases h
      · cases h
        exact ⟨rfl, rfl, rfl, fun _ _ hzero => hzero⟩

theorem fd2channel_close {answering : List Int} {depth : Nat}
    (h : close answering depth s fd = some s') (hassigned : s.isAssignedByMuquinet fd) :
    s'.fd2channel fd = 0 := by
  cases depth with
  | zero => cases h
  | succ depth =>
      rw [close, if_pos hassigned] at h
      dsimp only at h
      split at h
      · exact (close_frame h).2.2.2 fd hassigned.1 fd2channel_unsetFd2channel_self
      · cases h

theorem socket_frame (s : Interceptor) (ch ret : Int) :
    (s.socket ch ret).startfd = s.startfd ∧
      (s.socket ch ret).lastFdAssigned = s.lastFdAssigned ∧
      ∀ fd, (s.socket ch ret).fd2channel fd =
        (s.setFd2channel s.nextAvailFd ch).fd2channel fd := by
  unfold Interceptor.socket
  dsimp only
  split
  · exact ⟨rfl, rfl, fun _ => rfl⟩
  · exact ⟨rfl, rfl, fun _ => rfl⟩

end Table

/-- The entries of the closed descriptors hold the 0 that marks an empty one. -/
structure ClosedCleared (t : Table) : Prop where
  last_eq : t.interceptor.lastFdAssigned = t.interceptor.startfd - 1
  cleared : ∀ fd ∈ t.closed, t.interceptor.startfd ≤ fd ∧ t.interceptor.fd2channel fd = 0

theorem closedCleared_socket {t t' : Table} {ch ret : Int} {answering : List Int} {depth : Nat}
    (h : ClosedCleared t)
    (hnext : next t { call := .socket ch ret, answering := answering, depth := depth } = some t') :
    ClosedCleared t' := by
  obtain ⟨s, hstep, rfl⟩ := Option.map_eq_some_iff.mp hnext
  simp only [FdTable.next] at hstep
  split at hstep
  · cases hstep
  · cases hstep
    obtain ⟨hstart, hlast, hentry⟩ := socket_frame t.interceptor ch ret
    constructor
    · rw [hlast, hstart]
      exact h.last_eq
    · intro fd hfd
      obtain ⟨hmem, hother⟩ := List.mem_filter.mp hfd
      obtain ⟨hge, hzero⟩ := h.cleared fd hmem
      have hnextFd : t.interceptor.startfd ≤ t.interceptor.nextAvailFd := by
        rw [Interceptor.nextAvailFd, h.last_eq, Int.sub_add_cancel]
      dsimp only
      rw [hstart, hentry]
      refine ⟨hge, ?_⟩
      rw [fd2channel_setFd2channel_of_ne hge hnextFd (of_decide_eq_true hother) ch, hzero]

theorem closedCleared_close {t t' : Table} {fd : Int} {answering : List Int} {depth : Nat}
    (h : ClosedCleared t)
    (hnext : next t { call := .close fd, answering := answering, depth := depth } = some t') :
    ClosedCleared t' := by
  obtain ⟨s, hclose, rfl⟩ := Option.map_eq_some_iff.mp hnext
  obtain ⟨hstart, hcount, hlast, hkept⟩ := close_frame hclose
  have hstays : ∀ fd' ∈ t.closed, s.startfd ≤ fd' ∧ s.fd2channel fd' = 0 := by
    intro fd' hmem
    obtain ⟨hge, hzero⟩ := h.cleared fd' hmem
    exact ⟨hstart ▸ hge, hkept fd' hge hzero⟩
  constructor
  · exact hlast.trans (hstart ▸ h.last_eq)
  · intro fd' hfd'
    dsimp only at hfd' ⊢
    split at hfd'
    · rename_i hassigned
      have hbefore : t.interceptor.isAssignedByMuquinet fd := by
        simpa only [Interceptor.isAssignedByMuquinet, hstart, hcount] using hassigned
      have hzero := fd2channel_close hclose hbefore
      rcases List.mem_cons.mp hfd' with rfl | hmem
      · exact ⟨hassigned.1, hzero⟩
      · exact hstays fd' hmem
    · exact hstays fd' hfd'

theorem closedCleared_next {t t' : Table} {a : Label} (h : ClosedCleared t)
    (hnext : next t a = some t') : ClosedCleared t' := by
  obtain ⟨call, answering, depth⟩ := a
  cases call with
  | socket ch ret => exact closedCleared_socket h hnext
  | close fd => exact closedCleared_close h hnext

theorem closedCleared_of_reachable {t : Table} (h : machine.Reachable t) : ClosedCleared t := by
  refine h.invariant (I := ClosedCleared) ?_ ?_
  · rintro t ⟨⟨-, -, hlast, -⟩, hnone⟩
    exact ⟨hlast, by simp [hnone]⟩
  · intro t a t' hclosed _ hnext
    exact closedCleared_next hclosed hnext

section Calls

variable {build : Build} {s : Interceptor} {caller : Caller} {fd : Int32}

/-- An action of a call on a descriptor of the range is no quiet failure; it is a request just
under a condition, and then it goes where the entry points. -/
structure Behaves (s : Interceptor) (fd : Int32) (requests : Prop) (action : Action) : Prop where
  not_failsQuietly : ¬ FailsQuietly action
  request_iff : (∃ ch req, action = .request ch req) ↔ requests
  channel_eq : ∀ ch req, action = .request ch req → ch = s.fd2channel fd.toInt

theorem behaves_sendOn (calling : Calling) : Behaves s fd True (sendOn s caller fd calling) := by
  refine ⟨id, iff_of_true ⟨_, _, rfl⟩ trivial, ?_⟩
  intro ch req h
  cases h
  rfl

theorem behaves_assertFails : Behaves s fd False .assertFails :=
  ⟨id, iff_of_false (by simp) id, by simp⟩

theorem behaves_returns_zero : Behaves s fd False (.returns 0) :=
  ⟨(by decide : ¬ (0 : Int32) = -1), iff_of_false (by simp) id, by simp⟩

theorem behaves_noReturn : Behaves s fd False .noReturn :=
  ⟨id, iff_of_false (by simp) id, by simp⟩

theorem Behaves.ite {c requests requests' : Prop} [Decidable c] {action action' : Action}
    (h : Behaves s fd requests action) (h' : Behaves s fd requests' action') :
    Behaves s fd (c ∧ requests ∨ ¬ c ∧ requests') (if c then action else action') := by
  by_cases hc : c
  · simpa [hc] using h
  · simpa [hc] using h'

theorem Behaves.congr {requests requests' : Prop} {action : Action}
    (h : Behaves s fd requests action) (hrequests : requests ↔ requests') :
    Behaves s fd requests' action :=
  ⟨h.not_failsQuietly, h.request_iff.trans hrequests, h.channel_eq⟩

theorem Behaves.assertThen {requests : Prop} {action : Action} (h : Behaves s fd requests action)
    (build : Build) (addrlen : UInt32) :
    Behaves s fd (LengthPasses build addrlen ∧ requests)
      (assertThen build (addrlen.toNat = sizeofSockaddrIn) action) := by
  refine (behaves_assertFails.ite h).congr ?_
  simp only [LengthPasses]
  tauto

theorem behaves_sendto {buf destAddr : Pointer} {len : UInt64} {flags : Int32}
    {addrlen : UInt32} (h : s.isAssignedByMuquinet fd.toInt) :
    Behaves s fd (Requests build (.sendto fd buf len flags destAddr addrlen))
      (sendto build s caller fd buf len flags destAddr addrlen) := by
  rw [sendto, passUnlessAssigned_of_assigned h]
  have hwithAddr : Behaves s fd True (sendOn s caller fd (.sendtoCall (caller.bytes buf len.toNat)
      flags (some (caller.bytes destAddr addrlen.toNat)))) := behaves_sendOn _
  refine (behaves_returns_zero.ite ((hwithAddr.assertThen build addrlen).ite
    (behaves_sendOn _))).congr ?_
  simp only [Requests]
  tauto

theorem behaves_recvfrom {buf srcAddr addrlen : Pointer} {len : UInt64} {flags : Int32}
    (h : s.isAssignedByMuquinet fd.toInt) :
    Behaves s fd (buf ≠ NULL ∧ len ≠ 0)
      (recvfrom s caller fd buf len flags srcAddr addrlen) := by
  rw [recvfrom, passUnlessAssigned_of_assigned h]
  refine (behaves_returns_zero.ite (behaves_sendOn _)).congr ?_
  tauto

theorem behaves_intercept (h : s.isAssignedByMuquinet fd.toInt) {call : PassThrough.Call}
    (hfd : call.fd = some fd) (connCh : Int) :
    Behaves s fd (Requests build call) (intercept build s caller connCh call) := by
  cases call with
  | socket domain type protocol => cases hfd
  | connect sockfd addr addrlen =>
      cases hfd
      rw [intercept, connect, passUnlessAssigned_of_assigned h]
      exact ((behaves_sendOn _).assertThen build addrlen).congr (and_iff_left trivial)
  | close fd =>
      cases hfd
      rw [intercept, PassThrough.close, passUnlessAssigned_of_assigned h]
      exact behaves_sendOn _
  | read fd buf len =>
      cases hfd
      rw [intercept, PassThrough.read, passUnlessAssigned_of_assigned h]
      exact behaves_recvfrom h
  | write fd buf len =>
      cases hfd
      rw [intercept, write, passUnlessAssigned_of_assigned h]
      refine (behaves_sendto h).congr ?_
      simp [Requests]
  | send sockfd buf len flags =>
      cases hfd
      rw [intercept, send, passUnlessAssigned_of_assigned h]
      refine (behaves_sendto h).congr ?_
      simp [Requests]
  | sendto sockfd buf len flags destAddr addrlen =>
      cases hfd
      exact behaves_sendto h
  | recv sockfd buf len flags =>
      cases hfd
      rw [intercept, recv, passUnlessAssigned_of_assigned h]
      exact behaves_recvfrom h
  | recvfrom sockfd buf len flags srcAddr addrlen =>
      cases hfd
      exact behaves_recvfrom h
  | getpeername sockfd addr addrlen =>
      cases hfd
      rw [intercept, getpeername, passUnlessAssigned_of_assigned h]
      exact behaves_sendOn _
  | getsockname sockfd addr addrlen =>
      cases hfd
      rw [intercept, getsockname, passUnlessAssigned_of_assigned h]
      exact behaves_sendOn _
  | setsockopt sockfd level optname optval optlen =>
      cases hfd
      rw [intercept, setsockopt, passUnlessAssigned_of_assigned h]
      exact behaves_noReturn
  | getsockopt sockfd level optname optval optlen =>
      cases hfd
      rw [intercept, getsockopt, passUnlessAssigned_of_assigned h]
      exact behaves_noReturn

theorem requests_iff (h : s.isAssignedByMuquinet fd.toInt) {call : PassThrough.Call}
    (hfd : call.fd = some fd) (build : Build) (caller : Caller) (connCh : Int) :
    Requests build call ↔
      ∃ req, intercept build s caller connCh call = .request (s.fd2channel fd.toInt) req := by
  have hbehaves := @behaves_intercept build s caller fd h call hfd connCh
  rw [← hbehaves.request_iff]
  constructor
  · rintro ⟨ch, req, hrequest⟩
    obtain rfl := hbehaves.channel_eq ch req hrequest
    exact ⟨req, hrequest⟩
  · rintro ⟨req, hrequest⟩
    exact ⟨_, req, hrequest⟩

end Calls

/-- No call on a dead descriptor fails without touching one, in any build.  Those that get to
a request send it where the entry points, and the entry of a descriptor that was closed points
to descriptor 0. -/
theorem dead_never_failsQuietly {t : Table} (h : machine.Reachable t) {fd : Int32}
    (hdead : Dead t fd.toInt) :
    (fd.toInt ∈ t.closed → t.interceptor.fd2channel fd.toInt = 0) ∧
      ∀ build caller connCh call, call.fd = some fd →
        ¬ FailsQuietly (intercept build t.interceptor caller connCh call) ∧
        (Requests build call ↔
          ∃ req, intercept build t.interceptor caller connCh call =
            .request (t.interceptor.fd2channel fd.toInt) req) := by
  constructor
  · intro hclosed
    exact ((closedCleared_of_reachable h).cleared _ hclosed).2
  · intro build caller connCh call hfd
    exact ⟨(behaves_intercept hdead.1 hfd connCh).not_failsQuietly,
      requests_iff hdead.1 hfd build caller connCh⟩

/-- What `malloc` returned has a 3 behind the entry of the first descriptor. -/
def sampleTable : Table :=
  { interceptor := { sampleInterceptor with
      fd2channelVector := 0 :: 3 :: List.replicate 1022 0 }
    closed := [] }

theorem sampleTable_reachable : machine.Reachable sampleTable := by
  have hlength : (0 :: 3 :: List.replicate 1022 (0 : Int)).length = 1024 := by
    rw [List.length_cons, List.length_cons, List.length_replicate]
  exact .initial ⟨⟨by decide, by decide, rfl, hlength, rfl, rfl, rfl⟩, rfl⟩

/-- A socket that is closed twice, while something reads and answers on descriptor 0. -/
def sampleLabels : List Label :=
  [{ call := .socket 3 0, answering := [], depth := 0 },
    { call := .close 4096, answering := [3], depth := 2 },
    { call := .close 4096, answering := [0], depth := 2 }]

theorem sample_dead_calls :
    ∃ t, machine.exec sampleTable sampleLabels = some t ∧ t.interceptor.fd2channel 4096 = 0 ∧
      ¬ FailsQuietly (intercept .release t.interceptor sampleCaller 7 (.connect 4096 8192 3)) ∧
      ∃ req, intercept .release t.interceptor sampleCaller 7 (.connect 4096 8192 3) =
        .request (t.interceptor.fd2channel 4096) req := by
  obtain ⟨t, hexec, hlive, hrange, hclosed⟩ : ∃ t,
      machine.exec sampleTable sampleLabels = some t ∧ t.interceptor.live = [] ∧
      t.interceptor.isAssignedByMuquinet 4096 ∧ 4096 ∈ t.closed :=
    ⟨_, rfl, rfl, by decide, by decide⟩
  have hdead : Dead t (4096 : Int32).toInt := ⟨hrange, by simp [hlive]⟩
  obtain ⟨hentry, hcalls⟩ :=
    dead_never_failsQuietly (Machine.reachable_of_exec sampleTable_reachable hexec) hdead
  obtain ⟨hquiet, hrequests⟩ := hcalls .release sampleCaller 7 (.connect 4096 8192 3) rfl
  exact ⟨t, hexec, hentry hclosed, hquiet, hrequests.mp (by intro hasserts; cases hasserts)⟩

/-- What is written to the closed descriptor goes to descriptor 0, and what is asked of one
that was never assigned goes to the channel of the live socket. -/
theorem dead_descriptors_do_io :
    (∃ t req, machine.Reachable t ∧ Dead t 4096 ∧
      intercept .release t.interceptor sampleCaller 7 (.write 4096 8192 1) = .request 0 req) ∧
    ∃ t req, machine.Reachable t ∧ t.interceptor.live = [(4096, 3)] ∧ Dead t 4097 ∧
      intercept .release t.interceptor sampleCaller 7 (.close 4097) = .request 3 req := by
  constructor
  · obtain ⟨t, hexec, hlive, hrange, hentry⟩ : ∃ t,
        machine.exec sampleTable sampleLabels = some t ∧ t.interceptor.live = [] ∧
        t.interceptor.isAssignedByMuquinet 4096 ∧ t.interceptor.fd2channel 4096 = 0 :=
      ⟨_, rfl, rfl, by decide, by decide⟩
    have hcall : Requests .release (.write 4096 8192 1) := ⟨by decide, by decide⟩
    obtain ⟨req, hrequest⟩ := (@requests_iff _ 4096 hrange _ rfl .release sampleCaller 7).mp hcall
    have hdead : Dead t 4096 := ⟨hrange, by simp [hlive]⟩
    refine ⟨t, req, Machine.reachable_of_exec sampleTable_reachable hexec, hdead, ?_⟩
    rw [hrequest]
    exact congrArg (Action.request · req) hentry
  · obtain ⟨t, hstep, hlive, hrange, hentry⟩ : ∃ t,
        machine.exec sampleTable (sampleLabels.take 1) = some t ∧
        t.interceptor.live = [(4096, 3)] ∧ t.interceptor.isAssignedByMuquinet 4097 ∧
        t.interceptor.fd2channel 4097 = 3 :=
      ⟨_, rfl, rfl, by decide, by decide⟩
    have hcall : Requests .release (.close 4097) := trivial
    obtain ⟨req, hrequest⟩ := (@requests_iff _ 4097 hrange _ rfl .release sampleCaller 7).mp hcall
    have hdead : Dead t 4097 := ⟨hrange, by simp [hlive]⟩
    refine ⟨t, req, Machine.reachable_of_exec sampleTable_reachable hstep, hlive, hdead, ?_⟩
    rw [hrequest]
    exact congrArg (Action.request · req) hentry

end MuQuinet.DeadDescriptors
