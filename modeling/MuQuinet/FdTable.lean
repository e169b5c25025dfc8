import MuQuinet.Lib.Machines

namespace MuQuinet.FdTable

open MuQuinet.Lib.Machines

/-- The globals of `fd-assigner.c` and `fd2channel.c`, and the channels that the
process has open.  `live` lists the sockets that `socket()` returned and that
were not closed since, with the channels created for them; `failuresClean` says
whether each `socket()` that failed left table and channels as they were. -/
structure Interceptor where
  startfd : Int
  fdCount : Nat
  lastFdAssigned : Int
  fd2channelVector : List Int
  openChannels : List Int
  live : List (Int × Int)
  failuresClean : Bool
deriving DecidableEq, Repr

namespace Interceptor

def isAssignedByMuquinet (s : Interceptor) (fd : Int) : Prop :=
  s.startfd ≤ fd ∧ fd < s.startfd + s.fdCount

instance (s : Interceptor) (fd : Int) : Decidable (s.isAssignedByMuquinet fd) :=
  inferInstanceAs (Decidable (_ ∧ _))

def nextAvailFd (s : Interceptor) : Int :=
  s.lastFdAssigned + 1

def fd2channel (s : Interceptor) (fd : Int) : Int :=
  s.fd2channelVector.getD (fd - s.startfd).toNat 0

def setFd2channel (s : Interceptor) (fd ch : Int) : Interceptor :=
  { s with fd2channelVector := s.fd2channelVector.set (fd - s.startfd).toNat ch }

def unsetFd2channel (s : Interceptor) (fd : Int) : Interceptor :=
  s.setFd2channel fd 0

/-- `socket()` where `new_channel` returns the channel `ch` and the daemon
answers `ret`. -/
def socket (s : Interceptor) (ch ret : Int) : Interceptor :=
  let connfd := s.nextAvailFd
  let t := { s.setFd2channel connfd ch with openChannels := ch :: s.openChannels }
  if ret ≠ -1 then { t with live := (connfd, ch) :: s.live }
  else
    { t with
      failuresClean := s.failuresClean &&
        decide (t.fd2channelVector = s.fd2channelVector ∧ t.openChannels = s.openChannels) }

def glibcClose (s : Interceptor) (fd : Int) : Interceptor :=
  { s with openChannels := s.openChannels.filter (· ≠ fd) }

/-- `close()`, which `close_channel` calls in its turn.  `none` where the request
is written to something that is no channel, or the recursion has no end. -/
def close : Nat → Interceptor → Int → Option Interceptor
  | 0, _, _ => none
  | fuel + 1, s, fd =>
      if s.isAssignedByMuquinet fd then
        let ch := s.fd2channel fd
        if ch ∈ s.openChannels then close fuel (s.unsetFd2channel fd) ch
        else none
      else some (s.glibcClose fd)

end Interceptor

inductive Call
  | socket (ch ret : Int)
  | close (fd : Int)
deriving DecidableEq, Repr

/-- A channel is a new descriptor of the process.  Each nested `close` clears an
entry of the table that held a channel. -/
def next (s : Interceptor) : Call → Option Interceptor
  | .socket ch ret => if ch ∈ s.openChannels then none else some (s.socket ch ret)
  | .close fd =>
      (s.close (s.fdCount + 2) fd).map fun t =>
        { t with live := t.live.filter fun socket => decide (socket.1 ≠ fd) }

/-- The runs from the state that `ask_muquientd_fd_range` leaves: the vector holds
what `malloc` returned. -/
def machine : Machine Interceptor Call where
  initial s := s.startfd ≠ 0 ∧ 0 < s.fdCount ∧ s.lastFdAssigned = s.startfd - 1 ∧
    s.fd2channelVector.length = s.fdCount ∧ s.openChannels = [] ∧ s.live = [] ∧
    s.failuresClean = true
  next := next

structure DescriptorsKept (s : Interceptor) : Prop where
  distinct : (s.live.map Prod.fst).Nodup
  in_range : ∀ socket ∈ s.live, s.isAssignedByMuquinet socket.1
  channel_eq : ∀ socket ∈ s.live, s.fd2channel socket.1 = socket.2
  failuresClean : s.failuresClean = true

/-- At most `g_fd_count` sockets are live at once. -/
def WithinCount (s : Interceptor) : Call → Prop
  | .socket _ ret => ret ≠ -1 → s.live.length < s.fdCount
  | .close _ => True

def OneAtATime (s : Interceptor) : Call → Prop
  | .socket _ ret => s.live = [] ∧ ret ≠ -1
  | .close _ => True

/-- The channel that a `close` reaches is none of the descriptors of the table. -/
def ChannelsOutside (s : Interceptor) : Call → Prop
  | .socket _ _ => True
  | .close fd => s.isAssignedByMuquinet fd → ¬ s.isAssignedByMuquinet (s.fd2channel fd)

structure Invariant (s : Interceptor) : Prop where
  fdCount_pos : 0 < s.fdCount
  last_eq : s.lastFdAssigned = s.startfd - 1
  length_eq : s.fd2channelVector.length = s.fdCount
  live_fd : ∀ socket ∈ s.live, socket.1 = s.startfd

theorem Invariant.nextAvailFd_eq {s : Interceptor} (h : Invariant s) :
    s.nextAvailFd = s.startfd := by
  rw [Interceptor.nextAvailFd, h.last_eq, Int.sub_add_cancel]

theorem Invariant.startfd_assigned {s : Interceptor} (h : Invariant s) :
    s.isAssignedByMuquinet s.startfd := by
  have hpos := h.fdCount_pos
  constructor
  · exact Int.le_refl _
  · omega

theorem close_fields {fuel : Nat} {s t : Interceptor} {fd : Int}
    (h : s.close fuel fd = some t) :
    t.startfd = s.startfd ∧ t.fdCount = s.fdCount ∧ t.lastFdAssigned = s.lastFdAssigned ∧
      t.fd2channelVector.length = s.fd2channelVector.length ∧ t.live = s.live ∧
      t.failuresClean = s.failuresClean := by
  induction fuel generalizing s fd with
  | zero => cases h
  | succ fuel ih =>
      rw [Interceptor.close] at h
      split at h
      · simp only at h
        split at h
        · obtain ⟨hstart, hcount, hlast, hlength, hlive, hclean⟩ := ih h
          refine ⟨hstart, hcount, hlast, ?_, hlive, hclean⟩
          rw [hlength, Interceptor.unsetFd2channel, Interceptor.setFd2channel, List.length_set]
        · cases h
      · cases h
        exact ⟨rfl, rfl, rfl, rfl, rfl, rfl⟩

theorem close_outside {fuel : Nat} {s t : Interceptor} {fd : Int}
    (houtside : ChannelsOutside s (.close fd)) (h : s.close (fuel + 2) fd = some t) :
    t.fd2channelVector = s.fd2channelVector ∨
      s.isAssignedByMuquinet fd ∧
        t.fd2channelVector = (s.unsetFd2channel fd).fd2channelVector := by
  rw [Interceptor.close] at h
  split at h
  · rename_i hassigned
    simp only at h
    split at h
    · have hch : ¬ (s.unsetFd2channel fd).isAssignedByMuquinet (s.fd2channel fd) :=
        houtside hassigned
      rw [Interceptor.close, if_neg hch] at h
      cases h
      exact .inr ⟨hassigned, rfl⟩
    · cases h
  · cases h
    exact .inl rfl

theorem invariant_step {s t : Interceptor} {call : Call} (h : Invariant s)
    (hnext : next s call = some t) : Invariant t := by
  cases call with
  | socket ch ret =>
      simp only [next] at hnext
      split at hnext
      · cases hnext
      · cases hnext
        obtain ⟨hpos, hlast, hlength, hlive⟩ := h
        have hfd : s.nextAvailFd = s.startfd := by
          rw [Interceptor.nextAvailFd, hlast, Int.sub_add_cancel]
        rw [Interceptor.socket]
        split
        · refine ⟨hpos, hlast, by simpa [Interceptor.setFd2channel] using hlength, ?_⟩
          intro socket hsocket
          rcases List.mem_cons.mp hsocket with rfl | hsocket
          · exact hfd
          · exact hlive socket hsocket
        · exact ⟨hpos, hlast, by simpa [Interceptor.setFd2channel] using hlength, hlive⟩
  | close fd =>
      obtain ⟨u, hclose, rfl⟩ := Option.map_eq_some_iff.mp hnext
      obtain ⟨hstart, hcount, hlast, hlength, hlive, -⟩ := close_fields hclose
      constructor
      · rw [hcount]
        exact h.fdCount_pos
      · rw [hlast, hstart]
        exact h.last_eq
      · rw [hlength, hcount]
        exact h.length_eq
      · intro socket hsocket
        rw [hstart]
        have hmem : socket ∈ u.live := (List.mem_filter.mp hsocket).1
        exact h.live_fd socket (hlive ▸ hmem)

theorem invariant_initial {s : Interceptor} (h : machine.initial s) : Invariant s := by
  obtain ⟨-, hpos, hlast, hlength, -, hlive, -⟩ := h
  exact ⟨hpos, hlast, hlength, by simp [hlive]⟩

theorem fd2channel_setFd2channel {s : Interceptor} (h : Invariant s) (ch : Int) :
    (s.setFd2channel s.startfd ch).fd2channel s.startfd = ch := by
  have hpos : 0 < s.fd2channelVector.length := by
    rw [h.length_eq]
    exact h.fdCount_pos
  simp [Interceptor.setFd2channel, Interceptor.fd2channel, hpos]

/-- Another descriptor of the range has an entry of its own. -/
theorem fd2channel_setFd2channel_of_ne {s : Interceptor} {fd fd' : Int} (hge : s.startfd ≤ fd)
    (hge' : s.startfd ≤ fd') (hne : fd ≠ fd') (ch : Int) :
    (s.setFd2channel fd' ch).fd2channel fd = s.fd2channel fd := by
  have hindex : (fd' - s.startfd).toNat ≠ (fd - s.startfd).toNat := by omega
  simp [Interceptor.setFd2channel, Interceptor.fd2channel, List.getElem?_set_ne hindex]

theorem descriptorsKept_socket {s : Interceptor} {ch ret : Int} (h : Invariant s)
    (hkept : DescriptorsKept s) (hguard : OneAtATime s (.socket ch ret)) :
    DescriptorsKept (s.socket ch ret) := by
  obtain ⟨hlive, hret⟩ := hguard
  have hfd := h.nextAvailFd_eq
  have hsocket : s.socket ch ret =
      { s.setFd2channel s.startfd ch with
        openChannels := ch :: s.openChannels
        live := [(s.startfd, ch)] } := by
    rw [Interceptor.socket, hfd, hlive]
    exact if_pos hret
  rw [hsocket]
  constructor
  · simp
  · intro socket hmem
    rw [List.mem_singleton.mp hmem]
    exact h.startfd_assigned
  · intro socket hmem
    rw [List.mem_singleton.mp hmem]
    exact fd2channel_setFd2channel h ch
  · exact hkept.failuresClean

theorem descriptorsKept_close {s t : Interceptor} {fd : Int} (h : Invariant s)
    (hkept : DescriptorsKept s) (houtside : ChannelsOutside s (.close fd))
    (hnext : next s (.close fd) = some t) : DescriptorsKept t := by
  obtain ⟨u, hclose, rfl⟩ := Option.map_eq_some_iff.mp hnext
  obtain ⟨hstart, hcount, -, -, hlive, hclean⟩ := close_fields hclose
  have hremaining : ∀ socket ∈ u.live.filter fun socket => decide (socket.1 ≠ fd),
      socket ∈ s.live ∧ fd ≠ s.startfd := by
    intro socket hsocket
    obtain ⟨hmem, hne⟩ := List.mem_filter.mp hsocket
    rw [hlive] at hmem
    refine ⟨hmem, ?_⟩
    rw [← h.live_fd socket hmem]
    exact Ne.symm (by simpa using hne)
  constructor
  · have hsublist : ((u.live.filter fun socket => decide (socket.1 ≠ fd)).map Prod.fst).Sublist
        (s.live.map Prod.fst) := by
      rw [hlive]
      exact List.filter_sublist.map _
    exact hkept.distinct.sublist hsublist
  · intro socket hsocket
    have hassigned := hkept.in_range socket (hremaining socket hsocket).1
    simpa [Interceptor.isAssignedByMuquinet, hstart, hcount] using hassigned
  · intro socket hsocket
    obtain ⟨hmem, hne⟩ := hremaining socket hsocket
    have hchannel := hkept.channel_eq socket hmem
    rw [h.live_fd socket hmem] at hchannel ⊢
    rw [← hchannel]
    rcases close_outside houtside hclose with hsame | ⟨hassigned, hcleared⟩
    · simp only [Interceptor.fd2channel, hsame, hstart]
    · rw [← fd2channel_setFd2channel_of_ne (Int.le_refl _) hassigned.1 (Ne.symm hne) 0]
      simp only [Interceptor.fd2channel, hcleared, hstart]
      rfl
  · exact hclean.trans hkept.failuresClean

/-- With one socket at a time the table is kept; a second live socket gets the
descriptor of the first, and a failure leaves its channel behind. -/
theorem descriptorsKept_of_oneAtATime (s : Interceptor) :
    (machine.ReachableUnder (fun s call => OneAtATime s call ∧ ChannelsOutside s call) s →
      DescriptorsKept s) ∧
      ∀ t ch ret, machine.Reachable s → ¬ OneAtATime s (.socket ch ret) →
        machine.next s (.socket ch ret) = some t → ¬ DescriptorsKept t := by
  constructor
  · intro h
    have hinvariant : Invariant s ∧ DescriptorsKept s := by
      refine h.invariant (I := fun s => Invariant s ∧ DescriptorsKept s) ?_ ?_
      · intro s hinitial
        refine ⟨invariant_initial hinitial, ?_⟩
        obtain ⟨-, -, -, -, -, hlive, hclean⟩ := hinitial
        exact ⟨by simp [hlive], by simp [hlive], by simp [hlive], hclean⟩
      · rintro s call t ⟨hs, hkept⟩ ⟨hone, houtside⟩ hnext
        refine ⟨invariant_step hs hnext, ?_⟩
        cases call with
        | socket ch ret =>
            simp only [machine, next] at hnext
            split at hnext
            · cases hnext
            · cases hnext
              exact descriptorsKept_socket hs hkept hone
        | close fd => exact descriptorsKept_close hs hkept houtside hnext
    exact hinvariant.2
  · intro t ch ret hreach hguard hnext hkept
    have hs : Invariant s := hreach.invariant (I := Invariant)
      (fun _ hinitial => invariant_initial hinitial)
      fun _ _ _ hs _ hnext => invariant_step hs hnext
    simp only [machine, next] at hnext
    split at hnext
    · cases hnext
    · cases hnext
      rcases hret : decide (ret ≠ -1) with _ | _
      · have hfailed := hkept.failuresClean
        rw [Interceptor.socket, if_neg (of_decide_eq_false hret)] at hfailed
        simp at hfailed
      · have hdistinct := hkept.distinct
        have hne : ret ≠ -1 := of_decide_eq_true hret
        rw [Interceptor.socket, if_pos hne, hs.nextAvailFd_eq] at hdistinct
        rcases hlive : s.live with _ | ⟨socket, rest⟩
        · exact hguard ⟨hlive, hne⟩
        · have hfd : socket.1 = s.startfd := hs.live_fd socket (by simp [hlive])
          simp [hlive, hfd] at hdistinct

def sampleInterceptor : Interceptor :=
  { startfd := 4096
    fdCount := 1024
    lastFdAssigned := 4095
    fd2channelVector := List.replicate 1024 0
    openChannels := []
    live := []
    failuresClean := true }

theorem sampleInterceptor_initial : machine.initial sampleInterceptor :=
  ⟨by decide, by decide, rfl, List.length_replicate, rfl, rfl, rfl⟩

theorem descriptorsKept_sample :
    (∃ s, machine.ReachableUnder (fun s call => OneAtATime s call ∧ ChannelsOutside s call) s ∧
      s.live = [(4096, 3)] ∧ DescriptorsKept s) ∧
      ∃ t, ¬ DescriptorsKept t := by
  obtain ⟨s, hnext, hlive⟩ : ∃ s, machine.next sampleInterceptor (.socket 3 0) = some s ∧
      s.live = [(4096, 3)] := ⟨_, rfl, rfl⟩
  have hone : OneAtATime sampleInterceptor (.socket 3 0) := ⟨rfl, by decide⟩
  have hreach : machine.ReachableUnder
      (fun s call => OneAtATime s call ∧ ChannelsOutside s call) s :=
    .step (.initial sampleInterceptor_initial) ⟨hone, trivial⟩ hnext
  obtain ⟨t, hfailed⟩ : ∃ t, machine.next sampleInterceptor (.socket 3 (-1)) = some t := ⟨_, rfl⟩
  have hguard : ¬ OneAtATime sampleInterceptor (.socket 3 (-1)) := fun h => h.2 rfl
  exact ⟨⟨s, hreach, hlive, (descriptorsKept_of_oneAtATime s).1 hreach⟩, t,
    (descriptorsKept_of_oneAtATime _).2 _ _ _ (.initial sampleInterceptor_initial) hguard hfailed⟩

theorem second_socket_same_descriptor :
    ∃ s, machine.ReachableUnder WithinCount s ∧ s.live = [(4096, 4), (4096, 3)] ∧
      ¬ DescriptorsKept s := by
  have hfirst : machine.next sampleInterceptor (.socket 3 0) =
      some (sampleInterceptor.socket 3 0) := rfl
  have hsecond : machine.next (sampleInterceptor.socket 3 0) (.socket 4 0) =
      some ((sampleInterceptor.socket 3 0).socket 4 0) := rfl
  have hwithin : WithinCount sampleInterceptor (.socket 3 0) := fun _ => by decide
  have hwithin' : WithinCount (sampleInterceptor.socket 3 0) (.socket 4 0) := fun _ => by decide
  refine ⟨_, .step (.step (.initial sampleInterceptor_initial) hwithin hfirst) hwithin' hsecond,
    rfl, ?_⟩
  intro h
  have hdistinct : ([4096, 4096] : List Int).Nodup := h.distinct
  exact absurd hdistinct (by decide)

end MuQuinet.FdTable
