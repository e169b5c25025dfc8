import MuQuinet.Builds
import MuQuinet.FdTable
import MuQuinet.RequestHandler

namespace MuQuinet.PassThrough

open MuQuinet.Lib.Machines
open MuQuinet.Builds
open MuQuinet.FdTable
open MuQuinet.RequestHandler
open MuQuinet.Rpc
open MuQuinet.Sockets

abbrev Pointer := UInt64

def NULL : Pointer := 0

/-- A call of one of the functions that both glibc and the interceptor define,
with its arguments. -/
inductive Call
  | socket (domain type protocol : Int32)
  | connect (sockfd : Int32) (addr : Pointer) (addrlen : UInt32)
  | close (fd : Int32)
  | read (fd : Int32) (buf : Pointer) (count : UInt64)
  | write (fd : Int32) (buf : Pointer) (count : UInt64)
  | send (sockfd : Int32) (buf : Pointer) (len : UInt64) (flags : Int32)
  | sendto (sockfd : Int32) (buf : Pointer) (len : UInt64) (flags : Int32) (destAddr : Pointer)
      (addrlen : UInt32)
  | recv (sockfd : Int32) (buf : Pointer) (len : UInt64) (flags : Int32)
  | recvfrom (sockfd : Int32) (buf : Pointer) (len : UInt64) (flags : Int32)
      (srcAddr addrlen : Pointer)
  | getpeername (sockfd : Int32) (addr addrlen : Pointer)
  | getsockname (sockfd : Int32) (addr addrlen : Pointer)
  | setsockopt (sockfd level optname : Int32) (optval : Pointer) (optlen : UInt32)
  | getsockopt (sockfd level optname : Int32) (optval optlen : Pointer)
deriving DecidableEq, Repr

/-- The descriptor that a call is about. -/
def Call.fd : Call → Option Int32
  | .socket _ _ _ => none
  | .connect fd _ _ | .close fd | .read fd _ _ | .write fd _ _ | .send fd _ _ _
  | .sendto fd _ _ _ _ _ | .recv fd _ _ _ | .recvfrom fd _ _ _ _ _ | .getpeername fd _ _
  | .getsockname fd _ _ | .setsockopt fd _ _ _ _ | .getsockopt fd _ _ _ _ => some fd

/-- How a function of the interceptor goes on after its tests. -/
inductive Action
  /-- It returns what the saved glibc function returns for this call. -/
  | glibc (call : Call)
  /-- It calls `channel_send` of a request, and then `channel_recv`. -/
  | request (ch : Int) (req : Request)
  | returns (ret : Int32)
  /-- An assertion stops the process. -/
  | assertFails
  /-- The body ends without a `return`. -/
  | noReturn
deriving DecidableEq, Repr

/-- The process that calls. -/
structure Caller where
  pid : UInt64
  mem : Pointer → UInt8

def Caller.bytes (caller : Caller) (p : Pointer) (n : Nat) : List UInt8 :=
  (List.range n).map fun i => caller.mem (p + .ofNat i)

/-- `channel_send` of a request that says who calls. -/
def Caller.send (caller : Caller) (ch : Int) (calling : Calling) : Action :=
  .request ch { calling := calling, pid := caller.pid }

section Functions

variable (build : Build) (s : Interceptor) (caller : Caller)

/-- The test that begins every function but `socket`. -/
def passUnlessAssigned (fd : Int32) (call : Call) (action : Action) : Action :=
  if ¬ s.isAssignedByMuquinet fd.toInt then .glibc call else action

def sendOn (fd : Int32) (calling : Calling) : Action :=
  caller.send (s.fd2channel fd.toInt) calling

def socket (connCh : Int) (domain type protocol : Int32) : Action :=
  if domain ≠ AF_INET then .glibc (.socket domain type protocol)
  else if type &&& SOCK_STREAM = 0 ∧ type &&& SOCK_DGRAM = 0 then
    .glibc (.socket domain type protocol)
  else caller.send connCh (.socketCall domain type protocol)

/-- `assert`, and what follows it. -/
def assertThen (condition : Prop) [Decidable condition] (action : Action) : Action :=
  if build.asserts = true ∧ ¬ condition then .assertFails else action

def connect (sockfd : Int32) (addr : Pointer) (addrlen : UInt32) : Action :=
  passUnlessAssigned s sockfd (.connect sockfd addr addrlen)
    (assertThen build (addrlen.toNat = sizeofSockaddrIn)
      (sendOn s caller sockfd (.connectCall (caller.bytes addr addrlen.toNat))))

def close (fd : Int32) : Action :=
  passUnlessAssigned s fd (.close fd) (sendOn s caller fd .closeCall)

def sendto (sockfd : Int32) (buf : Pointer) (len : UInt64) (flags : Int32) (destAddr : Pointer)
    (addrlen : UInt32) : Action :=
  passUnlessAssigned s sockfd (.sendto sockfd buf len flags destAddr addrlen)
    (if buf = NULL ∨ len = 0 then .returns 0
    else if destAddr ≠ NULL then
      assertThen build (addrlen.toNat = sizeofSockaddrIn)
        (sendOn s caller sockfd (.sendtoCall (caller.bytes buf len.toNat) flags
          (some (caller.bytes destAddr addrlen.toNat))))
    else sendOn s caller sockfd (.sendtoCall (caller.bytes buf len.toNat) flags none))

def recvfrom (sockfd : Int32) (buf : Pointer) (len : UInt64) (flags : Int32)
    (srcAddr addrlen : Pointer) : Action :=
  passUnlessAssigned s sockfd (.recvfrom sockfd buf len flags srcAddr addrlen)
    (if buf = NULL ∨ len = 0 then .returns 0
    else
      sendOn s caller sockfd
        (.recvfromCall len.toUInt32.toInt32 flags (decide (srcAddr ≠ NULL))))

def read (fd : Int32) (buf : Pointer) (count : UInt64) : Action :=
  passUnlessAssigned s fd (.read fd buf count) (recvfrom s caller fd buf count 0 NULL NULL)

def write (fd : Int32) (buf : Pointer) (count : UInt64) : Action :=
  passUnlessAssigned s fd (.write fd buf count) (sendto build s caller fd buf count 0 NULL 0)

def send (sockfd : Int32) (buf : Pointer) (len : UInt64) (flags : Int32) : Action :=
  passUnlessAssigned s sockfd (.send sockfd buf len flags)
    (sendto build s caller sockfd buf len flags NULL 0)

def recv (sockfd : Int32) (buf : Pointer) (len : UInt64) (flags : Int32) : Action :=
  passUnlessAssigned s sockfd (.recv sockfd buf len flags)
    (recvfrom s caller sockfd buf len flags NULL NULL)

def getpeername (sockfd : Int32) (addr addrlen : Pointer) : Action :=
  passUnlessAssigned s sockfd (.getpeername sockfd addr addrlen)
    (sendOn s caller sockfd .getpeernameCall)

/-- The source passes its call on to `glibc_funcs.getpeername` as well. -/
def getsockname (sockfd : Int32) (addr addrlen : Pointer) : Action :=
  passUnlessAssigned s sockfd (.getpeername sockfd addr addrlen)
    (sendOn s caller sockfd .getsocknameCall)

def setsockopt (sockfd level optname : Int32) (optval : Pointer) (optlen : UInt32) : Action :=
  passUnlessAssigned s sockfd (.setsockopt sockfd level optname optval optlen) .noReturn

def getsockopt (sockfd level optname : Int32) (optval optlen : Pointer) : Action :=
  passUnlessAssigned s sockfd (.getsockopt sockfd level optname optval optlen) .noReturn

/-- What a call does where the interceptor is preloaded.  `connCh` is the channel
that `new_channel` returns if `socket` asks for one. -/
def intercept (connCh : Int) : Call → Action
  | .socket domain type protocol => socket caller connCh domain type protocol
  | .connect sockfd addr addrlen => connect build s caller sockfd addr addrlen
  | .close fd => close s caller fd
  | .read fd buf count => read s caller fd buf count
  | .write fd buf count => write build s caller fd buf count
  | .send sockfd buf len flags => send build s caller sockfd buf len flags
  | .sendto sockfd buf len flags destAddr addrlen =>
      sendto build s caller sockfd buf len flags destAddr addrlen
  | .recv sockfd buf len flags => recv s caller sockfd buf len flags
  | .recvfrom sockfd buf len flags srcAddr addrlen =>
      recvfrom s caller sockfd buf len flags srcAddr addrlen
  | .getpeername sockfd addr addrlen => getpeername s caller sockfd addr addrlen
  | .getsockname sockfd addr addrlen => getsockname s caller sockfd addr addrlen
  | .setsockopt sockfd level optname optval optlen =>
      setsockopt s sockfd level optname optval optlen
  | .getsockopt sockfd level optname optval optlen =>
      getsockopt s sockfd level optname optval optlen

end Functions

/-- A process with the descriptors that `socket()` returned for its channels. -/
structure Process where
  interceptor : Interceptor
  returned : List Int
deriving DecidableEq, Repr

/-- A call, the channel that `new_channel` returns and the daemon's answer. -/
structure Label where
  caller : Caller
  call : Call
  connCh : Int
  ret : Int

def next (build : Build) (p : Process) (a : Label) : Option Process :=
  match a.call, intercept build p.interceptor a.caller a.connCh a.call with
  | .socket _ _ _, .request ch _ =>
      (FdTable.next p.interceptor (.socket ch a.ret)).map fun t =>
        { interceptor := t
          returned :=
            if a.ret ≠ -1 then p.interceptor.nextAvailFd :: p.returned else p.returned }
  | .close fd, _ =>
      (FdTable.next p.interceptor (.close fd.toInt)).map fun t => { p with interceptor := t }
  | _, _ => some p

def machine (build : Build) : Machine Process Label where
  initial p := FdTable.machine.initial p.interceptor ∧ p.returned = []
  next := next build

def SOCK_CLOEXEC : Int32 := 0o2000000

/-- The type of a socket without the flags that it may be combined with. -/
def baseType (type : Int32) : Int32 :=
  type &&& ~~~(SOCK_NONBLOCK ||| SOCK_CLOEXEC)

/-- The call is not for muQuinet: its descriptor was never returned by `socket()`,
or the socket that it asks for is neither a TCP nor a UDP one. -/
def Foreign (p : Process) : Call → Prop
  | .socket domain type _ =>
      ¬ (domain = AF_INET ∧ (baseType type = SOCK_STREAM ∨ baseType type = SOCK_DGRAM))
  | call => ∀ fd, call.fd = some fd → fd.toInt ∉ p.returned

/-- A call that is not for muQuinet is glibc's, of the same name and with the same
arguments. -/
def Transparent (build : Build) (p : Process) (caller : Caller) (connCh : Int) (call : Call) :
    Prop :=
  Foreign p call → intercept build p.interceptor caller connCh call = .glibc call

/-- The base type is none that shares a bit with `SOCK_STREAM` or `SOCK_DGRAM` without
being it, the descriptor is none of the reserved range that `socket()` has not returned,
and the call is not `getsockname`. -/
def Routed (p : Process) : Call → Prop
  | .socket domain type _ =>
      domain = AF_INET → baseType type = SOCK_STREAM ∨ baseType type = SOCK_DGRAM ∨
        (baseType type).toBitVec.toNat % 4 = 0
  | .getsockname sockfd _ _ => sockfd.toInt ∈ p.returned
  | call => ∀ fd, call.fd = some fd →
      p.interceptor.isAssignedByMuquinet fd.toInt → fd.toInt ∈ p.returned

section

variable {build : Build} {s : Interceptor} {caller : Caller} {fd : Int32} {call call' : Call}
  {action : Action}

theorem passUnlessAssigned_eq_iff (h : action ≠ .glibc call) :
    passUnlessAssigned s fd call action = .glibc call ↔ ¬ s.isAssignedByMuquinet fd.toInt := by
  unfold passUnlessAssigned
  split
  · simp_all
  · simp_all

theorem passUnlessAssigned_ne (hcall : call' ≠ call) (h : action ≠ .glibc call) :
    passUnlessAssigned s fd call' action ≠ .glibc call := by
  unfold passUnlessAssigned
  split
  · simpa using hcall
  · exact h

theorem sendOn_ne_glibc (calling : Calling) : sendOn s caller fd calling ≠ .glibc call := by
  simp [sendOn, Caller.send]

theorem ite_ne_glibc {c : Prop} [Decidable c] {a b : Action} (ha : a ≠ .glibc call)
    (hb : b ≠ .glibc call) : (if c then a else b) ≠ .glibc call := by
  split
  · exact ha
  · exact hb

theorem assertThen_ne_glibc {condition : Prop} [Decidable condition] (h : action ≠ .glibc call) :
    assertThen build condition action ≠ .glibc call :=
  ite_ne_glibc (by simp) h

/-- What `sendto` does about a descriptor of the range. -/
theorem sendto_action_ne_glibc {buf destAddr : Pointer} {len : UInt64} {condition : Prop}
    [Decidable condition] (withAddr without : Calling) :
    (if buf = NULL ∨ len = 0 then .returns 0
    else if destAddr ≠ NULL then
      assertThen build condition (sendOn s caller fd withAddr)
    else sendOn s caller fd without) ≠ Action.glibc call :=
  ite_ne_glibc (by simp)
    (ite_ne_glibc (assertThen_ne_glibc (sendOn_ne_glibc _)) (sendOn_ne_glibc _))

theorem sendto_ne_glibc {buf destAddr : Pointer} {len : UInt64} {flags : Int32} {addrlen : UInt32}
    (h : .sendto fd buf len flags destAddr addrlen ≠ call) :
    sendto build s caller fd buf len flags destAddr addrlen ≠ .glibc call :=
  passUnlessAssigned_ne h (sendto_action_ne_glibc _ _)

theorem recvfrom_ne_glibc {buf srcAddr addrlen : Pointer} {len : UInt64} {flags : Int32}
    (h : .recvfrom fd buf len flags srcAddr addrlen ≠ call) :
    recvfrom s caller fd buf len flags srcAddr addrlen ≠ .glibc call :=
  passUnlessAssigned_ne h (ite_ne_glibc (by simp) (sendOn_ne_glibc _))

end

/-- The calls that the functions pass on as they are. -/
def Passed (s : Interceptor) : Call → Prop
  | .socket domain type _ =>
      domain ≠ AF_INET ∨ (type &&& SOCK_STREAM = 0 ∧ type &&& SOCK_DGRAM = 0)
  | .getsockname _ _ _ => False
  | call => ∀ fd, call.fd = some fd → ¬ s.isAssignedByMuquinet fd.toInt

theorem passed_of_fd {p : Prop} (s : Interceptor) (fd : Int32)
    (h : p ↔ ¬ s.isAssignedByMuquinet fd.toInt) :
    p ↔ ∀ fd', some fd = some fd' → ¬ s.isAssignedByMuquinet fd'.toInt := by
  rw [h]
  constructor
  · rintro hassigned fd' ⟨⟩
    exact hassigned
  · intro hall
    exact hall fd rfl

theorem intercept_eq_glibc_iff (build : Build) (s : Interceptor) (caller : Caller) (connCh : Int)
    (call : Call) : intercept build s caller connCh call = .glibc call ↔ Passed s call := by
  cases call with
  | socket domain type protocol =>
      simp only [intercept, socket, Passed]
      split
      · simp_all
      · split
        · simp_all
        · simp_all [Caller.send]
  | connect sockfd addr addrlen =>
      apply passed_of_fd s sockfd
      exact passUnlessAssigned_eq_iff (assertThen_ne_glibc (sendOn_ne_glibc _))
  | close fd => exact passed_of_fd s fd (passUnlessAssigned_eq_iff (sendOn_ne_glibc _))
  | read fd buf count =>
      exact passed_of_fd s fd (passUnlessAssigned_eq_iff (recvfrom_ne_glibc (by simp)))
  | write fd buf count =>
      exact passed_of_fd s fd (passUnlessAssigned_eq_iff (sendto_ne_glibc (by simp)))
  | send sockfd buf len flags =>
      exact passed_of_fd s sockfd (passUnlessAssigned_eq_iff (sendto_ne_glibc (by simp)))
  | sendto sockfd buf len flags destAddr addrlen =>
      apply passed_of_fd s sockfd
      exact passUnlessAssigned_eq_iff (sendto_action_ne_glibc _ _)
  | recv sockfd buf len flags =>
      exact passed_of_fd s sockfd (passUnlessAssigned_eq_iff (recvfrom_ne_glibc (by simp)))
  | recvfrom sockfd buf len flags srcAddr addrlen =>
      apply passed_of_fd s sockfd
      exact passUnlessAssigned_eq_iff (ite_ne_glibc (by simp) (sendOn_ne_glibc _))
  | getpeername sockfd addr addrlen =>
      exact passed_of_fd s sockfd (passUnlessAssigned_eq_iff (sendOn_ne_glibc _))
  | getsockname sockfd addr addrlen =>
      refine iff_of_false ?_ id
      exact passUnlessAssigned_ne (by simp) (sendOn_ne_glibc _)
  | setsockopt sockfd level optname optval optlen =>
      exact passed_of_fd s sockfd (passUnlessAssigned_eq_iff (by simp))
  | getsockopt sockfd level optname optval optlen =>
      exact passed_of_fd s sockfd (passUnlessAssigned_eq_iff (by simp))

theorem and_eq_zero_iff (a b : Int32) :
    a &&& b = 0 ↔ a.toBitVec.toNat &&& b.toBitVec.toNat = 0 := by
  rw [← Int32.toBitVec_inj, ← BitVec.toNat_inj, Int32.toBitVec_and, BitVec.toNat_and]
  rfl

/-- The flags lie above the two bits that `socket` tests. -/
theorem baseType_mod_four (type : Int32) :
    (baseType type).toBitVec.toNat % 4 = type.toBitVec.toNat % 4 := by
  have hmask : (~~~(SOCK_NONBLOCK ||| SOCK_CLOEXEC)).toBitVec.toNat % 2 ^ 2 = 2 ^ 2 - 1 := by
    decide
  rw [baseType, Int32.toBitVec_and, BitVec.toNat_and]
  show (_ &&& _) % 2 ^ 2 = _ % 2 ^ 2
  rw [Nat.and_mod_two_pow, hmask, Nat.and_two_pow_sub_one_eq_mod, Nat.mod_mod]

theorem bits_clear_iff (type : Int32) :
    (type &&& SOCK_STREAM = 0 ∧ type &&& SOCK_DGRAM = 0) ↔
      (baseType type).toBitVec.toNat % 4 = 0 := by
  have hstream : type.toBitVec.toNat &&& SOCK_STREAM.toBitVec.toNat = type.toBitVec.toNat % 2 :=
    Nat.and_one_is_mod _
  have hdgram : type.toBitVec.toNat &&& SOCK_DGRAM.toBitVec.toNat =
      (type.toBitVec.toNat.testBit 1).toNat * 2 ^ 1 := Nat.and_two_pow _ 1
  rw [and_eq_zero_iff, and_eq_zero_iff, hstream, hdgram, baseType_mod_four, Nat.toNat_testBit]
  omega

theorem foreign_passed_iff {p : Process} {fd : Int32} :
    ((∀ fd', some fd = some fd' → fd'.toInt ∉ p.returned) →
      ∀ fd', some fd = some fd' → ¬ p.interceptor.isAssignedByMuquinet fd'.toInt) ↔
      ∀ fd', some fd = some fd' →
        p.interceptor.isAssignedByMuquinet fd'.toInt → fd'.toInt ∈ p.returned := by
  constructor
  · rintro h fd' ⟨⟩ hassigned
    apply by_contra
    intro hforeign
    exact h (by rintro fd' ⟨⟩; exact hforeign) fd rfl hassigned
  · rintro h hforeign fd' ⟨⟩ hassigned
    exact hforeign fd rfl (h fd rfl hassigned)

/-- In any build, a call that is not for muQuinet reaches glibc as it is just where the
tests of the interceptor take it for what it is. -/
theorem transparent_iff_routed (build : Build) (p : Process) (caller : Caller) (connCh : Int)
    (call : Call) : Transparent build p caller connCh call ↔ Routed p call := by
  rw [Transparent, intercept_eq_glibc_iff]
  cases call with
  | socket domain type protocol =>
      simp only [Foreign, Passed, Routed, bits_clear_iff]
      tauto
  | getsockname sockfd addr addrlen =>
      simp only [Foreign, Passed, Routed, Call.fd]
      constructor
      · intro h
        apply by_contra
        intro hforeign
        exact h (by rintro fd ⟨⟩; exact hforeign)
      · intro h hforeign
        exact hforeign sockfd rfl h
  | connect | close | read | write | send | sendto | recv | recvfrom | getpeername | setsockopt
  | getsockopt => exact foreign_passed_iff

theorem next_startfd {s t : Interceptor} {call : FdTable.Call} (h : FdTable.next s call = some t) :
    t.startfd = s.startfd := by
  cases call with
  | socket ch ret =>
      simp only [FdTable.next] at h
      split at h
      · cases h
      · cases h
        rw [Interceptor.socket]
        split <;> rfl
  | close fd =>
      obtain ⟨u, hclose, rfl⟩ := Option.map_eq_some_iff.mp h
      exact (close_fields hclose).1

/-- A step leaves the interceptor alone or is one of its table, and `socket()` returns
the next descriptor. -/
theorem next_cases {build : Build} {p q : Process} {a : Label} (h : next build p a = some q) :
    q = p ∨ ∃ call t, FdTable.next p.interceptor call = some t ∧ q.interceptor = t ∧
      (q.returned = p.returned ∨ q.returned = p.interceptor.nextAvailFd :: p.returned) := by
  unfold next at h
  split at h
  · obtain ⟨t, hnext, rfl⟩ := Option.map_eq_some_iff.mp h
    refine .inr ⟨_, t, hnext, rfl, ?_⟩
    rcases Decidable.em (a.ret ≠ -1) with hret | hret
    · exact .inr (if_pos hret)
    · exact .inl (if_neg hret)
  · obtain ⟨t, hnext, rfl⟩ := Option.map_eq_some_iff.mp h
    exact .inr ⟨_, t, hnext, rfl, .inl rfl⟩
  · cases h
    exact .inl rfl

theorem returned_assigned {build : Build} {p : Process} (h : (machine build).Reachable p) :
    ∀ fd ∈ p.returned, p.interceptor.isAssignedByMuquinet fd := by
  have hinvariant : FdTable.Invariant p.interceptor ∧
      ∀ fd ∈ p.returned, fd = p.interceptor.startfd := by
    refine h.invariant (I := fun p => FdTable.Invariant p.interceptor ∧
      ∀ fd ∈ p.returned, fd = p.interceptor.startfd) ?_ ?_
    · rintro p ⟨hinitial, hnone⟩
      exact ⟨invariant_initial hinitial, by simp [hnone]⟩
    · rintro p a q ⟨htable, hreturned⟩ - hnext
      obtain rfl | ⟨call, t, hstep, rfl, hlist⟩ := next_cases hnext
      · exact ⟨htable, hreturned⟩
      · refine ⟨invariant_step htable hstep, ?_⟩
        rw [next_startfd hstep]
        intro fd hmem
        rcases hlist with hsame | hnew
        · exact hreturned fd (hsame ▸ hmem)
        · rw [hnew] at hmem
          rcases List.mem_cons.mp hmem with rfl | hmem
          · exact htable.nextAvailFd_eq
          · exact hreturned fd hmem
  intro fd hmem
  rw [hinvariant.2 fd hmem]
  exact hinvariant.1.startfd_assigned

theorem passUnlessAssigned_of_assigned {s : Interceptor} {fd : Int32}
    (h : s.isAssignedByMuquinet fd.toInt) (call : Call) (action : Action) :
    passUnlessAssigned s fd call action = action :=
  if_neg (not_not.mpr h)

/-- No call on a descriptor that `socket()` returned reaches glibc. -/
theorem returned_intercepted {build : Build} {p : Process} (h : (machine build).Reachable p)
    {call : Call} {fd : Int32} (hfd : call.fd = some fd) (hreturned : fd.toInt ∈ p.returned)
    (caller : Caller) (connCh : Int) (call' : Call) :
    intercept build p.interceptor caller connCh call ≠ .glibc call' := by
  have hassigned := returned_assigned h fd.toInt hreturned
  cases call <;> cases hfd <;>
    simp only [intercept, connect, close, read, write, send, sendto, recv, recvfrom, getpeername,
      getsockname, setsockopt, getsockopt, passUnlessAssigned_of_assigned hassigned]
  case connect => exact assertThen_ne_glibc (sendOn_ne_glibc _)
  case write | send | sendto => exact sendto_action_ne_glibc _ _
  case read | recv | recvfrom => exact ite_ne_glibc (by simp) (sendOn_ne_glibc _)
  case close | getpeername | getsockname => exact sendOn_ne_glibc _
  case setsockopt | getsockopt => simp

def sampleProcess : Process :=
  { interceptor := sampleInterceptor
    returned := [] }

def sampleCaller : Caller :=
  { pid := 1
    mem := fun _ => 0 }

/-- `getsockname` of a descriptor of the kernel, a call on a descriptor of the kernel that
lies in the range, and a raw socket. -/
theorem foreign_misrouted :
    ∃ p, (machine .release).Reachable p ∧
      ¬ Transparent .release p sampleCaller 7 (.getsockname 3 4096 8192) ∧
      ¬ Transparent .release p sampleCaller 7 (.close 4097) ∧
      ¬ Transparent .release p sampleCaller 7 (.socket AF_INET 3 1) := by
  refine ⟨sampleProcess, .initial ⟨sampleInterceptor_initial, rfl⟩, ?_, ?_, ?_⟩
  · intro h
    have hpassed := h fun _ _ => List.not_mem_nil
    exact absurd hpassed (by decide)
  · intro h
    have hpassed := h fun _ _ => List.not_mem_nil
    exact absurd hpassed (by decide)
  · intro h
    have hforeign : Foreign sampleProcess (.socket AF_INET 3 1) := by
      rintro ⟨-, hbase | hbase⟩
      · exact absurd hbase (by decide)
      · exact absurd hbase (by decide)
    exact absurd (h hforeign) (by decide)

end MuQuinet.PassThrough
