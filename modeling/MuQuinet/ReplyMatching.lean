import Mathlib.Data.Multiset.OrderedMonoid
import Mathlib.Tactic.Abel
import MuQuinet.Lib.Exchanges
import MuQuinet.ReplyShape

namespace MuQuinet.ReplyMatching

open MuQuinet.Lib.Exchanges
open MuQuinet.Lib.Machines
open MuQuinet.Buffers
open MuQuinet.Callbacks
open MuQuinet.ChannelSockets
open MuQuinet.DaemonSurvival
open MuQuinet.DeliveryIsolation
open MuQuinet.HandlerEffects
open MuQuinet.IpLayer
open MuQuinet.PacketEffects
open MuQuinet.Pcbs
open MuQuinet.ReplyShape
open MuQuinet.RequestHandler
open MuQuinet.Rpc
open MuQuinet.Sockets

/-- Where the event loop thread is between the accesses that other threads see. -/
inductive Loop
  | idle
  /-- A handler has returned its response to a request. -/
  | writing (rrChannel tag : Nat) (resp : Response)
  /-- The callback of a waiting socket takes a packet. -/
  | dequeuing (ref : SocketRef) (cb : OnAsyncNewPacket)
  /-- The callback has made its response of the packet. -/
  | replying (rrChannel : Nat) (ref : SocketRef) (resp : Response)
deriving DecidableEq, Repr

/-- The daemon and the client on one channel.  The number of the request goes with
each message, which does not carry it, and with each callback that is to answer it. -/
structure State where
  daemon : Daemon
  aborted : Bool
  loop : Loop
  /-- The callbacks that the IP thread has to run in `TcpPcb::recv`, as channel and number. -/
  estabCBs : List (Nat × Nat)
  toDaemon : List (Nat × Request)
  toClient : List (Nat × Response)
  sent : Nat
  /-- Whether the client is in `channel_recv`. -/
  waiting : Bool
  returned : List (Nat × Response)
  /-- The final responses on the channel that were generated, with what they answer. -/
  generated : List (Nat × Response)
  recvTag : SocketRef → Nat
  connTag : SocketRef → Nat

inductive Label
  | channelSend (req : Request)
  /-- `channel_recv` reads a response. -/
  | channelRecv
  | accept
  | hangUp (rrChannel : Nat)
  | readError
  /-- The loop reads a request from the client's channel, or from another. -/
  | request (mem : Uninit)
  | otherRequest (mem : Uninit) (rrChannel : Nat) (req : Request)
  | notified (ref : SocketRef)
  | dequeue
  | write (fails : Bool)
  | rx (uninit : SockaddrIn) (skbuf : SocketBuffer)
  | onConnEstab (fails : Bool)
deriving DecidableEq, Repr

def abort (s : State) : State :=
  { s with aborted := true }

def unregister (d : Daemon) (c : Nat) : Daemon :=
  d.setRRChannel c ((d.rrChannel c).map fun rr => { rr with registered := false })

/-- The `::write` of a response. -/
def put (ch : Nat) (s : State) (c tag : Nat) (resp : Response) (fails : Bool) : State :=
  if fails then { s with daemon := unregister s.daemon c }
  else if c = ch then { s with toClient := s.toClient ++ [(tag, resp)] }
  else s

def generate (ch : Nat) (s : State) (c tag : Nat) (resp : Response) : State :=
  if c = ch then { s with generated := s.generated ++ [(tag, resp)] } else s

def setTag (tagOf : SocketRef → Nat) (owner : Option SocketRef) (tag : Nat) : SocketRef → Nat :=
  fun ref => if owner = some ref then tag else tagOf ref

/-- The callback that a handler set before it announced an answer is to give it. -/
def register (s : State) (owner : Option SocketRef) (tag : Nat) : Calling → State
  | .recvfromCall _ _ _ => { s with recvTag := setTag s.recvTag owner tag }
  | .connectCall _ => { s with connTag := setTag s.connTag owner tag }
  | _ => s

def handle (ch : Nat) (s : State) (mem : Uninit) (c tag : Nat) (req : Request) : State :=
  match handleRequest s.daemon mem c req with
  | .error _ => abort s
  | .ok (d, resp) =>
      let handled := { s with daemon := d, loop := .writing c tag resp }
      if resp.retCode = some .WAIT_NEXT then
        if c = ch then register handled (s.daemon.socketOf ch) tag req.calling else handled
      else generate ch handled c tag resp

/-- `Socket::Impl::sChannelReadCb` up to the callback. -/
def readNotifyPipe (s : State) (ref : SocketRef) (so : Socket) : State :=
  let so := so.drainNotifyPipe
  if so.waiting then
    match so.onAsyncNewPacket with
    | none => { s with daemon := s.daemon.setSocketAt ref (so.setWaiting false) }
    | some cb => { s with daemon := s.daemon.setSocketAt ref so, loop := .dequeuing ref cb }
  else { s with daemon := s.daemon.setSocketAt ref so }

def dequeued (ch : Nat) (s : State) (ref : SocketRef) (cb : OnAsyncNewPacket)
    (entry : SockaddrIn × List SocketBuffer) (so : Socket) : State :=
  match packetResponse cb.requireAddr entry with
  | .error _ => abort s
  | .ok resp =>
      let taken :=
        { s with
          daemon := s.daemon.setSocketAt ref so
          loop := .replying cb.rrChannel ref resp }
      generate ch taken cb.rrChannel (s.recvTag ref) resp

/-- The loop writes a response, and then the daemon is as given. -/
def written (ch : Nat) (s : State) (after : Daemon) (c tag : Nat) (resp : Response)
    (fails : Bool) : State :=
  match RequestHandler.write resp with
  | .error _ => abort s
  | .ok resp => put ch { s with daemon := after, loop := .idle } c tag resp fails

def stopWaiting (d : Daemon) (ref : SocketRef) : Daemon :=
  match d.socketAt ref with
  | none => d
  | some so => d.setSocketAt ref (so.setWaiting false)

/-- The number that goes with the callback of the PCB that a packet was for. -/
def estabTag (s : State) (events : List Event) : Nat :=
  match receivers events with
  | [] => 0
  | i :: _ => s.connTag { type := .TCP, index := i }

/-- The callback of `connectCall`, on a channel that is still there. -/
def connEstab (ch : Nat) (s : State) (c tag : Nat) (fails : Bool) : State :=
  if (s.daemon.rrChannel c).isNone then s
  else
    match RequestHandler.write connEstabResponse with
    | .error _ => abort s
    | .ok resp => put ch (generate ch s c tag resp) c tag resp fails

def channelRecv (s : State) : Option State :=
  match s.toClient with
  | [] => none
  | (tag, resp) :: rest =>
      if resp.retCode = some .WAIT_NEXT then some { s with toClient := rest }
      else
        some { s with
          toClient := rest
          waiting := false
          returned := s.returned ++ [(tag, resp)] }

def loopNext (ch : Nat) (s : State) : Label → Option State
  | .accept => some { s with daemon := accept s.daemon }
  | .hangUp c =>
      if polled s.daemon c then some { s with daemon := s.daemon.removeRRChannel c } else none
  | .readError => some (abort s)
  | .request mem =>
      match s.toDaemon with
      | [] => none
      | (tag, req) :: rest =>
          if polled s.daemon ch then some (handle ch { s with toDaemon := rest } mem ch tag req)
          else none
  | .otherRequest mem c req =>
      if c ≠ ch ∧ polled s.daemon c then some (handle ch s mem c 0 req) else none
  | .notified ref => (s.daemon.socketAt ref).map (readNotifyPipe s ref)
  | _ => none

/-- What the process of the daemon does: its loop thread, idle or not, and its IP thread. -/
def daemonNext (ch : Nat) (s : State) : Label → Option State
  | .rx uninit skbuf =>
      if s.estabCBs = [] then
        let (stack, events) := rx s.daemon.stack uninit skbuf
        some { s with
          daemon := { s.daemon with stack := stack }
          estabCBs := (estabs events).map fun c => (c, estabTag s events) }
      else none
  | .onConnEstab fails =>
      match s.estabCBs with
      | [] => none
      | (c, tag) :: rest => some (connEstab ch { s with estabCBs := rest } c tag fails)
  | a =>
      match s.loop, a with
      | .idle, a => loopNext ch s a
      | .writing c tag resp, .write fails => some (written ch s s.daemon c tag resp fails)
      | .dequeuing ref cb, .dequeue => do
          let (entry, so) ← (← s.daemon.socketAt ref).tryTakeFromRecvQ
          return dequeued ch s ref cb entry so
      | .replying c ref resp, .write fails =>
          some (written ch s (stopWaiting s.daemon ref) c (s.recvTag ref) resp fails)
      | _, _ => none

def next (ch : Nat) (s : State) : Label → Option State
  | .channelSend req =>
      if s.waiting then none
      else
        some { s with
          toDaemon := s.toDaemon ++ [(s.sent, req)]
          sent := s.sent + 1
          waiting := true }
  | .channelRecv => if s.waiting then channelRecv s else none
  | a => if s.aborted then none else daemonNext ch s a

def machine (ch : Nat) : Machine State Label where
  initial s := s.daemon.rrChannels = [] ∧ s.daemon.stack.udp.pcbs = [] ∧
    s.daemon.stack.tcp.pcbs = [] ∧ s.loop = .idle ∧ s.estabCBs = [] ∧ s.toDaemon = [] ∧
    s.toClient = [] ∧ s.sent = 0 ∧ s.waiting = false ∧ s.returned = [] ∧ s.generated = []
  next := next ch

section Tokens

def requestTokens (s : State) : Multiset (Token Response) :=
  (s.toDaemon.map fun entry => (entry.1, none) : List (Token Response))

def finalToken (ch c tag : Nat) (resp : Response) : Multiset (Token Response) :=
  if c = ch ∧ resp.retCode ≠ some .WAIT_NEXT then {(tag, some resp)} else 0

def loopTokens (ch : Nat) (s : State) : Multiset (Token Response) :=
  match s.loop with
  | .writing c tag resp => finalToken ch c tag resp
  | _ => 0

/-- The token of a socket that waits. -/
def awaited (owner : Option SocketRef) (waits : SocketRef → Bool) (tagOf : SocketRef → Nat)
    (reply : Option Response) : Multiset (Token Response) :=
  match owner with
  | none => 0
  | some ref => if waits ref then {(tagOf ref, reply)} else 0

/-- The response that the callback of a channel's socket has made while the socket waits. -/
def reply (ch : Nat) : Loop → Option Response
  | .replying c _ resp => if c = ch then some resp else none
  | _ => none

def packetTokens (ch : Nat) (s : State) : Multiset (Token Response) :=
  awaited (s.daemon.socketOf ch) (waitsForPacket s.daemon) s.recvTag (reply ch s.loop)

def estabTokens (ch : Nat) (s : State) : Multiset (Token Response) :=
  awaited (s.daemon.socketOf ch) (waitsForEstab s.daemon ch) s.connTag none

def callbackTokens (ch : Nat) (s : State) : Multiset (Token Response) :=
  ((s.estabCBs.filter fun entry => entry.1 = ch).map fun entry => (entry.2, none) :
    List (Token Response))

def replyTokens (s : State) : Multiset (Token Response) :=
  ((s.toClient.filter fun entry => entry.2.retCode ≠ some .WAIT_NEXT).map
    fun entry => (entry.1, some entry.2) : List (Token Response))

/-- Where the request of a client can be on its way to the final response. -/
def tokens (ch : Nat) (s : State) : Multiset (Token Response) :=
  requestTokens s + loopTokens ch s + packetTokens ch s + estabTokens ch s + callbackTokens ch s +
    replyTokens s

def ledger (ch : Nat) (s : State) : Ledger Response :=
  { asked := s.sent
    waiting := s.waiting
    answered := s.generated
    returned := s.returned
    tokens := tokens ch s }

theorem awaited_le {owner owner' : Option SocketRef} {waits waits' : SocketRef → Bool}
    {tagOf tagOf' : SocketRef → Nat} (reply : Option Response)
    (h : ∀ ref, owner' = some ref → waits' ref = true →
      owner = some ref ∧ waits ref = true ∧ tagOf' ref = tagOf ref) :
    awaited owner' waits' tagOf' reply ≤ awaited owner waits tagOf reply := by
  unfold awaited
  rcases owner' with _ | ref
  · exact Multiset.zero_le _
  · rcases hwaits : waits' ref with _ | _
    · simp [hwaits]
    · obtain ⟨rfl, hbefore, htag⟩ := h ref rfl hwaits
      simp [hwaits, hbefore, htag]

theorem awaited_le_singleton {owner : Option SocketRef} {waits : SocketRef → Bool}
    {tagOf : SocketRef → Nat} (reply : Option Response) {tag : Nat}
    (h : ∀ ref, owner = some ref → waits ref = true → tagOf ref = tag) :
    awaited owner waits tagOf reply ≤ {(tag, reply)} := by
  unfold awaited
  rcases owner with _ | ref
  · exact Multiset.zero_le _
  · rcases hwaits : waits ref with _ | _
    · simp [hwaits]
    · simp [hwaits, h ref rfl hwaits]

/-- A callback that is set goes with the number of the request that set it. -/
theorem awaited_setTag_le {owner owner' : Option SocketRef} {waits : SocketRef → Bool}
    (h : ∀ ref, owner' = some ref → waits ref = true → owner = some ref)
    (tagOf : SocketRef → Nat) (tag : Nat) (reply : Option Response) :
    awaited owner' waits (setTag tagOf owner tag) reply ≤ {(tag, reply)} := by
  apply awaited_le_singleton
  intro ref howner hwaits
  exact if_pos (h ref howner hwaits)

theorem awaited_of_waits {owner : Option SocketRef} {waits : SocketRef → Bool} {ref : SocketRef}
    (howner : owner = some ref) (hwaits : waits ref = true) (tagOf : SocketRef → Nat)
    (reply : Option Response) : awaited owner waits tagOf reply = {(tagOf ref, reply)} := by
  simp [awaited, howner, hwaits]

theorem estabTokens_setSocketAt (ch : Nat) (s : State) (ref : SocketRef) (so : Socket) :
    awaited ((s.daemon.setSocketAt ref so).socketOf ch)
      (waitsForEstab (s.daemon.setSocketAt ref so) ch) s.connTag none = estabTokens ch s := by
  rw [socketOf_setSocketAt, waitsForEstab_setSocketAt, estabTokens]

theorem add_le_of_parts {R L P E C Z R' L' P' E' C' Z' : Multiset (Token Response)} (hR : R' ≤ R)
    (hL : L' ≤ L) (hP : P' ≤ P) (hE : E' ≤ E) (hC : C' ≤ C) (hZ : Z' ≤ Z) :
    R' + L' + P' + E' + C' + Z' ≤ R + L + P + E + C + Z :=
  add_le_add (add_le_add (add_le_add (add_le_add (add_le_add hR hL) hP) hE) hC) hZ

theorem add_part_comm (R L P E C Z F : Multiset (Token Response)) :
    R + L + P + E + C + Z + F = R + L + (P + F) + E + C + Z := by
  abel

theorem request_part_comm (R L P E C Z F : Multiset (Token Response)) :
    R + F + L + P + E + C + Z = F + (R + L + P + E + C + Z) := by
  abel

theorem callback_part_comm (R L P E C Z F : Multiset (Token Response)) :
    R + L + P + E + (F + C) + Z = F + (R + L + P + E + C + Z) := by
  abel

end Tokens

/-- The socket whose callback the loop runs waits, and belongs to the callback's channel. -/
def LoopOwns (d : Daemon) : Loop → Prop
  | .dequeuing ref cb => d.socketOf cb.rrChannel = some ref ∧ waitsForPacket d ref = true
  | .replying c ref _ => d.socketOf c = some ref ∧ waitsForPacket d ref = true
  | _ => True

structure Sound (s : State) : Prop where
  connected : Connected s.daemon
  owned : CallbacksOwned s.daemon
  loopOwns : LoopOwns s.daemon s.loop

structure Invariant (ch : Nat) (s : State) : Prop where
  sound : Sound s
  final : ∀ entry ∈ s.returned, entry.2.retCode ≠ some .WAIT_NEXT
  matched : Matched (ledger ch s)

theorem sameSockets_accept (d : Daemon) : SameSockets d (accept d) :=
  ⟨rfl, socketOf_accept d⟩

theorem sameSockets_unregister (d : Daemon) (c : Nat) : SameSockets d (unregister d c) := by
  have hkeeps : Keeps d (unregister d c) := keeps_setRRChannel fun _ => rfl
  exact ⟨rfl, hkeeps.socketOf⟩

theorem LoopOwns.of_kept {d d' : Daemon} (hsocketOf : ∀ c, d'.socketOf c = d.socketOf c)
    (hwaits : ∀ ref, waitsForPacket d' ref = waitsForPacket d ref) {loop : Loop}
    (h : LoopOwns d loop) : LoopOwns d' loop := by
  cases loop with
  | dequeuing ref cb => exact ⟨(hsocketOf _).trans h.1, (hwaits ref).trans h.2⟩
  | replying c ref resp => exact ⟨(hsocketOf _).trans h.1, (hwaits ref).trans h.2⟩
  | _ => exact trivial

theorem LoopOwns.of_same {d d' : Daemon} (hsame : SameSockets d d') {loop : Loop}
    (h : LoopOwns d loop) : LoopOwns d' loop :=
  h.of_kept hsame.socketOf (congrFun hsame.waitsForPacket)

section Calls

variable {d d' : Daemon} {ch c : Nat} {calling : Calling} {resp : Response}

theorem packetTokens_of_effects (hconn : Connected d) (heffects : Effects d d' c calling resp)
    (hnot : ¬ (c = ch ∧ Receives calling ∧ resp.retCode = some .WAIT_NEXT))
    (tagOf : SocketRef → Nat) (reply : Option Response) :
    awaited (d'.socketOf ch) (waitsForPacket d') tagOf reply ≤
      awaited (d.socketOf ch) (waitsForPacket d) tagOf reply := by
  apply awaited_le
  intro ref howner hwaits
  rcases waitsForPacket_of_effects hconn heffects howner hwaits with
    ⟨howner', hwaits'⟩ | ⟨hc, hreceives, hwaitNext, -⟩
  · exact ⟨howner', hwaits', rfl⟩
  · exact absurd ⟨hc, hreceives, hwaitNext⟩ hnot

theorem estabTokens_of_effects (hconn : Connected d) (hown : CallbacksOwned d)
    (heffects : Effects d d' c calling resp)
    (hnot : ¬ (c = ch ∧ Connects calling ∧ resp.retCode = some .WAIT_NEXT))
    (tagOf : SocketRef → Nat) (reply : Option Response) :
    awaited (d'.socketOf ch) (waitsForEstab d' ch) tagOf reply ≤
      awaited (d.socketOf ch) (waitsForEstab d ch) tagOf reply := by
  apply awaited_le
  intro ref howner hwaits
  rcases waitsForEstab_of_effects hconn hown heffects howner hwaits with
    ⟨howner', hwaits'⟩ | ⟨hc, hconnects, hwaitNext, -⟩
  · exact ⟨howner', hwaits', rfl⟩
  · exact absurd ⟨hc, hconnects, hwaitNext⟩ hnot

end Calls

section Handle

variable {ch : Nat} {s : State}

theorem finalToken_self {resp : Response} (h : resp.retCode ≠ some .WAIT_NEXT) (c tag : Nat) :
    finalToken c c tag resp = {(tag, some resp)} :=
  if_pos ⟨rfl, h⟩

theorem finalToken_of_waitNext {resp : Response} (h : resp.retCode = some .WAIT_NEXT)
    (ch c tag : Nat) :
    finalToken ch c tag resp = 0 :=
  if_neg fun hfinal => hfinal.2 h

theorem finalToken_of_ne {c : Nat} (h : c ≠ ch) (tag : Nat) (resp : Response) :
    finalToken ch c tag resp = 0 :=
  if_neg fun hfinal => h hfinal.1

/-- The token of a request goes with its response, or with the callback that its
handler set. -/
theorem matched_handle (hsound : Sound s) (hidle : s.loop = .idle) {tag : Nat}
    (hmatched : Matched
      { asked := s.sent
        waiting := s.waiting
        answered := s.generated
        returned := s.returned
        tokens := (tag, none) ::ₘ tokens ch s })
    (mem : Uninit) (req : Request) : Matched (ledger ch (handle ch s mem ch tag req)) := by
  obtain ⟨hconn, hown, -⟩ := hsound
  unfold handle
  rcases hcall : handleRequest s.daemon mem ch req with fault | ⟨d, resp⟩
  · exact hmatched.move (Multiset.le_cons_self _ _)
  · have heffects := handleRequest_effects hconn hcall
    have hloop : loopTokens ch s = 0 := by
      rw [loopTokens, hidle]
    have hreply : reply ch s.loop = none := by
      rw [hidle]
      rfl
    have hpacket : ¬ (Receives req.calling ∧ resp.retCode = some .WAIT_NEXT) →
        awaited (d.socketOf ch) (waitsForPacket d) s.recvTag none ≤ packetTokens ch s := by
      intro hnot
      rw [packetTokens, hreply]
      exact packetTokens_of_effects hconn heffects (fun h => hnot h.2) s.recvTag none
    have hestab : ¬ (Connects req.calling ∧ resp.retCode = some .WAIT_NEXT) →
        awaited (d.socketOf ch) (waitsForEstab d ch) s.connTag none ≤ estabTokens ch s := by
      intro hnot
      exact estabTokens_of_effects hconn hown heffects (fun h => hnot h.2) s.connTag none
    dsimp only
    split
    · rename_i hwaitNext
      have htoken := finalToken_of_waitNext hwaitNext ch ch tag
      rw [if_pos rfl]
      generalize req.calling = calling at hpacket hestab heffects
      cases calling with
      | recvfromCall len flags requireAddr =>
          have howner : ∀ ref, d.socketOf ch = some ref → waitsForPacket d ref = true →
              s.daemon.socketOf ch = some ref := by
            intro ref howner hwaits
            exact (waitsForPacket_of_effects hconn heffects howner hwaits).elim And.left (·.2.2.2)
          have hset := awaited_setTag_le howner s.recvTag tag none
          have hle := hestab fun h => nomatch h.1
          refine hmatched.move ?_
          calc
            _ ≤ requestTokens s + 0 + ({(tag, none)} + packetTokens ch s) + estabTokens ch s +
                  callbackTokens ch s + replyTokens s :=
              add_le_of_parts le_rfl htoken.le
                (hset.trans (Multiset.le_add_right _ _)) hle le_rfl le_rfl
            _ = (tag, none) ::ₘ tokens ch s := by
              rw [tokens, hloop, ← Multiset.singleton_add]
              abel
      | connectCall addr =>
          have howner : ∀ ref, d.socketOf ch = some ref → waitsForEstab d ch ref = true →
              s.daemon.socketOf ch = some ref := by
            intro ref howner hwaits
            exact (waitsForEstab_of_effects hconn hown heffects howner hwaits).elim And.left
              (·.2.2.2)
          have hset := awaited_setTag_le howner s.connTag tag none
          have hle := hpacket fun h => nomatch h.1
          refine hmatched.move ?_
          calc
            _ ≤ requestTokens s + 0 + packetTokens ch s + ({(tag, none)} + estabTokens ch s) +
                  callbackTokens ch s + replyTokens s :=
              add_le_of_parts le_rfl htoken.le hle
                (hset.trans (Multiset.le_add_right _ _)) le_rfl le_rfl
            _ = (tag, none) ::ₘ tokens ch s := by
              rw [tokens, hloop, ← Multiset.singleton_add]
              abel
      | _ =>
          have hle := hpacket fun h => nomatch h.1
          have hle' := hestab fun h => nomatch h.1
          refine hmatched.move ?_
          calc
            _ ≤ requestTokens s + 0 + packetTokens ch s + estabTokens ch s + callbackTokens ch s +
                  replyTokens s :=
              add_le_of_parts le_rfl htoken.le hle hle' le_rfl le_rfl
            _ = tokens ch s := by
              rw [tokens, hloop]
            _ ≤ (tag, none) ::ₘ tokens ch s := Multiset.le_cons_self _ _
    · rename_i hfinal
      rw [generate, if_pos rfl]
      refine hmatched.answer rfl ?_
      calc
        _ ≤ requestTokens s + {(tag, some resp)} + packetTokens ch s + estabTokens ch s +
              callbackTokens ch s + replyTokens s :=
          add_le_of_parts le_rfl (finalToken_self hfinal ch tag).le (hpacket fun h => hfinal h.2)
            (hestab fun h => hfinal h.2) le_rfl le_rfl
        _ = (tag, some resp) ::ₘ tokens ch s := by
          rw [tokens, hloop, ← Multiset.singleton_add]
          abel

theorem matched_handle_other (hsound : Sound s) (hidle : s.loop = .idle) {c : Nat} (hne : c ≠ ch)
    (tag : Nat) (hmatched : Matched (ledger ch s)) (mem : Uninit) (req : Request) :
    Matched (ledger ch (handle ch s mem c tag req)) := by
  obtain ⟨hconn, hown, -⟩ := hsound
  unfold handle
  rcases hcall : handleRequest s.daemon mem c req with fault | ⟨d, resp⟩
  · exact hmatched
  · have heffects := handleRequest_effects hconn hcall
    have hloop : loopTokens ch s = 0 := by
      rw [loopTokens, hidle]
    have hpacket :
        awaited (d.socketOf ch) (waitsForPacket d) s.recvTag none ≤ packetTokens ch s := by
      rw [packetTokens, hidle]
      exact packetTokens_of_effects hconn heffects (fun h => hne h.1) s.recvTag none
    have hestab := estabTokens_of_effects hconn hown heffects (fun h => hne h.1) s.connTag none
    have hle : tokens ch { s with daemon := d, loop := .writing c tag resp } ≤ tokens ch s := by
      rw [tokens, tokens, hloop]
      exact add_le_of_parts le_rfl (finalToken_of_ne hne tag resp).le hpacket hestab le_rfl le_rfl
    dsimp only
    split
    · exact hmatched.move hle
    · rw [generate, if_neg hne]
      exact hmatched.move hle

theorem sound_handle (h : Sound s) (mem : Uninit) (c tag : Nat) (req : Request) :
    Sound (handle ch s mem c tag req) := by
  obtain ⟨hconn, hown, hloop⟩ := h
  unfold handle
  rcases hcall : handleRequest s.daemon mem c req with fault | ⟨d, resp⟩
  · exact ⟨hconn, hown, hloop⟩
  · have hconn' := handleRequest_connected hconn hcall
    have hown' := hown.of_effects (handleRequest_effects hconn hcall)
    have hsound :
        Sound { s with daemon := d, loop := .writing c tag resp } := ⟨hconn', hown', trivial⟩
    dsimp only
    split
    · split
      · unfold register
        split
        · exact ⟨hconn', hown', trivial⟩
        · exact ⟨hconn', hown', trivial⟩
        · exact hsound
      · exact hsound
    · unfold generate
      split
      · exact ⟨hconn', hown', trivial⟩
      · exact hsound

theorem returned_handle (s : State) (mem : Uninit) (c tag : Nat) (req : Request) :
    (handle ch s mem c tag req).returned = s.returned := by
  unfold handle
  split
  · rfl
  · dsimp only
    split
    · split
      · unfold register
        split <;> rfl
      · rfl
    · unfold generate
      split <;> rfl

end Handle

section Write

variable {ch : Nat} {s : State}

theorem tokens_of_same {d : Daemon} (hsame : SameSockets s.daemon d) :
    tokens ch { s with daemon := d } = tokens ch s := by
  simp only [tokens, requestTokens, loopTokens, packetTokens, estabTokens, callbackTokens,
    replyTokens,
    hsame.socketOf, hsame.waitsForPacket, hsame.waitsForEstab]

theorem replyTokens_append (s : State) (tag : Nat) (resp : Response) (ch : Nat) :
    replyTokens { s with toClient := s.toClient ++ [(tag, resp)] } =
      replyTokens s + finalToken ch ch tag resp := by
  unfold replyTokens finalToken
  rw [List.filter_append, List.map_append, ← Multiset.coe_add]
  by_cases hfinal : resp.retCode = some .WAIT_NEXT
  · simp [hfinal]
  · simp [hfinal]

/-- A written response leaves at most its token in the pipe of the client. -/
theorem tokens_put_le (s : State) (c tag : Nat) (resp : Response) (fails : Bool) :
    tokens ch (put ch s c tag resp fails) ≤ tokens ch s + finalToken ch c tag resp := by
  unfold put
  split
  · rw [tokens_of_same (sameSockets_unregister s.daemon c)]
    exact Multiset.le_add_right _ _
  · split
    · rename_i hc
      subst hc
      rw [tokens, replyTokens_append s tag resp c, ← add_assoc]
      rfl
    · exact Multiset.le_add_right _ _

theorem ledger_put (s : State) (c tag : Nat) (resp : Response) (fails : Bool) :
    ledger ch (put ch s c tag resp fails) =
      { ledger ch s with tokens := tokens ch (put ch s c tag resp fails) } := by
  unfold put
  split
  · rfl
  · split <;> rfl

theorem sound_put (h : Sound s) (c tag : Nat) (resp : Response) (fails : Bool) :
    Sound (put ch s c tag resp fails) := by
  unfold put
  split
  · have hsame := sameSockets_unregister s.daemon c
    exact ⟨hsame.connected h.connected, .of_sameSockets hsame h.owned, h.loopOwns.of_same hsame⟩
  · split
    · exact ⟨h.connected, h.owned, h.loopOwns⟩
    · exact h

theorem returned_put (s : State) (c tag : Nat) (resp : Response) (fails : Bool) :
    (put ch s c tag resp fails).returned = s.returned := by
  unfold put
  split
  · rfl
  · split <;> rfl

theorem finalToken_le (ch c tag : Nat) (resp : Response) :
    finalToken ch c tag resp ≤ {(tag, some resp)} := by
  unfold finalToken
  split
  · exact le_rfl
  · exact Multiset.zero_le _

theorem invariant_put_of {t : State} (hsound : Sound t)
    (hfinal : ∀ entry ∈ t.returned, entry.2.retCode ≠ some .WAIT_NEXT) {c tag : Nat}
    {resp : Response} (hmatched : ∀ x ≤ tokens ch t + finalToken ch c tag resp,
      Matched { ledger ch t with tokens := x }) (fails : Bool) :
    Invariant ch (put ch t c tag resp fails) := by
  refine ⟨sound_put hsound c tag resp fails, ?_, ?_⟩
  · rw [returned_put]
    exact hfinal
  · rw [ledger_put]
    exact hmatched _ (tokens_put_le t c tag resp fails)

/-- What `put` makes of a state whose tokens, with the one written, are still covered. -/
theorem invariant_put {t : State} (h : Invariant ch s) (hsound : Sound t)
    (hclient : ledger ch t = { ledger ch s with tokens := tokens ch t }) {c tag : Nat}
    {resp : Response} (hle : tokens ch t + finalToken ch c tag resp ≤ tokens ch s) (fails : Bool) :
    Invariant ch (put ch t c tag resp fails) := by
  have hreturned : t.returned = s.returned := congrArg Ledger.returned hclient
  refine invariant_put_of hsound (hreturned ▸ h.final) ?_ fails
  intro x hx
  rw [hclient]
  exact h.matched.move (hx.trans hle)

/-- The same where the response is generated before it is written. -/
theorem invariant_put_answer {t : State} (h : Invariant ch s) (hsound : Sound t) {c tag : Nat}
    {resp : Response} {rest : Multiset (Token Response)}
    (hclient : ledger ch t =
      { ledger ch s with answered := s.generated ++ [(tag, resp)], tokens := tokens ch t })
    (htoken : tokens ch s = (tag, none) ::ₘ rest)
    (hle : tokens ch t + finalToken ch c tag resp ≤ (tag, some resp) ::ₘ rest) (fails : Bool) :
    Invariant ch (put ch t c tag resp fails) := by
  have hreturned : t.returned = s.returned := congrArg Ledger.returned hclient
  refine invariant_put_of hsound (hreturned ▸ h.final) ?_ fails
  intro x hx
  rw [hclient]
  exact h.matched.answer htoken (hx.trans hle)

theorem invariant_abort (h : Invariant ch s) : Invariant ch (abort s) :=
  ⟨⟨h.sound.connected, h.sound.owned, h.sound.loopOwns⟩, h.final, h.matched⟩

theorem invariant_written (h : Invariant ch s) {after : Daemon} (hconn : Connected after)
    (hown : CallbacksOwned after) {c tag : Nat} {resp : Response}
    (hle : tokens ch { s with daemon := after, loop := .idle } + finalToken ch c tag resp ≤
      tokens ch s) (fails : Bool) : Invariant ch (written ch s after c tag resp fails) := by
  unfold written
  rcases hwrite : RequestHandler.write resp with fault | sent
  · exact invariant_abort h
  · obtain ⟨-, rfl⟩ := HandlerAnswers.write_eq_ok_iff.mp hwrite
    have hsound : Sound { s with daemon := after, loop := .idle } := ⟨hconn, hown, trivial⟩
    exact invariant_put h hsound rfl hle fails

/-- The token of a handler's response goes into the pipe. -/
theorem invariant_write_handled (h : Invariant ch s) {c tag : Nat} {resp : Response}
    (hloop : s.loop = .writing c tag resp) (fails : Bool) :
    Invariant ch (written ch s s.daemon c tag resp fails) := by
  apply invariant_written h h.sound.connected h.sound.owned
  have htokens : loopTokens ch s = finalToken ch c tag resp := by
    rw [loopTokens, hloop]
  have hpacket : packetTokens ch s = packetTokens ch { s with loop := .idle } := by
    rw [packetTokens, hloop]
    rfl
  calc
    _ = requestTokens s + 0 + packetTokens ch s + estabTokens ch s + callbackTokens ch s +
          replyTokens s + finalToken ch c tag resp := by
      rw [hpacket]
      rfl
    _ = tokens ch s := by
      rw [tokens, htokens]
      abel
    _ ≤ tokens ch s := le_rfl

theorem waiting_of_waitsForPacket {d : Daemon} {ref : SocketRef} (h : waitsForPacket d ref = true) :
    ∃ so, d.socketAt ref = some so ∧ so.waiting = true := by
  simpa [waitsForPacket, Option.any_eq_true] using h

/-- The token of a socket that waited goes into the pipe. -/
theorem invariant_write_replied (h : Invariant ch s) {c : Nat} {ref : SocketRef} {resp : Response}
    (hloop : s.loop = .replying c ref resp) (fails : Bool) :
    Invariant ch (written ch s (stopWaiting s.daemon ref) c (s.recvTag ref) resp fails) := by
  obtain ⟨hconn, hown, hloopOwns⟩ := h.sound
  rw [hloop] at hloopOwns
  obtain ⟨howner, hwaits⟩ := hloopOwns
  obtain ⟨so, hso, -⟩ := waiting_of_waitsForPacket hwaits
  have hafter : stopWaiting s.daemon ref = s.daemon.setSocketAt ref (so.setWaiting false) := by
    rw [stopWaiting, hso]
  have hconn' : Connected (s.daemon.setSocketAt ref (so.setWaiting false)) :=
    hconn.keeps (keeps_setSocketAt hso rfl)
  have hown' : CallbacksOwned (s.daemon.setSocketAt ref (so.setWaiting false)) :=
    hown.setSocketAt hso rfl
  rw [hafter]
  apply invariant_written h hconn' hown'
  have hpacket : awaited ((s.daemon.setSocketAt ref (so.setWaiting false)).socketOf ch)
      (waitsForPacket (s.daemon.setSocketAt ref (so.setWaiting false))) s.recvTag none +
        finalToken ch c (s.recvTag ref) resp ≤ packetTokens ch s := by
    rw [packetTokens, hloop, socketOf_setSocketAt]
    rcases eq_or_ne c ch with rfl | hne
    · have hstopped :
          waitsForPacket (s.daemon.setSocketAt ref (so.setWaiting false)) ref = false := by
        rw [waitsForPacket, socketAt_setSocketAt hso]
        rfl
      rw [awaited_of_waits howner hwaits, reply, if_pos rfl]
      simp only [awaited, howner, hstopped, Bool.false_eq_true, if_false, zero_add]
      exact finalToken_le c c (s.recvTag ref) resp
    · rw [finalToken_of_ne hne, add_zero, reply, if_neg hne]
      apply awaited_le
      intro ref' howner' hwaits'
      exact ⟨howner', waitsForPacket_setSocketAt hso
        (fun hstopped => absurd hstopped Bool.false_ne_true)
        hwaits', rfl⟩
  have hestab := estabTokens_setSocketAt ch s ref (so.setWaiting false)
  have hidle : loopTokens ch s = 0 := by
    rw [loopTokens, hloop]
  calc
    _ = requestTokens s + 0 +
          (awaited ((s.daemon.setSocketAt ref (so.setWaiting false)).socketOf ch)
            (waitsForPacket (s.daemon.setSocketAt ref (so.setWaiting false))) s.recvTag none +
          finalToken ch c (s.recvTag ref) resp) + estabTokens ch s + callbackTokens ch s +
            replyTokens s := by
      rw [← hestab]
      exact add_part_comm _ _ _ _ _ _ _
    _ ≤ tokens ch s := by
      rw [tokens, hidle]
      exact add_le_of_parts le_rfl le_rfl hpacket le_rfl le_rfl le_rfl

end Write

section Callback

variable {ch : Nat} {s : State}

theorem tokens_setSocketAt_le {ref : SocketRef} {so so' : Socket}
    (hso : s.daemon.socketAt ref = some so) (hwaiting : so'.waiting = true → so.waiting = true)
    {loop : Loop} (hloop : loopTokens ch { s with loop := loop } = loopTokens ch s)
    (hreply : reply ch loop = reply ch s.loop) :
    tokens ch { s with daemon := s.daemon.setSocketAt ref so', loop := loop } ≤ tokens ch s := by
  have hpacket : awaited ((s.daemon.setSocketAt ref so').socketOf ch)
      (waitsForPacket (s.daemon.setSocketAt ref so')) s.recvTag (reply ch loop) ≤
        packetTokens ch s := by
    rw [hreply, packetTokens]
    apply awaited_le
    intro ref' howner hwaits
    rw [socketOf_setSocketAt] at howner
    exact ⟨howner, waitsForPacket_setSocketAt hso hwaiting hwaits, rfl⟩
  have hestab := estabTokens_setSocketAt ch s ref so'
  exact add_le_of_parts le_rfl hloop.le hpacket hestab.le le_rfl le_rfl

theorem waitsForPacket_self {d : Daemon} {ref : SocketRef} {so so' : Socket}
    (hso : d.socketAt ref = some so) (hwaiting : so'.waiting = true) :
    waitsForPacket (d.setSocketAt ref so') ref = true := by
  rw [waitsForPacket, socketAt_setSocketAt hso]
  exact hwaiting

theorem invariant_setSocketAt (h : Invariant ch s) {ref : SocketRef} {so so' : Socket}
    (hso : s.daemon.socketAt ref = some so) (htype : so'.type = so.type)
    (hcb : so'.onAsyncNewPacket = so.onAsyncNewPacket)
    (hwaiting : so'.waiting = true → so.waiting = true) {loop : Loop}
    (hloopOwns : LoopOwns (s.daemon.setSocketAt ref so') loop)
    (hloop : loopTokens ch { s with loop := loop } = loopTokens ch s)
    (hreply : reply ch loop = reply ch s.loop) :
    Invariant ch { s with daemon := s.daemon.setSocketAt ref so', loop := loop } := by
  have hsound : Sound { s with daemon := s.daemon.setSocketAt ref so', loop := loop } :=
    ⟨h.sound.connected.keeps (keeps_setSocketAt hso htype), h.sound.owned.setSocketAt hso hcb,
      hloopOwns⟩
  have hle := tokens_setSocketAt_le hso hwaiting hloop hreply
  exact ⟨hsound, h.final, h.matched.move hle⟩

theorem invariant_readNotifyPipe (h : Invariant ch s) (hidle : s.loop = .idle) {ref : SocketRef}
    {so : Socket} (hso : s.daemon.socketAt ref = some so) :
    Invariant ch (readNotifyPipe s ref so) := by
  have hset : ∀ so' : Socket, so'.type = so.type → so'.onAsyncNewPacket = so.onAsyncNewPacket →
      (so'.waiting = true → so.waiting = true) →
        Invariant ch { s with daemon := s.daemon.setSocketAt ref so' } := by
    intro so' htype hcb hwaiting
    have hloopOwns : LoopOwns (s.daemon.setSocketAt ref so') s.loop := by
      rw [hidle]
      exact trivial
    exact invariant_setSocketAt h hso htype hcb hwaiting hloopOwns rfl rfl
  unfold readNotifyPipe
  dsimp only
  split
  · rename_i hwaiting
    split
    · exact hset (so.drainNotifyPipe.setWaiting false) rfl rfl fun hstopped =>
        absurd hstopped Bool.false_ne_true
    · rename_i cb hcb
      have hpacket : (s.daemon.socketAt ref).bind Socket.onAsyncNewPacket = some cb := by
        rw [hso]
        exact hcb
      have hloopOwns : LoopOwns (s.daemon.setSocketAt ref so.drainNotifyPipe) (.dequeuing ref cb) :=
        ⟨(socketOf_setSocketAt _ _ _ _).trans (h.sound.owned.packet ref cb hpacket),
          waitsForPacket_self hso hwaiting⟩
      have htype : so.drainNotifyPipe.type = so.type := rfl
      refine invariant_setSocketAt h hso htype rfl (fun hkept => hkept) hloopOwns ?_ ?_
      · rw [loopTokens, loopTokens, hidle]
      · rw [hidle]
        rfl
  · exact hset so.drainNotifyPipe rfl rfl fun hkept => hkept

theorem invariant_dequeued (h : Invariant ch s) {ref : SocketRef} {cb : OnAsyncNewPacket}
    (hloop : s.loop = .dequeuing ref cb) {so so' : Socket} (hso : s.daemon.socketAt ref = some so)
    {entry : SockaddrIn × List SocketBuffer} (htake : so.tryTakeFromRecvQ = some (entry, so')) :
    Invariant ch (dequeued ch s ref cb entry so') := by
  obtain ⟨hconn, hown, hloopOwns⟩ := h.sound
  rw [hloop] at hloopOwns
  obtain ⟨howner, hwaits⟩ := hloopOwns
  obtain ⟨htype, hcb, hwaiting⟩ := tryTakeFromRecvQ_fields htake
  have hwaiting' : so'.waiting = true := by
    rw [hwaiting]
    simpa [waitsForPacket, hso] using hwaits
  unfold dequeued
  rcases packetResponse cb.requireAddr entry with fault | resp
  · exact invariant_abort h
  · have hsound : Sound { s with
        daemon := s.daemon.setSocketAt ref so'
        loop := .replying cb.rrChannel ref resp } :=
      ⟨hconn.keeps (keeps_setSocketAt hso htype), hown.setSocketAt hso hcb,
        (socketOf_setSocketAt _ _ _ _).trans howner, waitsForPacket_self hso hwaiting'⟩
    have hquiet : loopTokens ch s = 0 := by
      rw [loopTokens, hloop]
    dsimp only
    rcases eq_or_ne cb.rrChannel ch with hc | hne
    · rw [generate, if_pos hc]
      refine ⟨⟨hsound.connected, hsound.owned, hsound.loopOwns⟩, h.final, ?_⟩
      have hpacket : packetTokens ch s = {(s.recvTag ref, none)} := by
        rw [packetTokens, hloop]
        exact awaited_of_waits (hc ▸ howner) hwaits s.recvTag none
      have hafter : awaited ((s.daemon.setSocketAt ref so').socketOf ch)
          (waitsForPacket (s.daemon.setSocketAt ref so')) s.recvTag
            (reply ch (.replying cb.rrChannel ref resp)) = {(s.recvTag ref, some resp)} := by
        rw [socketOf_setSocketAt, reply, if_pos hc]
        exact awaited_of_waits (hc ▸ howner) (waitsForPacket_self hso hwaiting') s.recvTag
          (some resp)
      have hestab := estabTokens_setSocketAt ch s ref so'
      have htoken : tokens ch s = (s.recvTag ref, none) ::ₘ (requestTokens s + estabTokens ch s +
          callbackTokens ch s + replyTokens s) := by
        rw [tokens, hquiet, hpacket, ← Multiset.singleton_add]
        abel
      refine h.matched.answer htoken ?_
      calc
        _ ≤ requestTokens s + 0 + {(s.recvTag ref, some resp)} + estabTokens ch s +
              callbackTokens ch s + replyTokens s :=
          add_le_of_parts le_rfl le_rfl hafter.le hestab.le le_rfl le_rfl
        _ = _ := by
          rw [← Multiset.singleton_add]
          abel
    · rw [generate, if_neg hne]
      refine invariant_setSocketAt h hso htype hcb (fun hkept => hwaiting ▸ hkept) hsound.loopOwns
        ?_ ?_
      · rw [hquiet]
        rfl
      · rw [hloop, reply, if_neg hne]
        rfl

end Callback

section IpThread

variable {ch : Nat} {s : State}

/-- A packet that establishes a connection takes its token to the callback. -/
theorem estabTokens_rx (hown : CallbacksOwned s.daemon) (hnone : s.estabCBs = []) {d : Daemon}
    {events : List Event} (heffects : RxEffects s.daemon d events) :
    awaited (d.socketOf ch) (waitsForEstab d ch) s.connTag none +
        callbackTokens ch
          { s with estabCBs := (estabs events).map fun c => (c, estabTag s events) } ≤
      estabTokens ch s + callbackTokens ch s := by
  have hkept : awaited (d.socketOf ch) (waitsForEstab d ch) s.connTag none ≤ estabTokens ch s := by
    apply awaited_le
    intro ref howner hwaits
    rw [socketOf_of_rxEffects heffects] at howner
    exact ⟨howner, waitsForEstab_of_rxEffects heffects hwaits, rfl⟩
  rcases hestabs : estabs events with _ | ⟨c, others⟩
  · rw [callbackTokens, callbackTokens, hnone]
    exact add_le_add hkept le_rfl
  · have hmem : c ∈ estabs events := hestabs ▸ List.mem_cons_self
    obtain ⟨honly, i, pcb, pcb', hreceivers, hpcb, hsynSent, hcb, hpcb', hestablished⟩ :=
      heffects.establishes c hmem
    obtain ⟨-, rfl⟩ := List.cons.inj (hestabs.symm.trans honly)
    have htag : estabTag s events = s.connTag { type := .TCP, index := i } := by
      rw [estabTag, hreceivers]
    rcases eq_or_ne c ch with rfl | hne
    · have howner : s.daemon.socketOf c = some { type := .TCP, index := i } := by
        apply hown.estab
        rw [hpcb]
        exact hcb
      have hwaits : waitsForEstab s.daemon c { type := .TCP, index := i } = true := by
        simp only [waitsForEstab, hpcb, Option.any_some]
        exact awaitsEstab_eq_true_iff.mpr ⟨hsynSent, hcb⟩
      have hdone : waitsForEstab d c { type := .TCP, index := i } = false := by
        simp [waitsForEstab, hpcb', awaitsEstab, hestablished]
      have hbefore : estabTokens c s = {(s.connTag { type := .TCP, index := i }, none)} :=
        awaited_of_waits howner hwaits s.connTag none
      rw [hbefore, socketOf_of_rxEffects heffects, howner, htag, callbackTokens, callbackTokens,
        hnone]
      simp [awaited, hdone]
    · rw [callbackTokens, callbackTokens, hnone]
      simpa [hne] using hkept

theorem invariant_rx (h : Invariant ch s) (hnone : s.estabCBs = []) (uninit : SockaddrIn)
    (skbuf : SocketBuffer) :
    Invariant ch { s with
      daemon := { s.daemon with stack := (rx s.daemon.stack uninit skbuf).1 }
      estabCBs := (estabs (rx s.daemon.stack uninit skbuf).2).map fun c =>
        (c, estabTag s (rx s.daemon.stack uninit skbuf).2) } := by
  obtain ⟨hconn, hown, hloopOwns⟩ := h.sound
  have heffects := rx_effects s.daemon uninit skbuf
  have hsocketOf := socketOf_of_rxEffects heffects
  have hloopOwns' : LoopOwns { s.daemon with stack := (rx s.daemon.stack uninit skbuf).1 } s.loop :=
    hloopOwns.of_kept hsocketOf (waitsForPacket_of_rxEffects heffects)
  have hestab := @estabTokens_rx ch s hown hnone _ _ heffects
  refine ⟨⟨hconn.keeps (keeps_rx s.daemon uninit skbuf), hown.of_rxEffects heffects, hloopOwns'⟩,
    h.final, h.matched.move ?_⟩
  generalize rx s.daemon.stack uninit skbuf = result at heffects hsocketOf hestab
  have hpacket : awaited (Daemon.socketOf { s.daemon with stack := result.1 } ch)
      (waitsForPacket { s.daemon with stack := result.1 }) s.recvTag (reply ch s.loop) ≤
        packetTokens ch s := by
    apply awaited_le
    intro ref howner hwaits
    rw [hsocketOf] at howner
    exact ⟨howner, (waitsForPacket_of_rxEffects heffects ref).symm.trans hwaits, rfl⟩
  calc
    _ ≤ requestTokens s + loopTokens ch s + packetTokens ch s +
          (estabTokens ch s + callbackTokens ch s) + replyTokens s := by
      rw [tokens, add_assoc _ (estabTokens ch _)]
      exact add_le_add (add_le_add (add_le_add le_rfl hpacket) hestab) le_rfl
    _ = tokens ch s := by
      rw [tokens]
      abel

theorem invariant_connEstab {c tag : Nat} {rest : List (Nat × Nat)} (h : Invariant ch s)
    (hhead : s.estabCBs = (c, tag) :: rest) (fails : Bool) :
    Invariant ch (connEstab ch { s with estabCBs := rest } c tag fails) := by
  obtain ⟨hconn, hown, hloopOwns⟩ := h.sound
  have hsound : Sound { s with estabCBs := rest } := ⟨hconn, hown, hloopOwns⟩
  have hle : tokens ch { s with estabCBs := rest } ≤ tokens ch s := by
    refine add_le_of_parts le_rfl le_rfl le_rfl le_rfl ?_ le_rfl
    rw [callbackTokens, callbackTokens, hhead, List.filter_cons]
    split
    · exact Multiset.le_cons_self _ _
    · exact le_rfl
  have hdone : Invariant ch { s with estabCBs := rest } :=
    ⟨hsound, h.final, h.matched.move hle⟩
  unfold connEstab
  split
  · exact hdone
  · rcases hwrite : RequestHandler.write connEstabResponse with fault | resp
    · exact invariant_abort hdone
    · dsimp only
      rcases eq_or_ne c ch with rfl | hne
      · have htoken : tokens c s = (tag, none) ::ₘ tokens c { s with estabCBs := rest } := by
          have hcallback : callbackTokens c s =
              (tag, none) ::ₘ callbackTokens c { s with estabCBs := rest } := by
            rw [callbackTokens, callbackTokens, hhead, List.filter_cons, if_pos (by simp)]
            rfl
          rw [tokens, hcallback, ← Multiset.singleton_add, ← Multiset.singleton_add]
          exact callback_part_comm _ _ _ _ _ _ _
        rw [generate, if_pos rfl]
        have hsound' : Sound { s with
            estabCBs := rest
            generated := s.generated ++ [(tag, resp)] } := ⟨hconn, hown, hloopOwns⟩
        refine invariant_put_answer h hsound' rfl htoken ?_ fails
        rw [← Multiset.singleton_add, add_comm]
        exact add_le_add (finalToken_le c c tag resp) le_rfl
      · rw [generate, if_neg hne]
        refine invariant_put h hsound rfl ?_ fails
        rw [finalToken_of_ne hne, add_zero]
        exact hle

end IpThread

section Steps

variable {ch : Nat} {s t : State}

theorem invariant_channelSend (h : Invariant ch s) (hidle : s.waiting = false) (req : Request) :
    Invariant ch { s with
      toDaemon := s.toDaemon ++ [(s.sent, req)]
      sent := s.sent + 1
      waiting := true } := by
  refine ⟨⟨h.sound.connected, h.sound.owned, h.sound.loopOwns⟩, h.final, ?_⟩
  refine h.matched.ask hidle (le_of_eq ?_)
  have hrequest : requestTokens { s with toDaemon := s.toDaemon ++ [(s.sent, req)] } =
      requestTokens s + {(s.sent, none)} := by
    rw [requestTokens, requestTokens, List.map_append, ← Multiset.coe_add]
    rfl
  change requestTokens { s with toDaemon := s.toDaemon ++ [(s.sent, req)] } + _ + _ + _ + _ + _ =
    (s.sent, none) ::ₘ tokens ch s
  rw [hrequest, tokens, ← Multiset.singleton_add]
  exact request_part_comm _ _ _ _ _ _ _

theorem invariant_channelRecv (h : Invariant ch s) (hnext : channelRecv s = some t) :
    Invariant ch t := by
  unfold channelRecv at hnext
  split at hnext
  · cases hnext
  · rename_i tag resp rest hhead
    have hsound : Sound { s with toClient := rest } :=
      ⟨h.sound.connected, h.sound.owned, h.sound.loopOwns⟩
    split at hnext
    · rename_i hwaitNext
      cases hnext
      have hreplies : replyTokens { s with toClient := rest } = replyTokens s := by
        rw [replyTokens, replyTokens, hhead, List.filter_cons, if_neg (by simp [hwaitNext])]
      refine ⟨hsound, h.final, h.matched.move ?_⟩
      exact add_le_of_parts le_rfl le_rfl le_rfl le_rfl le_rfl hreplies.le
    · rename_i hfinal
      cases hnext
      have hreplies :
          replyTokens s = (tag, some resp) ::ₘ replyTokens { s with toClient := rest } := by
        rw [replyTokens, replyTokens, hhead, List.filter_cons, if_pos (by simp [hfinal])]
        rfl
      have htoken : tokens ch s = (tag, some resp) ::ₘ tokens ch { s with toClient := rest } := by
        rw [tokens, hreplies, Multiset.add_cons]
        rfl
      refine ⟨⟨hsound.connected, hsound.owned, hsound.loopOwns⟩, ?_, ?_⟩
      · intro entry hentry
        rcases List.mem_append.mp hentry with hentry | hentry
        · exact h.final entry hentry
        · obtain rfl := List.mem_singleton.mp hentry
          exact hfinal
      · exact h.matched.return htoken le_rfl

theorem invariant_accept (h : Invariant ch s) :
    Invariant ch { s with daemon := accept s.daemon } := by
  have hsame := sameSockets_accept s.daemon
  refine ⟨⟨hsame.connected h.sound.connected, .of_sameSockets hsame h.sound.owned,
    h.sound.loopOwns.of_same hsame⟩, h.final, ?_⟩
  exact h.matched.move (tokens_of_same hsame).le

theorem invariant_hangUp (h : Invariant ch s) (hidle : s.loop = .idle) (c : Nat) :
    Invariant ch { s with daemon := s.daemon.removeRRChannel c } := by
  obtain ⟨hconn, hown, -⟩ := h.sound
  have heffects := removeRRChannel_effects s.daemon c .closeCall connEstabResponse
  have hloopOwns : LoopOwns (s.daemon.removeRRChannel c) s.loop := by
    rw [hidle]
    exact trivial
  refine ⟨⟨hconn.removeRRChannel c, hown.of_effects heffects, hloopOwns⟩, h.final,
    h.matched.move ?_⟩
  refine add_le_of_parts le_rfl le_rfl ?_ ?_ le_rfl le_rfl
  · exact packetTokens_of_effects hconn heffects (fun h => nomatch h.2.2) s.recvTag _
  · exact estabTokens_of_effects hconn hown heffects (fun h => nomatch h.2.2) s.connTag none

theorem invariant_handle (h : Invariant ch s) (hidle : s.loop = .idle) {tag : Nat} {req : Request}
    {rest : List (Nat × Request)} (hhead : s.toDaemon = (tag, req) :: rest) (mem : Uninit) :
    Invariant ch (handle ch { s with toDaemon := rest } mem ch tag req) := by
  have hsound : Sound { s with toDaemon := rest } :=
    ⟨h.sound.connected, h.sound.owned, h.sound.loopOwns⟩
  have hrequest : requestTokens s = (tag, none) ::ₘ requestTokens { s with toDaemon := rest } := by
    rw [requestTokens, hhead]
    rfl
  have htoken : tokens ch s = (tag, none) ::ₘ tokens ch { s with toDaemon := rest } := by
    rw [tokens, hrequest]
    simp only [Multiset.cons_add]
    rfl
  refine ⟨sound_handle hsound mem ch tag req, ?_, ?_⟩
  · rw [returned_handle]
    exact h.final
  · have hmoved := h.matched.move htoken.ge
    exact matched_handle hsound hidle hmoved mem req

theorem invariant_loopNext (h : Invariant ch s) (hidle : s.loop = .idle) {a : Label}
    (hnext : loopNext ch s a = some t) : Invariant ch t := by
  cases a with
  | accept =>
      cases hnext
      exact invariant_accept h
  | hangUp c =>
      simp only [loopNext] at hnext
      split at hnext
      · cases hnext
        exact invariant_hangUp h hidle c
      · cases hnext
  | readError =>
      cases hnext
      exact invariant_abort h
  | request mem =>
      simp only [loopNext] at hnext
      split at hnext
      · cases hnext
      · rename_i tag req rest hhead
        split at hnext
        · cases hnext
          exact invariant_handle h hidle hhead mem
        · cases hnext
  | otherRequest mem c req =>
      simp only [loopNext] at hnext
      split at hnext
      · rename_i hother
        cases hnext
        refine ⟨sound_handle h.sound mem c 0 req, ?_, ?_⟩
        · rw [returned_handle]
          exact h.final
        · exact matched_handle_other h.sound hidle hother.1 0 h.matched mem req
      · cases hnext
  | notified ref =>
      obtain ⟨so, hso, rfl⟩ := Option.map_eq_some_iff.mp hnext
      exact invariant_readNotifyPipe h hidle hso
  | _ => cases hnext

theorem invariant_daemonNext (h : Invariant ch s) {a : Label} (hnext : daemonNext ch s a = some t) :
    Invariant ch t := by
  unfold daemonNext at hnext
  split at hnext
  · rename_i uninit skbuf
    split at hnext
    · rename_i hnone
      cases hnext
      exact invariant_rx h hnone uninit skbuf
    · cases hnext
  · rename_i fails
    split at hnext
    · cases hnext
    · rename_i c tag rest hhead
      cases hnext
      exact invariant_connEstab h hhead fails
  · split at hnext
    · rename_i hidle _ _
      exact invariant_loopNext h hidle hnext
    · rename_i c tag resp fails hloop _ _
      cases hnext
      exact invariant_write_handled h hloop fails
    · rename_i ref cb hloop _ _
      obtain ⟨so, hso, hnext⟩ := Option.bind_eq_some_iff.mp hnext
      obtain ⟨⟨entry, so'⟩, htake, hnext⟩ := Option.bind_eq_some_iff.mp hnext
      cases hnext
      exact invariant_dequeued h hloop hso htake
    · rename_i c ref resp fails hloop _ _
      cases hnext
      exact invariant_write_replied h hloop fails
    · cases hnext

theorem invariant_next (h : Invariant ch s) {a : Label} (hnext : next ch s a = some t) :
    Invariant ch t := by
  unfold next at hnext
  split at hnext
  · rename_i req
    split at hnext
    · cases hnext
    · rename_i hidle
      cases hnext
      exact invariant_channelSend h (Bool.eq_false_iff.mpr hidle) req
  · split at hnext
    · exact invariant_channelRecv h hnext
    · cases hnext
  · split at hnext
    · cases hnext
    · exact invariant_daemonNext h hnext

theorem invariant_initial (h : (machine ch).initial s) : Invariant ch s := by
  obtain ⟨hrrChannels, hudp, htcp, hloop, hestabCBs, htoDaemon, htoClient, hsent, hwaiting,
    hreturned,
    hgenerated⟩ := h
  have hnone : ∀ c, s.daemon.socketOf c = none := by
    intro c
    simp [Daemon.socketOf, Daemon.rrChannel, hrrChannels]
  have htcpSlot : ∀ i, s.daemon.tcpSlot i = .expired := by
    intro i
    simp [Daemon.tcpSlot, htcp]
  have hsocketAt : ∀ ref, s.daemon.socketAt ref = none := by
    rintro ⟨_ | _, index⟩
    · simp [Daemon.socketAt, Daemon.udpSlot, hudp, Slot.expired]
    · simp [Daemon.socketAt, htcpSlot, Slot.expired]
  refine ⟨⟨connected (.initial ⟨s.daemon, rfl, hrrChannels⟩) s.daemon rfl, ⟨?_, ?_, ?_⟩, ?_⟩, ?_,
    ?_⟩
  · intro ref cb hcb
    rw [hsocketAt] at hcb
    cases hcb
  · intro i c hcb
    rw [htcpSlot] at hcb
    cases hcb
  · intro i pcb hpcb
    rw [htcpSlot] at hpcb
    cases hpcb
  · rw [hloop]
    exact trivial
  · intro entry hentry
    rw [hreturned] at hentry
    cases hentry
  · apply matched_of_nothing_asked hsent hwaiting hgenerated hreturned
    change tokens ch s = 0
    simp [tokens, requestTokens, loopTokens, packetTokens, estabTokens, callbackTokens, replyTokens,
      awaited, hnone, hloop, hestabCBs, htoDaemon, htoClient]

theorem invariant (h : (machine ch).Reachable s) : Invariant ch s := by
  refine h.invariant (fun _ => invariant_initial) ?_
  rintro s a t hs - hnext
  exact invariant_next hs hnext

end Steps

/-- While the client waits for nothing, what is left in its channel says `WAIT_NEXT`. -/
theorem stale_of_idle {ch : Nat} {s : State} (h : (machine ch).Reachable s)
    (hidle : s.waiting = false) :
    ∀ entry ∈ s.toClient, entry.2.retCode = some .WAIT_NEXT := by
  have htokens : tokens ch s = 0 := by
    cases (invariant h).matched.phase with
    | idle _ _ htokens => exact htokens
    | asked hwaiting => exact nomatch hidle.symm.trans hwaiting
    | answered _ hwaiting => exact nomatch hidle.symm.trans hwaiting
  have hreplies : replyTokens s = 0 :=
    Multiset.le_zero.mp (htokens ▸ Multiset.le_add_left _ _)
  intro entry hentry
  by_contra hfinal
  have hmem : (entry.1, some entry.2) ∈ replyTokens s :=
    List.mem_map.mpr ⟨entry, List.mem_filter.mpr ⟨hentry, by simpa using hfinal⟩, rfl⟩
  rw [hreplies] at hmem
  cases hmem

/-- The response that the n-th `channel_recv` returns is final, and the only one that
was generated for the n-th request. -/
theorem replies_matched {ch : Nat} {s : State} (h : (machine ch).Reachable s) {n tag : Nat}
    {resp : Response} (hreturned : s.returned[n]? = some (tag, resp)) :
    tag = n ∧ resp.retCode ≠ some .WAIT_NEXT ∧
      (s.generated.filter fun entry => entry.1 = n) = [(n, resp)] := by
  have hinv := invariant h
  obtain ⟨htag, honly⟩ := hinv.matched.returned_spec hreturned
  obtain rfl : tag = n := htag
  exact ⟨rfl, hinv.final (tag, resp) (List.mem_of_getElem? hreturned), honly⟩

def sampleInitial : State :=
  { daemon := sampleDaemon
    aborted := false
    loop := .idle
    estabCBs := []
    toDaemon := []
    toClient := []
    sent := 0
    waiting := false
    returned := []
    generated := []
    recvTag := fun _ => 0
    connTag := fun _ => 0 }

/-- The IP thread answers a `connect` before the loop announces the answer, and the
client finds the announcement when it waits for the name of its peer. -/
def sampleRun : List Label :=
  [.accept,
    .channelSend { calling := .socketCall 2 1 0, pid := 7 }, .request sampleUninit, .write false,
    .channelRecv,
    .channelSend { calling := .connectCall sampleAddr, pid := 7 }, .request sampleUninit,
    .rx .zero sampleSynAck, .onConnEstab false, .channelRecv, .write false,
    .channelSend { calling := .getpeernameCall, pid := 7 }, .request sampleUninit, .write false,
    .channelRecv, .channelRecv]

theorem replies_matched_sample :
    ∃ s, (machine 0).exec sampleInitial sampleRun = some s ∧
      (s.generated.filter fun entry => entry.1 = 1) = [(1, connEstabResponse)] ∧
      (s.generated.filter fun entry => entry.1 = 2) =
        [(2, retOk (.getpeernameCall 0 none (some sampleAddr)))] := by
  obtain ⟨s, hexec, hconnect, hgetpeername⟩ :
    ∃ s, (machine 0).exec sampleInitial sampleRun = some s ∧
      s.returned[1]? = some (1, connEstabResponse) ∧
      s.returned[2]? = some (2, retOk (.getpeernameCall 0 none (some sampleAddr))) :=
    ⟨_, rfl, rfl, rfl⟩
  have hreachable : (machine 0).Reachable s :=
    Machine.reachable_of_exec
      (.initial ⟨rfl, rfl, rfl, rfl, rfl, rfl, rfl, rfl, rfl, rfl, rfl⟩) hexec
  exact ⟨s, hexec, (replies_matched hreachable hconnect).2.2,
    (replies_matched hreachable hgetpeername).2.2⟩

end MuQuinet.ReplyMatching
