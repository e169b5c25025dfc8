import MuQuinet.ReceiveBound

namespace MuQuinet.DeferredReceives

open MuQuinet.Lib.Outcomes
open MuQuinet.Buffers
open MuQuinet.HandlerAnswers
open MuQuinet.ReceiveBound hiding recvfrom
open MuQuinet.RequestHandler
open MuQuinet.Rpc
open MuQuinet.Sockets

/-- The reply to a `recvfrom` that finds `entry` at the head of the queue. -/
def immediate (so : Socket) (ch : Nat) (requireAddr : Bool) (entry : Packet)
    (rest : List Packet) : Except Fault Response := do
  let (_, resp) ← recvfrom { so with recvQ := entry :: rest } ch requireAddr
  write resp

/-- The reply that the callback writes when the queue was empty at the `recvfrom` and
`entry` arrives afterwards. -/
def deferred (so : Socket) (ch : Nat) (requireAddr : Bool) (entry : Packet) :
    Except Fault (Option Response) := do
  let (waiting, _) ← recvfrom { so with recvQ := [] } ch requireAddr
  let (_, resp) ← sChannelReadCb (waiting.putToRecvQ entry.1 entry.2)
  return resp

/-- Both ways give the same reply, if any. -/
def Agree (so : Socket) (ch : Nat) (requireAddr : Bool) (entry : Packet)
    (rest : List Packet) : Prop :=
  ∀ resp, immediate so ch requireAddr entry rest = .ok resp ↔
    deferred so ch requireAddr entry = .ok (some resp)

/-- What all three copies of the code do with a packet. -/
def reply (withAddr : Bool) (entry : Packet) : Except Fault Response := do
  let resp ← packetResponse withAddr entry
  write resp

/-- Whether the callback that `recvfromCall` binds sends the address. -/
def deferredAddr (so : Socket) (requireAddr : Bool) : Bool :=
  match so.type with
  | .UDP => requireAddr
  | .TCP => false

section Replies

variable {so : Socket} {ch : Nat} {requireAddr : Bool} {entry : Packet} {rest : List Packet}

theorem reply_eq_ok_iff {withAddr : Bool} {resp : Response} :
    reply withAddr entry = .ok resp ↔
      packetResponse withAddr entry = .ok resp ∧ Sendable resp := by
  simp only [reply, bind_eq_ok_iff, write_eq_ok_iff]
  constructor
  · rintro ⟨resp', hresp, hsendable, rfl⟩
    exact ⟨hresp, hsendable⟩
  · rintro ⟨hresp, hsendable⟩
    exact ⟨resp, hresp, hsendable, rfl⟩

theorem immediate_eq : immediate so ch requireAddr entry rest = reply requireAddr entry := by
  unfold immediate reply recvfrom Socket.tryTakeFromRecvQ
  dsimp only
  cases packetResponse requireAddr entry <;> rfl

/-- The callback of a waiting socket replies with the head of its queue. -/
theorem sChannelReadCb_reply {cb : OnAsyncNewPacket} (hwaiting : so.waiting = true)
    (hcb : so.onAsyncNewPacket = some cb) (hqueue : so.recvQ = entry :: rest) :
    (sChannelReadCb so).map Prod.snd = (reply cb.requireAddr entry).map some := by
  have hdrained : so.drainNotifyPipe.tryTakeFromRecvQ =
      some (entry, { so.drainNotifyPipe with recvQ := rest }) := by
    simp only [Socket.tryTakeFromRecvQ, Socket.drainNotifyPipe, hqueue]
  have hstays : so.drainNotifyPipe.waiting = true ∧
      so.drainNotifyPipe.onAsyncNewPacket = some cb := ⟨hwaiting, hcb⟩
  simp only [sChannelReadCb, hstays, if_true, onAsyncNewPacket, hdrained, reply]
  cases packetResponse cb.requireAddr entry with
  | error fault => rfl
  | ok resp =>
      simp only [bind, Except.bind]
      cases write resp <;> rfl

theorem deferred_eq (hblocking : so.nonblocking = false) :
    deferred so ch requireAddr entry =
      (reply (deferredAddr so requireAddr) entry).map some := by
  obtain ⟨cb, haddr, hwait⟩ : ∃ cb : OnAsyncNewPacket,
      cb.requireAddr = deferredAddr so requireAddr ∧
        recvfrom { so with recvQ := [] } ch requireAddr =
          .ok ((({ so with recvQ := [] } : Socket).setOnAsyncNewPacketCB cb).setWaiting true,
            { returning := none, retCode := some .WAIT_NEXT }) := by
    unfold recvfrom Socket.tryTakeFromRecvQ deferredAddr
    dsimp only
    rw [hblocking]
    cases so.type
    · exact ⟨.onAsyncNewUdpPacket ch requireAddr, rfl, rfl⟩
    · exact ⟨.onAsyncNewTcpPacket ch, rfl, rfl⟩
  let waiting := (({ so with recvQ := [] } : Socket).setOnAsyncNewPacketCB cb).setWaiting true
  have hroom : waiting.recvQ.length ≤ recvQlimit := Nat.zero_le _
  have hqueue : (waiting.putToRecvQ entry.1 entry.2).recvQ = [entry] :=
    Socket.recvQ_putToRecvQ_of_room hroom entry.1 entry.2
  have hcb : (waiting.putToRecvQ entry.1 entry.2).onAsyncNewPacket = some cb :=
    Socket.onAsyncNewPacket_putToRecvQ _ _ _
  have hreply := sChannelReadCb_reply (Socket.waiting_putToRecvQ _ _ _) hcb hqueue
  rw [← haddr, ← hreply, deferred, hwait]
  simp only [bind, Except.bind, pure, Except.pure]
  generalize sChannelReadCb _ = run
  cases run <;> rfl

theorem reply_ok_iff_replyFits (withAddr : Bool) :
    (∃ resp, reply withAddr entry = .ok resp) ↔ ReplyFits withAddr entry.2 := by
  simp only [reply_eq_ok_iff, packetResponse_sendable_iff]

/-- With and without the address, two replies differ. -/
theorem reply_ne (resp : Response) :
    ¬ (reply true entry = .ok resp ∧ reply false entry = .ok resp) := by
  rintro ⟨hwith, hwithout⟩
  obtain ⟨buf, -, rfl⟩ := packetResponse_eq_ok_iff.mp (reply_eq_ok_iff.mp hwith).1
  obtain ⟨buf', -, hresp⟩ := packetResponse_eq_ok_iff.mp (reply_eq_ok_iff.mp hwithout).1
  simp [retOk] at hresp

/-- A reply that fits with the address fits without. -/
theorem ReplyFits.withoutAddr {chain : List SocketBuffer} (h : ReplyFits true chain) :
    ReplyFits false chain := by
  obtain ⟨buf, hcollect, hfits⟩ := h
  refine ⟨buf, hcollect, le_trans ?_ hfits⟩
  have hmono := varintSize_mono (Nat.le_add_right
    (int32FieldSize (.ofInt buf.length) + (1 + varintSize buf.length + buf.length))
    (2 + sizeofSockaddrIn))
  simp only [recvfromReplySize, if_true, Bool.false_eq_true, if_false, Nat.add_zero]
  omega

/-- The two ways agree, except for a TCP socket that is asked for the address of a
packet which it has a reply for. -/
theorem agree_iff (hblocking : so.nonblocking = false) :
    Agree so ch requireAddr entry rest ↔
      so.type = .UDP ∨ requireAddr = false ∨ ¬ ReplyFits false entry.2 := by
  have hagree : Agree so ch requireAddr entry rest ↔
      ∀ resp, reply requireAddr entry = .ok resp ↔
        reply (deferredAddr so requireAddr) entry = .ok resp := by
    simp only [Agree, immediate_eq, deferred_eq hblocking, map_eq_ok_iff, Option.some.injEq,
      exists_eq_right]
  rw [hagree]
  cases htype : so.type with
  | UDP => simp [deferredAddr, htype]
  | TCP =>
      cases requireAddr with
      | false => simp [deferredAddr, htype]
      | true =>
          simp only [deferredAddr, htype, reduceCtorEq, Bool.true_eq_false, false_or]
          constructor
          · intro hsame hfits
            obtain ⟨resp, hreply⟩ := (reply_ok_iff_replyFits false).mpr hfits
            exact reply_ne resp ⟨(hsame resp).mpr hreply, hreply⟩
          · intro hnone resp
            refine iff_of_false ?_ ?_
            · intro hreply
              have hfits := (reply_ok_iff_replyFits true).mp ⟨resp, hreply⟩
              exact hnone (ReplyFits.withoutAddr hfits)
            · intro hreply
              exact hnone ((reply_ok_iff_replyFits false).mp ⟨resp, hreply⟩)

end Replies

def sampleTcpSocket : Socket := { type := .TCP, nonblocking := false }

theorem sample_agree_iff :
    Agree sampleTcpSocket 0 false samplePacket [] ↔
      sampleTcpSocket.type = .UDP ∨ false = false ∨ ¬ ReplyFits false samplePacket.2 :=
  agree_iff rfl

/-- A TCP socket sends the address with the packet that was there, and without it the
packet that was waited for. -/
theorem tcp_address_depends_on_timing :
    (∃ resp, immediate sampleTcpSocket 0 true samplePacket [] = .ok resp ∧
      resp.returning = some (.recvfromCall 4 none (some [0x64, 0x61, 0x74, 0x61])
        (some (List.replicate 16 0)))) ∧
      (∃ resp, deferred sampleTcpSocket 0 true samplePacket = .ok (some resp) ∧
        resp.returning = some (.recvfromCall 4 none (some [0x64, 0x61, 0x74, 0x61]) none)) ∧
      ¬ Agree sampleTcpSocket 0 true samplePacket [] := by
  refine ⟨⟨_, rfl, rfl⟩, ⟨_, rfl, rfl⟩, ?_⟩
  intro hagree
  have hdeferred := (hagree _).mp rfl
  cases hdeferred

end MuQuinet.DeferredReceives
