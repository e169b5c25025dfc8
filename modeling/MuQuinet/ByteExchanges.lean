import MuQuinet.Lib.Lockstep
import MuQuinet.ReplyMatching
import MuQuinet.RequestCodec
import MuQuinet.ResponseCodec

namespace MuQuinet.ByteExchanges

open MuQuinet.Lib.Encodings
open MuQuinet.Lib.Lockstep
open MuQuinet.Lib.Machines
open MuQuinet.Lib.WireFormat
open MuQuinet.DaemonSurvival (accept polled)
open MuQuinet.HandlerAnswers (Sendable write_eq_ok_iff)
open MuQuinet.ReplyMatching
open MuQuinet.RequestCodec
open MuQuinet.RequestHandler
open MuQuinet.ResponseCodec
open MuQuinet.Rpc
open MuQuinet.Sockets

/-- What the protobuf libraries of the interceptor and of the daemon do, each of which
reads what the other wrote. -/
structure Codec where
  interceptorWriter : Writer
  getPackedSize : Request → Nat
  pack : Request → List UInt8
  packs : Packs interceptorWriter getPackedSize pack
  daemonReader : Reader
  requests : daemonReader.Reads interceptorWriter
  daemonWriter : Writer
  unpack : List UInt8 → Option UnpackedResponse
  unpacks : Unpacks daemonWriter unpack

/-- The daemon and the client with the packets between them. -/
structure Wire where
  parties : State
  toDaemon : List (Nat × List UInt8)
  toClient : List (Nat × List UInt8)
  returned : List (Nat × UnpackedResponse)

/-- The parties with nothing in their queues of messages. -/
def strip (s : State) : State :=
  { s with toDaemon := [], toClient := [], returned := [] }

section Steps

variable (codec : Codec) (ch : Nat)

def packed (entry : Nat × Request) : Nat × List UInt8 :=
  (entry.1, codec.pack entry.2)

def serialized (entry : Nat × Response) : Nat × List UInt8 :=
  (entry.1, ResponseMessage.serializeToArray codec.daemonWriter (messageOf entry.2))

/-- `channel_send`, undefined where the request does not fit its buffer. -/
def channelSend (s : Wire) (req : Request) : Option Wire :=
  if s.parties.waiting then none
  else if rpcMessageMaxSize < codec.getPackedSize req then none
  else
    some { s with
      parties := { s.parties with sent := s.parties.sent + 1, waiting := true }
      toDaemon := s.toDaemon ++ [packed codec (s.parties.sent, req)] }

/-- `channel_recv` up to its next `read`, undefined where `response__unpack` gives null. -/
def channelRecv (s : Wire) : Option Wire :=
  match s.toClient with
  | [] => none
  | (tag, bytes) :: rest =>
      (codec.unpack (bytes.take rpcMessageMaxSize)).map fun resp =>
        if resp.retCode = some (retCodeValue .WAIT_NEXT) then { s with toClient := rest }
        else
          { s with
            parties := { s.parties with waiting := false }
            toClient := rest
            returned := s.returned ++ [(tag, resp)] }

/-- What the parties do, of which each response that is written goes out in a packet. -/
def carry (s : Wire) (parties : Option State) : Option Wire :=
  parties.map fun t =>
    { s with
      parties := strip t
      toClient := s.toClient ++ t.toClient.map (serialized codec) }

/-- A packet of no bytes reads as the end of the file. -/
def onReadReady (s : Wire) (mem : Uninit) : Option Wire :=
  match s.toDaemon with
  | [] => none
  | (tag, bytes) :: rest =>
      let read := { s with toDaemon := rest }
      if bytes = [] then carry codec read (next ch s.parties (.hangUp ch))
      else
        let rdbuf := bytes.take rpcMessageMaxSize
        let req := (RequestMessage.parseFromArray codec.daemonReader rdbuf).1.request
        carry codec read (next ch { s.parties with toDaemon := [(tag, req)] } (.request mem))

def wireNext (s : Wire) : Label → Option Wire
  | .channelSend req => channelSend codec s req
  | .channelRecv => if s.parties.waiting then channelRecv codec s else none
  | .request mem => onReadReady codec ch s mem
  | a => carry codec s (next ch s.parties a)

def wireMachine : Machine Wire Label where
  initial s := (machine ch).initial s.parties ∧ s.toDaemon = [] ∧ s.toClient = [] ∧ s.returned = []
  next := wireNext codec ch

end Steps

/-! What is in the queues has no part in the other steps, which only append to what goes
to the client. -/

/-- The steps that take what is in a queue, and those of the client. -/
def onQueues : Label → Bool
  | .request _ | .channelSend _ | .channelRecv => true
  | _ => false

/-- The state with more in its queues. -/
def load (toDaemon : List (Nat × Request)) (toClient returned : List (Nat × Response))
    (s : State) : State :=
  { s with toDaemon := toDaemon, toClient := toClient ++ s.toClient, returned := returned }

section Load

variable {toDaemon : List (Nat × Request)} {toClient returned : List (Nat × Response)}
  {ch : Nat} {s : State}

theorem put_load (c tag : Nat) (resp : Response) (fails : Bool) :
    put ch (load toDaemon toClient returned s) c tag resp fails =
      load toDaemon toClient returned (put ch s c tag resp fails) := by
  unfold put
  split
  · rfl
  · split
    · simp [load]
    · rfl

theorem generate_load (c tag : Nat) (resp : Response) :
    generate ch (load toDaemon toClient returned s) c tag resp =
      load toDaemon toClient returned (generate ch s c tag resp) := by
  unfold generate
  split <;> rfl

theorem register_load (owner : Option SocketRef) (tag : Nat) (calling : Calling) :
    register (load toDaemon toClient returned s) owner tag calling =
      load toDaemon toClient returned (register s owner tag calling) := by
  cases calling <;> rfl

theorem handle_load (mem : Uninit) (c tag : Nat) (req : Request) :
    handle ch (load toDaemon toClient returned s) mem c tag req =
      load toDaemon toClient returned (handle ch s mem c tag req) := by
  have hdaemon : (load toDaemon toClient returned s).daemon = s.daemon := rfl
  unfold handle
  rw [hdaemon]
  rcases handleRequest s.daemon mem c req with fault | ⟨d, resp⟩
  · rfl
  · dsimp only
    split
    · split
      · exact register_load (s := { s with daemon := d, loop := .writing c tag resp }) _ tag _
      · rfl
    · exact generate_load (s := { s with daemon := d, loop := .writing c tag resp }) c tag resp

theorem readNotifyPipe_load (ref : SocketRef) (so : Socket) :
    readNotifyPipe (load toDaemon toClient returned s) ref so =
      load toDaemon toClient returned (readNotifyPipe s ref so) := by
  unfold readNotifyPipe
  dsimp only
  split
  · split <;> rfl
  · rfl

theorem dequeued_load (ref : SocketRef) (cb : OnAsyncNewPacket)
    (entry : SockaddrIn × List Buffers.SocketBuffer) (so : Socket) :
    dequeued ch (load toDaemon toClient returned s) ref cb entry so =
      load toDaemon toClient returned (dequeued ch s ref cb entry so) := by
  unfold dequeued
  split
  · rfl
  · rename_i resp _
    let taken : State :=
      { s with
        daemon := s.daemon.setSocketAt ref so
        loop := .replying cb.rrChannel ref resp }
    exact generate_load (s := taken) cb.rrChannel (s.recvTag ref) resp

theorem written_load (after : Daemon) (c tag : Nat) (resp : Response) (fails : Bool) :
    written ch (load toDaemon toClient returned s) after c tag resp fails =
      load toDaemon toClient returned (written ch s after c tag resp fails) := by
  unfold written
  split
  · rfl
  · exact put_load (s := { s with daemon := after, loop := .idle }) c tag _ fails

theorem connEstab_load (c tag : Nat) (fails : Bool) :
    connEstab ch (load toDaemon toClient returned s) c tag fails =
      load toDaemon toClient returned (connEstab ch s c tag fails) := by
  unfold connEstab
  change (if (s.daemon.rrChannel c).isNone then _ else _) = _
  split
  · rfl
  · split
    · rfl
    · rw [generate_load]
      exact put_load c tag _ fails

theorem loopNext_load {a : Label} (ha : ∀ mem, a ≠ .request mem) :
    loopNext ch (load toDaemon toClient returned s) a =
      (loopNext ch s a).map (load toDaemon toClient returned) := by
  cases a with
  | request mem => exact absurd rfl (ha mem)
  | hangUp c =>
      change (if polled s.daemon c then _ else _) = _
      simp only [loopNext]
      split <;> rfl
  | otherRequest mem c req =>
      change (if c ≠ ch ∧ polled s.daemon c then
        some (handle ch (load toDaemon toClient returned s) mem c 0 req) else none) = _
      rw [handle_load]
      simp only [loopNext]
      split <;> rfl
  | notified ref =>
      change (s.daemon.socketAt ref).map
        (readNotifyPipe (load toDaemon toClient returned s) ref) = _
      simp only [loopNext]
      rcases s.daemon.socketAt ref with _ | so
      · rfl
      · exact congrArg some (readNotifyPipe_load ref so)
  | _ => rfl

/-- A request is handled the same, whatever else is in the queues. -/
theorem loopNext_request_load (mem : Uninit) (tag : Nat) (req : Request) :
    loopNext ch { load toDaemon toClient returned s with toDaemon := (tag, req) :: toDaemon }
        (.request mem) =
      (loopNext ch { s with toDaemon := [(tag, req)] } (.request mem)).map
        (load toDaemon toClient returned) := by
  change (if polled s.daemon ch then
    some (handle ch (load toDaemon toClient returned { s with toDaemon := [] }) mem ch tag req)
    else none) = _
  rw [handle_load]
  simp only [loopNext]
  split <;> rfl

theorem dequeue_load {ref : SocketRef} {cb : OnAsyncNewPacket}
    (hloop : s.loop = .dequeuing ref cb) :
    daemonNext ch (load toDaemon toClient returned s) .dequeue =
      (daemonNext ch s .dequeue).map (load toDaemon toClient returned) := by
  have hloop' : (load toDaemon toClient returned s).loop = .dequeuing ref cb := hloop
  simp only [daemonNext, hloop, hloop']
  change (s.daemon.socketAt ref).bind _ = ((s.daemon.socketAt ref).bind _).map _
  rcases s.daemon.socketAt ref with _ | so
  · rfl
  · change so.tryTakeFromRecvQ.bind _ = (so.tryTakeFromRecvQ.bind _).map _
    rcases so.tryTakeFromRecvQ with _ | ⟨entry, so⟩
    · rfl
    · exact congrArg some (dequeued_load ref cb entry so)

theorem write_load (fails : Bool) :
    daemonNext ch (load toDaemon toClient returned s) (.write fails) =
      (daemonNext ch s (.write fails)).map (load toDaemon toClient returned) := by
  cases hloop : s.loop with
  | writing c tag resp =>
      have hloop' : (load toDaemon toClient returned s).loop = .writing c tag resp := hloop
      simp only [daemonNext, hloop, hloop']
      exact congrArg some (written_load s.daemon c tag resp fails)
  | replying c ref resp =>
      have hloop' : (load toDaemon toClient returned s).loop = .replying c ref resp := hloop
      simp only [daemonNext, hloop, hloop']
      exact congrArg some (written_load _ c (s.recvTag ref) resp fails)
  | idle =>
      have hloop' : (load toDaemon toClient returned s).loop = .idle := hloop
      simp [daemonNext, hloop, hloop', loopNext]
  | dequeuing ref cb =>
      have hloop' : (load toDaemon toClient returned s).loop = .dequeuing ref cb := hloop
      simp [daemonNext, hloop, hloop']

theorem daemonNext_load {a : Label} (ha : ∀ mem, a ≠ .request mem) :
    daemonNext ch (load toDaemon toClient returned s) a =
      (daemonNext ch s a).map (load toDaemon toClient returned) := by
  cases a with
  | rx uninit skbuf =>
      change (if s.estabCBs = [] then _ else _) = _
      simp only [daemonNext]
      split <;> rfl
  | onConnEstab fails =>
      rcases hcallbacks : s.estabCBs with _ | ⟨⟨c, tag⟩, rest⟩
      · have hcallbacks' : (load toDaemon toClient returned s).estabCBs = [] := hcallbacks
        simp [daemonNext, hcallbacks, hcallbacks']
      · have hcallbacks' : (load toDaemon toClient returned s).estabCBs = (c, tag) :: rest :=
          hcallbacks
        simp only [daemonNext, hcallbacks, hcallbacks']
        exact congrArg some (connEstab_load (s := { s with estabCBs := rest }) c tag fails)
  | write fails => exact write_load fails
  | dequeue =>
      cases hloop : s.loop with
      | dequeuing ref cb => exact dequeue_load hloop
      | _ =>
          have hloop' : (load toDaemon toClient returned s).loop = s.loop := rfl
          simp [daemonNext, hloop, hloop', loopNext]
  | _ =>
      cases hloop : s.loop with
      | idle =>
          have hloop' : (load toDaemon toClient returned s).loop = .idle := hloop
          simp only [daemonNext, hloop, hloop']
          exact loopNext_load ha
      | _ =>
          have hloop' : (load toDaemon toClient returned s).loop = s.loop := rfl
          simp [daemonNext, hloop, hloop']

theorem request_load (mem : Uninit) (tag : Nat) (req : Request) :
    next ch { load toDaemon toClient returned s with toDaemon := (tag, req) :: toDaemon }
        (.request mem) =
      (next ch { s with toDaemon := [(tag, req)] } (.request mem)).map
        (load toDaemon toClient returned) := by
  change (if s.aborted then none else _) = (if s.aborted then none else _ : Option State).map _
  split
  · rfl
  · cases hloop : s.loop with
    | idle =>
        simp only [daemonNext, load, hloop]
        exact loopNext_request_load (s := { s with loop := .idle }) mem tag req
    | _ => simp [daemonNext, load, hloop]

theorem next_load {a : Label} (ha : onQueues a = false) :
    next ch (load toDaemon toClient returned s) a =
      (next ch s a).map (load toDaemon toClient returned) := by
  have hrequest : ∀ mem, a ≠ .request mem := by
    rintro mem rfl
    cases ha
  cases a with
  | channelSend req => cases ha
  | channelRecv => cases ha
  | request mem => cases ha
  | _ =>
      change (if s.aborted then none else _) = (if s.aborted then none else _ : Option State).map _
      split
      · rfl
      · exact daemonNext_load hrequest

theorem load_strip (s : State) : load s.toDaemon s.toClient s.returned (strip s) = s := by
  simp [load, strip]

theorem request_of_nil (hqueue : s.toDaemon = []) (mem : Uninit) :
    next ch s (.request mem) = none := by
  change (if s.aborted then none else _) = _
  split
  · rfl
  · cases hloop : s.loop <;> simp [daemonNext, hloop, loopNext, hqueue]

theorem request_of_cons {tag : Nat} {req : Request} {rest : List (Nat × Request)}
    (hqueue : s.toDaemon = (tag, req) :: rest) (mem : Uninit) :
    next ch s (.request mem) =
      (next ch { strip s with toDaemon := [(tag, req)] } (.request mem)).map
        (load rest s.toClient s.returned) := by
  have hload : next ch { load rest s.toClient s.returned (strip s) with
      toDaemon := (tag, req) :: rest } (.request mem) =
      (next ch { strip s with toDaemon := [(tag, req)] } (.request mem)).map
        (load rest s.toClient s.returned) := request_load mem tag req
  have hstate : { load rest s.toClient s.returned (strip s) with
      toDaemon := (tag, req) :: rest } = s := by
    rw [← hqueue]
    exact load_strip s
  rwa [hstate] at hload

theorem next_of_strip {a : Label} (ha : onQueues a = false) :
    next ch s a = (next ch (strip s) a).map (load s.toDaemon s.toClient s.returned) := by
  rw [← next_load ha, load_strip]

end Load

/-- What is on its way can be packed, and unpacked. -/
structure Carried (codec : Codec) (s : State) : Prop where
  packable : ∀ entry ∈ s.toDaemon, Packable codec.getPackedSize entry.2
  sendable : ∀ entry ∈ s.toClient, Sendable entry.2

/-- Of what goes to the client, what was not there before can be sent. -/
def Sends (s t : State) : Prop :=
  ∀ entry ∈ t.toClient, entry ∈ s.toClient ∨ Sendable entry.2

section Sends

variable {ch : Nat} {s t : State}

theorem sends_of_eq (h : t.toClient = s.toClient) : Sends s t :=
  fun _ hentry => .inl (h ▸ hentry)

theorem sends_put {resp : Response} (h : Sendable resp) (c tag : Nat) (fails : Bool) :
    Sends s (put ch s c tag resp fails) := by
  unfold put
  split
  · exact sends_of_eq rfl
  · split
    · intro entry hentry
      rcases List.mem_append.mp hentry with hold | hnew
      · exact .inl hold
      · rw [List.mem_singleton.mp hnew]
        exact .inr h
    · exact sends_of_eq rfl

theorem toClient_generate (c tag : Nat) (resp : Response) :
    (generate ch s c tag resp).toClient = s.toClient := by
  unfold generate
  split <;> rfl

theorem sends_handle (mem : Uninit) (c tag : Nat) (req : Request) :
    Sends s (handle ch s mem c tag req) := by
  apply sends_of_eq
  unfold handle
  split
  · rfl
  · dsimp only
    split
    · split
      · unfold register
        split <;> rfl
      · rfl
    · exact toClient_generate _ _ _

theorem sends_readNotifyPipe (ref : SocketRef) (so : Socket) :
    Sends s (readNotifyPipe s ref so) := by
  apply sends_of_eq
  unfold readNotifyPipe
  dsimp only
  split
  · split <;> rfl
  · rfl

theorem sends_dequeued (ref : SocketRef) (cb : OnAsyncNewPacket)
    (entry : SockaddrIn × List Buffers.SocketBuffer) (so : Socket) :
    Sends s (dequeued ch s ref cb entry so) := by
  apply sends_of_eq
  unfold dequeued
  split
  · rfl
  · exact toClient_generate _ _ _

theorem sends_written (after : Daemon) (c tag : Nat) (resp : Response) (fails : Bool) :
    Sends s (written ch s after c tag resp fails) := by
  unfold written
  split
  · exact sends_of_eq rfl
  · rename_i hwrite
    obtain ⟨hsendable, rfl⟩ := write_eq_ok_iff.mp hwrite
    exact sends_put hsendable c tag fails

theorem sends_connEstab (c tag : Nat) (fails : Bool) : Sends s (connEstab ch s c tag fails) := by
  unfold connEstab
  split
  · exact sends_of_eq rfl
  · split
    · exact sends_of_eq rfl
    · rename_i hwrite
      obtain ⟨hsendable, rfl⟩ := write_eq_ok_iff.mp hwrite
      intro entry hentry
      have hqueue : (generate ch s c tag ReplyShape.connEstabResponse).toClient = s.toClient :=
        toClient_generate c tag _
      rw [← hqueue]
      exact sends_put hsendable c tag fails entry hentry

theorem sends_loopNext {a : Label} (hnext : loopNext ch s a = some t) : Sends s t := by
  cases a with
  | accept =>
      cases hnext
      exact sends_of_eq rfl
  | hangUp c =>
      simp only [loopNext] at hnext
      split at hnext
      · cases hnext
        exact sends_of_eq rfl
      · cases hnext
  | readError =>
      cases hnext
      exact sends_of_eq rfl
  | request mem =>
      simp only [loopNext] at hnext
      split at hnext
      · cases hnext
      · split at hnext
        · cases hnext
          exact sends_handle (s := { s with toDaemon := _ }) mem ch _ _
        · cases hnext
  | otherRequest mem c req =>
      simp only [loopNext] at hnext
      split at hnext
      · cases hnext
        exact sends_handle mem c 0 req
      · cases hnext
  | notified ref =>
      obtain ⟨so, -, rfl⟩ := Option.map_eq_some_iff.mp hnext
      exact sends_readNotifyPipe ref so
  | _ => cases hnext

theorem sends_daemonNext {a : Label} (hnext : daemonNext ch s a = some t) : Sends s t := by
  unfold daemonNext at hnext
  split at hnext
  · split at hnext
    · cases hnext
      exact sends_of_eq rfl
    · cases hnext
  · split at hnext
    · cases hnext
    · rename_i c tag rest _
      cases hnext
      exact sends_connEstab (s := { s with estabCBs := rest }) c tag _
  · split at hnext
    · exact sends_loopNext hnext
    · cases hnext
      exact sends_written _ _ _ _ _
    · obtain ⟨so, -, hnext⟩ := Option.bind_eq_some_iff.mp hnext
      obtain ⟨⟨entry, so'⟩, -, hnext⟩ := Option.bind_eq_some_iff.mp hnext
      cases hnext
      exact sends_dequeued _ _ entry so'
    · cases hnext
      exact sends_written _ _ _ _ _
    · cases hnext

theorem sends_next {a : Label} (hnext : next ch s a = some t) : Sends s t := by
  unfold next at hnext
  split at hnext
  · split at hnext
    · cases hnext
    · cases hnext
      exact sends_of_eq rfl
  · split at hnext
    · unfold ReplyMatching.channelRecv at hnext
      split at hnext
      · cases hnext
      · rename_i hqueue
        have hold : ∀ entry ∈ _, entry ∈ s.toClient :=
          fun entry hentry => hqueue ▸ List.mem_cons_of_mem _ hentry
        split at hnext
        · cases hnext
          exact fun entry hentry => .inl (hold entry hentry)
        · cases hnext
          exact fun entry hentry => .inl (hold entry hentry)
    · cases hnext
  · split at hnext
    · cases hnext
    · exact sends_daemonNext hnext

end Sends

section Encode

variable (codec : Codec)

def encode (s : State) : Wire :=
  { parties := strip s
    toDaemon := s.toDaemon.map (packed codec)
    toClient := s.toClient.map (serialized codec)
    returned := s.returned.map fun entry => (entry.1, unpackedOf entry.2) }

variable {ch : Nat} {s : State}

theorem carry_encode (toDaemon : List (Nat × Request)) (t : Option State) :
    carry codec { encode codec s with toDaemon := toDaemon.map (packed codec) } t =
      (t.map (load toDaemon s.toClient s.returned)).map (encode codec) := by
  rcases t with _ | t
  · rfl
  · simp [carry, encode, load, strip]

theorem pack_ne_nil (req : Request) : codec.pack req ≠ [] := by
  have hpid : (FieldFormat.uint64 codec.interceptorWriter 15 fun req : Request => some req.pid) ∈
      requestDescriptors codec.interceptorWriter := by
    simp [requestDescriptors]
  exact (codec.packs.encodes req).ne_nil hpid (Option.some_ne_none _)

theorem send_encode {req : Request} (hpack : Packable codec.getPackedSize req) :
    channelSend codec (encode codec s) req =
      (next ch s (.channelSend req)).map (encode codec) := by
  have hfits : ¬ rpcMessageMaxSize < codec.getPackedSize req := Nat.not_lt.mpr hpack.fits
  change (if s.waiting then none
    else if rpcMessageMaxSize < codec.getPackedSize req then none else _) =
    (if s.waiting then none else _ : Option State).map _
  rw [if_neg hfits]
  split
  · rfl
  · simp [encode, packed, strip]

theorem retCode_unpackedOf (resp : Response) :
    (unpackedOf resp).retCode = some (retCodeValue .WAIT_NEXT) ↔
      resp.retCode = some .WAIT_NEXT := by
  obtain ⟨returning, _ | retCode⟩ := resp
  · simp [unpackedOf]
  · cases retCode <;> simp [unpackedOf, retCodeValue]

theorem recv_encode (h : Carried codec s) :
    (if s.waiting then channelRecv codec (encode codec s) else none) =
      (next ch s .channelRecv).map (encode codec) := by
  change _ = (if s.waiting then ReplyMatching.channelRecv s else none).map _
  split
  · rcases hqueue : s.toClient with _ | ⟨⟨tag, resp⟩, rest⟩
    · simp [channelRecv, ReplyMatching.channelRecv, encode, hqueue]
    · obtain ⟨hinitialized, hfits⟩ := h.sendable (tag, resp) (by simp [hqueue])
      obtain ⟨hlength, hunpack⟩ := unpack_serialized codec.unpacks hfits
      have htake := List.take_of_length_le (hlength.trans_le hfits)
      simp only [channelRecv, ReplyMatching.channelRecv, encode, hqueue, List.map_cons,
        serialized, htake, hunpack, hinitialized, if_true, Option.map_some,
        retCode_unpackedOf]
      split <;> simp [strip, encode]
  · rfl

theorem read_encode (h : Carried codec s) (mem : Uninit) :
    onReadReady codec ch (encode codec s) mem =
      (next ch s (.request mem)).map (encode codec) := by
  rcases hqueue : s.toDaemon with _ | ⟨⟨tag, req⟩, rest⟩
  · rw [request_of_nil hqueue]
    simp [onReadReady, encode, hqueue]
  · have hpack := h.packable (tag, req) (by simp [hqueue])
    obtain ⟨-, hreq⟩ := parseFromArray_pack codec.requests codec.packs hpack
    have hlength := codec.packs.size req
    have htake := List.take_of_length_le (hlength ▸ hpack.fits)
    rw [request_of_cons hqueue]
    calc onReadReady codec ch (encode codec s) mem
        = carry codec { encode codec s with toDaemon := rest.map (packed codec) }
            (next ch { strip s with toDaemon := [(tag, req)] } (.request mem)) := by
          simp only [onReadReady, encode, hqueue, List.map_cons, packed,
            pack_ne_nil, if_false, htake, hreq]
      _ = _ := carry_encode codec rest _

/-- One step on the packets is one step on the messages. -/
theorem wireNext_encode (h : Carried codec s) {a : Label}
    (hsend : ∀ req, a = .channelSend req → Packable codec.getPackedSize req) :
    wireNext codec ch (encode codec s) a = (next ch s a).map (encode codec) := by
  have hother : onQueues a = false →
      carry codec (encode codec s) (next ch (strip s) a) = (next ch s a).map (encode codec) := by
    intro ha
    rw [next_of_strip (s := s) ha]
    exact carry_encode codec s.toDaemon _
  cases a with
  | channelSend req => exact send_encode codec (hsend req rfl)
  | channelRecv => exact recv_encode codec h
  | request mem => exact read_encode codec h mem
  | _ => exact hother rfl

theorem packable_next (h : Carried codec s) {a : Label} {t : State}
    (hsend : ∀ req, a = .channelSend req → Packable codec.getPackedSize req)
    (hnext : next ch s a = some t) :
    ∀ entry ∈ t.toDaemon, Packable codec.getPackedSize entry.2 := by
  cases a with
  | channelSend req =>
      simp only [next] at hnext
      split at hnext
      · cases hnext
      · cases hnext
        intro entry hentry
        rcases List.mem_append.mp hentry with hold | hnew
        · exact h.packable entry hold
        · rw [List.mem_singleton.mp hnew]
          exact hsend req rfl
  | channelRecv =>
      simp only [next, ReplyMatching.channelRecv] at hnext
      split at hnext
      · split at hnext
        · cases hnext
        · split at hnext <;> cases hnext <;> exact h.packable
      · cases hnext
  | request mem =>
      rcases hqueue : s.toDaemon with _ | ⟨⟨tag, req⟩, rest⟩
      · rw [request_of_nil hqueue] at hnext
        cases hnext
      · rw [request_of_cons hqueue] at hnext
        obtain ⟨u, -, rfl⟩ := Option.map_eq_some_iff.mp hnext
        exact fun entry hentry => h.packable entry (hqueue ▸ List.mem_cons_of_mem _ hentry)
  | _ =>
      rw [next_of_strip rfl] at hnext
      obtain ⟨u, -, rfl⟩ := Option.map_eq_some_iff.mp hnext
      exact h.packable

theorem carried_next (h : Carried codec s) {a : Label} {t : State}
    (hsend : ∀ req, a = .channelSend req → Packable codec.getPackedSize req)
    (hnext : next ch s a = some t) :
    Carried codec t := by
  refine ⟨packable_next codec h hsend hnext, ?_⟩
  intro entry hentry
  rcases sends_next hnext entry hentry with hold | hsendable
  · exact h.sendable entry hold
  · exact hsendable

/-- A run on the packets is the run on the messages that the packets hold. -/
theorem exec_encode (h : Carried codec s) {labels : List Label}
    (hsend : ∀ req, .channelSend req ∈ labels → Packable codec.getPackedSize req) :
    (wireMachine codec ch).exec (encode codec s) labels =
      ((machine ch).exec s labels).map (encode codec) := by
  refine exec_map (I := Carried codec) (M := machine ch) (N := wireMachine codec ch)
    (fun s a hs ha => wireNext_encode codec hs ha)
    (fun s a t hs ha hnext => carried_next codec hs ha hnext) ?_ h
  rintro a ha req rfl
  exact hsend req ha

theorem carried_initial (h : (machine ch).initial s) : Carried codec s := by
  obtain ⟨-, -, -, -, -, htoDaemon, htoClient, -⟩ := h
  constructor
  · simp [htoDaemon]
  · simp [htoClient]

theorem encode_initial (h : (machine ch).initial s) :
    (wireMachine codec ch).initial (encode codec s) := by
  obtain ⟨hchannels, hudp, htcp, hloop, hcallbacks, htoDaemon, htoClient, hsent, hwaiting,
    hreturned, hgenerated⟩ := h
  refine ⟨⟨hchannels, hudp, htcp, hloop, hcallbacks, rfl, rfl, hsent, hwaiting, rfl, hgenerated⟩,
    ?_, ?_, ?_⟩
  · simp [encode, htoDaemon]
  · simp [encode, htoClient]
  · simp [encode, hreturned]

/-- The daemon and a client that exchange packets run as if they exchanged messages. -/
theorem packets_refine_messages (h : (machine ch).initial s) {labels : List Label}
    (hsend : ∀ req, .channelSend req ∈ labels → Packable codec.getPackedSize req) :
    (wireMachine codec ch).initial (encode codec s) ∧
      (wireMachine codec ch).exec (encode codec s) labels =
        ((machine ch).exec s labels).map (encode codec) :=
  ⟨encode_initial codec h, exec_encode codec (carried_initial codec h) hsend⟩

/-- What `channel_recv` unpacks for the request with a number is the response that the
daemon made for it, the only one. -/
theorem unpacked_answers (h : (machine ch).initial s) {labels : List Label}
    (hsend : ∀ req, .channelSend req ∈ labels → Packable codec.getPackedSize req) {u : Wire}
    (hexec : (wireMachine codec ch).exec (encode codec s) labels = some u) {n tag : Nat}
    {resp : UnpackedResponse} (hreturned : u.returned[n]? = some (tag, resp)) :
    tag = n ∧ ∃ answer, (u.parties.generated.filter fun entry => entry.1 = n) = [(n, answer)] ∧
      resp = unpackedOf answer := by
  rw [exec_encode codec (carried_initial codec h) hsend] at hexec
  obtain ⟨t, hrun, rfl⟩ := Option.map_eq_some_iff.mp hexec
  have hinv := invariant (Machine.reachable_of_exec (.initial h) hrun)
  change (t.returned.map _)[n]? = _ at hreturned
  rw [List.getElem?_map] at hreturned
  obtain ⟨⟨tag', answer⟩, hget, heq⟩ := Option.map_eq_some_iff.mp hreturned
  cases heq
  obtain ⟨htag, honly⟩ := hinv.matched.returned_spec hget
  obtain rfl : tag' = n := htag
  exact ⟨rfl, answer, honly, rfl⟩

end Encode

def sampleCodec : Codec where
  interceptorWriter := Lib.Base128.writer
  getPackedSize req := (packInOrder Lib.Base128.writer req).length
  pack := packInOrder Lib.Base128.writer
  packs := packs_packInOrder _
  daemonReader := Lib.Base128.reader
  requests := Lib.Base128.reads
  daemonWriter := Lib.Base128.writer
  unpack := unpackMerging Lib.Base128.reader
  unpacks := unpacks_unpackMerging Lib.Base128.reads

def sampleCalls : List Label :=
  [.accept, .channelSend { calling := .socketCall 2 2 0, pid := 7 },
    .request DaemonSurvival.sampleUninit, .write false, .channelRecv]

theorem sampleInitial_initial : (machine 0).initial sampleInitial :=
  ⟨rfl, rfl, rfl, rfl, rfl, rfl, rfl, rfl, rfl, rfl, rfl⟩

theorem sampleCalls_packable (req : Request) (hreq : .channelSend req ∈ sampleCalls) :
    Packable sampleCodec.getPackedSize req := by
  obtain rfl : req = { calling := .socketCall 2 2 0, pid := 7 } := by
    simpa [sampleCalls] using hreq
  refine ⟨by decide, ?_⟩
  intro progname hcalling
  cases hcalling

theorem packets_refine_messages_sample :
    ∃ t, (machine 0).exec sampleInitial sampleCalls = some t ∧
      (wireMachine sampleCodec 0).exec (encode sampleCodec sampleInitial) sampleCalls =
        some (encode sampleCodec t) := by
  obtain ⟨t, hexec⟩ : ∃ t, (machine 0).exec sampleInitial sampleCalls = some t := ⟨_, rfl⟩
  obtain ⟨-, hwire⟩ :=
    packets_refine_messages sampleCodec sampleInitial_initial sampleCalls_packable
  rw [hexec] at hwire
  exact ⟨t, hexec, hwire⟩

theorem unpacked_answers_sample :
    ∃ u resp, (wireMachine sampleCodec 0).exec (encode sampleCodec sampleInitial) sampleCalls =
        some u ∧ u.returned[0]? = some (0, resp) ∧
      ∃ answer, (u.parties.generated.filter fun entry => entry.1 = 0) = [(0, answer)] ∧
        resp = unpackedOf answer := by
  obtain ⟨t, hrun, hreturned⟩ : ∃ t, (machine 0).exec sampleInitial sampleCalls = some t ∧
      t.returned = [(0, retOk (.socketCall 0 none))] := ⟨_, rfl, rfl⟩
  have hexec : (wireMachine sampleCodec 0).exec (encode sampleCodec sampleInitial) sampleCalls =
      ((machine 0).exec sampleInitial sampleCalls).map (encode sampleCodec) :=
    exec_encode sampleCodec (carried_initial sampleCodec sampleInitial_initial) sampleCalls_packable
  rw [hrun] at hexec
  have hget : (encode sampleCodec t).returned[0]? =
      some (0, unpackedOf (retOk (.socketCall 0 none))) := by
    simp [encode, hreturned]
  exact ⟨_, _, hexec, hget,
    (unpacked_answers sampleCodec sampleInitial_initial sampleCalls_packable hexec hget).2⟩

end MuQuinet.ByteExchanges
