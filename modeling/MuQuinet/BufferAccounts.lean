import MuQuinet.DefragRuns
import MuQuinet.Lib.Ledgers
import MuQuinet.SocketLives
import Mathlib.Algebra.Order.Group.Multiset

namespace MuQuinet.BufferAccounts

open MuQuinet.Lib.Ledgers
open MuQuinet.Lib.Outcomes
open MuQuinet.Lib.Words
open MuQuinet.AddressLeak
open MuQuinet.Buffers
open MuQuinet.ChannelSockets
open MuQuinet.DatagramIsolation
open MuQuinet.DaemonSurvival
open MuQuinet.DefragRuns
open MuQuinet.HandlerAnswers
open MuQuinet.IpHeaders
open MuQuinet.IpLayer
open MuQuinet.Pcbs
open MuQuinet.Reassembly
open MuQuinet.ReplyOverflow (defrager_demultiplex defrager_next)
open MuQuinet.ReceiveBound (packetResponse_eq_ok_iff)
open MuQuinet.RequestHandler
open MuQuinet.Rpc
open MuQuinet.Sockets
open MuQuinet.TcpLayer
open MuQuinet.UdpLayer

/-- The bytes of a received packet, but for the total length that `Defrager::defrag` writes:
what the stack leaves as it came. -/
def origin (skbuf : SocketBuffer) : List UInt8 :=
  store16 skbuf.rawBytes 2 0

def origins (chain : List SocketBuffer) : Multiset (List UInt8) :=
  chain.map origin

def queued (so : Socket) : Multiset (List UInt8) :=
  total (fun entry => origins entry.2) so.recvQ

def inSlot {P : Type} (slot : Slot P) : Multiset (List UInt8) :=
  slot.socket.elim 0 queued

def inContexts (defrager : Defrager) : Multiset (List UInt8) :=
  total (fun ctx => origins ctx.first) defrager.defragCtxList

/-- The packets that the stack still has. -/
def inStack (st : Stack) : Multiset (List UInt8) :=
  inContexts st.defrager + total inSlot st.udp.pcbs + total inSlot st.tcp.pcbs

def held : State → Multiset (List UInt8)
  | .running d => inStack d.stack
  | .failed _ => 0

def received : Label → Multiset (List UInt8)
  | .rx _ skbuf => {origin skbuf}
  | _ => 0

/-- What `recvfromCall` takes from the queue. -/
def taken (so : Socket) : List SocketBuffer :=
  so.recvQ.head?.elim [] Prod.snd

/-- What the asynchronous callbacks take, when the event loop reads the notification pipe. -/
def takenByCallback (so : Socket) : List SocketBuffer :=
  if so.waiting && so.onAsyncNewPacket.isSome then taken so else []

def takenByRequest (d : Daemon) (ch : Nat) (calling : Calling) : List SocketBuffer :=
  match calling, d.socket ch with
  | .recvfromCall _ _ _, .ok (_, so) => taken so
  | _, _ => []

/-- The buffers whose payload a step hands to a client. -/
def handed : State → Label → List SocketBuffer
  | .running d, .read _ ch (.message req) _ => takenByRequest d ch req.calling
  | .running d, .notified ref =>
      match d.socketAt ref with
      | some so => takenByCallback so
      | none => []
  | _, _ => []

/-- The response that a step writes. -/
def answer : State → Label → Option Response
  | .running d, .read mem ch result writeFails =>
      (onReadReady d mem ch result writeFails).toOption.bind Prod.snd
  | .running d, .notified ref =>
      (d.socketAt ref).bind fun so => (sChannelReadCb so).toOption.bind Prod.snd
  | _, _ => none

/-- What is received comes out of `TunDevice::rx`. -/
def FromDevice : Label → Prop
  | .rx _ skbuf => ∃ bytes, skbuf = tunDeviceRx bytes
  | _ => True

section Fragments

theorem store16_store16 (bytes : List UInt8) (offset : Nat) (word word' : UInt16) :
    store16 (store16 bytes offset word) offset word' = store16 bytes offset word' := by
  simp only [store16]
  rw [List.set_comm _ _ (by omega : offset + 1 ≠ offset), List.set_set, List.set_set]

theorem origin_rewriteTotLen {skbuf : SocketBuffer} (h : skbuf.network = 0) (len : UInt16) :
    origin (rewriteTotLen len skbuf) = origin skbuf := by
  simp only [origin, rewriteTotLen, h, Nat.zero_add]
  exact store16_store16 _ _ _ _

/-- The packet that a complete chain becomes has the bytes of the chain. -/
theorem origins_finish {chain : List SocketBuffer} (h : ∀ skbuf ∈ chain, skbuf.network = 0) :
    origins (finish chain) = origins chain := by
  rcases chain with _ | ⟨first, next⟩
  · rfl
  · have hfirst := origin_rewriteTotLen (h first List.mem_cons_self)
      (payloadlen (next.getLastD first))
    simp only [origins, finish, List.map_cons, List.map_map, hfirst]
    rfl

theorem origins_cons (skbuf : SocketBuffer) (next : List SocketBuffer) :
    origins (skbuf :: next) = {origin skbuf} + origins next := by
  simp [origins]

theorem origins_insert {chain chain' : List SocketBuffer} {skbuf : SocketBuffer}
    (h : insert chain skbuf = some chain') : origins chain' = {origin skbuf} + origins chain := by
  rw [← origins_cons]
  exact Multiset.coe_eq_coe.mpr ((insert_perm h).map origin)

/-- A context that `locate` finds is in the list, and one it makes is empty. -/
theorem inContexts_locate (key : ContextKey) (d : Defrager) :
    inContexts d = total (fun ctx => origins ctx.first) (locate key d.defragCtxList).1 +
      (origins (locate key d.defragCtxList).2.1.first +
        total (fun ctx => origins ctx.first) (locate key d.defragCtxList).2.2) := by
  rcases locate_split key d.defragCtxList with hfound | ⟨hbefore, hempty, hafter⟩
  · rw [inContexts]
    nth_rewrite 1 [hfound]
    rw [total_append, total_cons]
  · rw [hempty, hafter]
    simp only [inContexts, total_nil, add_zero]
    rw [show origins ([] : List SocketBuffer) = 0 from rfl, add_zero]
    nth_rewrite 1 [hbefore]
    rfl

/-- A fragment goes into a context, or into the packet that it completes. -/
theorem defrag_balanced {d d' : Defrager} {skbuf : SocketBuffer} {packet : List SocketBuffer}
    (hchains : Chains (fun chain => ∀ skbuf ∈ chain, skbuf.network = 0) d)
    (hskbuf : skbuf.network = 0) (h : defrag d skbuf = some (d', packet)) :
    inContexts d' + origins packet = inContexts d + {origin skbuf} := by
  have hchain := hchains.chainOf (fun _ hmem => nomatch hmem) (contextKey skbuf)
  have hcontexts := inContexts_locate (contextKey skbuf) d
  unfold chainOf at hchain
  unfold defrag at h
  generalize locate (contextKey skbuf) d.defragCtxList = located at hchain hcontexts h
  obtain ⟨before, ctx, after⟩ := located
  dsimp only at hchain hcontexts h
  split at h
  · cases h
  · rename_i chain hinsert
    have horigins := origins_insert hinsert
    split at h
    · cases h
      have hnetwork : ∀ skbuf ∈ chain, skbuf.network = 0 := by
        intro other hother
        rcases List.mem_cons.mp ((insert_perm hinsert).mem_iff.mp hother) with rfl | hmem
        · exact hskbuf
        · exact hchain other hmem
      rw [origins_finish hnetwork, horigins, hcontexts]
      simp only [inContexts, total_append]
      abel
    · cases h
      rw [hcontexts]
      simp only [inContexts, total_append, total_cons, horigins]
      rw [show origins ([] : List SocketBuffer) = 0 from rfl]
      abel

end Fragments

section Sockets

theorem queued_putToRecvQ (so : Socket) (peeraddr : SockaddrIn) (chain : List SocketBuffer) :
    queued (so.putToRecvQ peeraddr chain) ≤ queued so + origins chain := by
  unfold Socket.putToRecvQ
  split
  · exact Multiset.le_add_right _ _
  · simp [queued, Socket.enqueue]

theorem queued_taken {so : Socket} {entry : SockaddrIn × List SocketBuffer}
    {rest : List (SockaddrIn × List SocketBuffer)} (h : so.recvQ = entry :: rest) :
    total (fun entry => origins entry.2) rest + origins (taken so) = queued so := by
  simp only [queued, taken, h, List.head?_cons, Option.elim_some, total_cons]
  exact add_comm _ _

theorem queued_recvfrom {so so' : Socket} {ch : Nat} {requireAddr : Bool} {resp : Response}
    (h : recvfrom so ch requireAddr = .ok (so', resp)) :
    queued so' + origins (taken so) = queued so := by
  cases recvfrom_exit h with
  | packet hqueue => exact queued_taken hqueue
  | again hqueue =>
      simp only [taken, hqueue, List.head?_nil, Option.elim_none]
      exact add_zero _
  | waitNext hqueue =>
      simp only [taken, hqueue, List.head?_nil, Option.elim_none]
      exact add_zero _

theorem queued_sChannelReadCb {so so' : Socket} {sent : Option Response}
    (h : sChannelReadCb so = .ok (so', sent)) :
    queued so' + origins (takenByCallback so) = queued so := by
  cases sChannelReadCb_effect h with
  | idle hidle =>
      rw [takenByCallback, hidle]
      exact add_zero _
  | unset _ hunset =>
      rw [takenByCallback, hunset, Option.isSome_none, Bool.and_false]
      exact add_zero _
  | replied hwaiting hcb hqueue =>
      rw [takenByCallback, hwaiting, hcb]
      exact queued_taken hqueue

end Sockets

section Slots

variable {P : Type}

theorem inSlot_deliver (slot : Slot P) (peeraddr : SockaddrIn) (skbuf : SocketBuffer)
    (next : List SocketBuffer) :
    inSlot (slot.deliver peeraddr skbuf next).1 ≤ inSlot slot + origins (skbuf :: next) := by
  unfold Slot.deliver
  split
  · exact Multiset.le_add_right _ _
  · rename_i so hso
    simp only [inSlot, hso, Option.elim_some]
    exact queued_putToRecvQ so peeraddr (skbuf :: next)

theorem inSlot_tcp_recv (slot : Slot TcpPcb) (pcb : TcpPcb) (peerAddr : SockaddrIn)
    (skbuf : SocketBuffer) (next : List SocketBuffer) :
    inSlot (TcpPcb.recv slot pcb peerAddr skbuf next).1 ≤
      inSlot slot + origins (skbuf :: next) := by
  have hdeliver := inSlot_deliver slot peerAddr (TcpPcb.locatePayload skbuf) next
  unfold TcpPcb.recv
  split
  · exact Multiset.le_add_right _ _
  · dsimp only
    split
    · split
      · exact hdeliver
      · exact hdeliver
    · exact Multiset.le_add_right _ _
  · exact Multiset.le_add_right _ _

/-- To put an element in its place changes what the list holds as it changes the place. -/
theorem total_inSlot_set_le {pcbs : List (Slot P)} {i : Nat} {slot : Slot P}
    {gained : Multiset (List UInt8)} (h : inSlot slot ≤ inSlot (pcbs.getD i .expired) + gained) :
    total inSlot (pcbs.set i slot) ≤ total inSlot pcbs + gained := by
  rcases Nat.lt_or_ge i pcbs.length with hlt | hge
  · rw [← add_zero (inSlot slot)] at h
    have hset := total_set_le hlt h
    rwa [add_zero] at hset
  · rw [List.set_eq_of_length_le hge]
    exact Multiset.le_add_right _ _

end Slots

section Packets

theorem udp_rx_balanced (udp : Udp) (uninit : SockaddrIn) (skbuf : SocketBuffer)
    (next : List SocketBuffer) :
    total inSlot (udp.rx uninit skbuf next).1.pcbs ≤
      total inSlot udp.pcbs + origins (skbuf :: next) := by
  unfold Udp.rx
  dsimp only
  split
  · exact Multiset.le_add_right _ _
  · exact total_inSlot_set_le (inSlot_deliver _ _ (UdpPcb.locatePayload skbuf) next)

theorem tcp_rx_balanced (tcp : Tcp) (uninit : SockaddrIn) (skbuf : SocketBuffer)
    (next : List SocketBuffer) :
    total inSlot (tcp.rx uninit skbuf next).1.pcbs ≤
      total inSlot tcp.pcbs + origins (skbuf :: next) := by
  unfold Tcp.rx
  dsimp only
  split
  · exact Multiset.le_add_right _ _
  · split
    · exact Multiset.le_add_right _ _
    · exact total_inSlot_set_le (inSlot_tcp_recv _ _ _ _ _)

theorem inStack_udp {st : Stack} {udp : Udp} {gained : Multiset (List UInt8)}
    (h : total inSlot udp.pcbs ≤ total inSlot st.udp.pcbs + gained) :
    inStack { st with udp := udp } ≤ inStack st + gained := by
  unfold inStack
  calc inContexts st.defrager + total inSlot udp.pcbs + total inSlot st.tcp.pcbs
      ≤ inContexts st.defrager + (total inSlot st.udp.pcbs + gained) + total inSlot st.tcp.pcbs :=
        add_le_add_left (add_le_add_right h _) _
    _ = _ := by abel

theorem inStack_tcp {st : Stack} {tcp : Tcp} {gained : Multiset (List UInt8)}
    (h : total inSlot tcp.pcbs ≤ total inSlot st.tcp.pcbs + gained) :
    inStack { st with tcp := tcp } ≤ inStack st + gained := by
  unfold inStack
  calc inContexts st.defrager + total inSlot st.udp.pcbs + total inSlot tcp.pcbs
      ≤ inContexts st.defrager + total inSlot st.udp.pcbs +
          (total inSlot st.tcp.pcbs + gained) := add_le_add_right h _
    _ = _ := by abel

theorem inStack_defrager {st : Stack} {defrager : Defrager} {chain : List SocketBuffer}
    {gained : Multiset (List UInt8)}
    (h : inContexts defrager + origins chain = inContexts st.defrager + gained) :
    inStack { st with defrager := defrager } + origins chain = inStack st + gained := by
  unfold inStack
  calc inContexts defrager + total inSlot st.udp.pcbs + total inSlot st.tcp.pcbs + origins chain
      = inContexts defrager + origins chain + (total inSlot st.udp.pcbs +
          total inSlot st.tcp.pcbs) := by abel
    _ = _ := by
      rw [h]
      abel

/-- A packet goes into one queue at most. -/
theorem demultiplex_balanced (st : Stack) (uninit : SockaddrIn) (hdr : IpHeader)
    (skbuf : SocketBuffer) (next : List SocketBuffer) :
    inStack (demultiplex st uninit hdr skbuf next).1 ≤ inStack st + origins (skbuf :: next) := by
  unfold demultiplex
  dsimp only
  split
  · exact inStack_udp (udp_rx_balanced st.udp uninit (locateTransport hdr.ihl skbuf) next)
  · exact inStack_tcp (tcp_rx_balanced st.tcp uninit (locateTransport hdr.ihl skbuf) next)
  · exact Multiset.le_add_right _ _

/-- The headers of what waits in a context are at its beginning, as they came. -/
def ContextsFromDevice (defrager : Defrager) : Prop :=
  Chains (fun chain => ∀ skbuf ∈ chain, skbuf.network = 0) defrager

/-- A packet is received once: it waits in a context, or in a queue, or is dropped. -/
theorem rx_balanced {st : Stack} (hcontexts : ContextsFromDevice st.defrager)
    (uninit : SockaddrIn) {skbuf : SocketBuffer} (hskbuf : skbuf.network = 0) :
    inStack (rx st uninit skbuf).1 ≤ inStack st + {origin skbuf} := by
  unfold rx
  dsimp only
  split
  · exact Multiset.le_add_right _ _
  · split
    · exact Multiset.le_add_right _ _
    · split
      · split
        · exact Multiset.le_add_right _ _
        · rename_i defrager hdefrag
          rw [← inStack_defrager (defrag_balanced hcontexts hskbuf hdefrag)]
          exact Multiset.le_add_right _ _
        · rename_i defrager packet next hdefrag
          rw [← inStack_defrager (defrag_balanced hcontexts hskbuf hdefrag)]
          exact demultiplex_balanced { st with defrager := defrager } uninit _ packet next
      · have hdemultiplex := demultiplex_balanced st uninit (iphdr skbuf) skbuf []
        rw [origins_cons] at hdemultiplex
        exact hdemultiplex

theorem rx_contexts {st : Stack} (hcontexts : ContextsFromDevice st.defrager)
    (uninit : SockaddrIn) {skbuf : SocketBuffer} (hskbuf : skbuf.network = 0) :
    ContextsFromDevice (rx st uninit skbuf).1.defrager := by
  have hinserted : ∀ chain, insert (chainOf (contextKey skbuf) st.defrager) skbuf = some chain →
      ∀ curr ∈ chain, curr.network = 0 := by
    intro chain hinsert curr hcurr
    have hearlier := hcontexts.chainOf (fun _ hmem => nomatch hmem) (contextKey skbuf)
    rcases List.mem_cons.mp ((insert_perm hinsert).mem_iff.mp hcurr) with rfl | hmem
    · exact hskbuf
    · exact hearlier curr hmem
  unfold rx
  dsimp only
  split
  · exact hcontexts
  · split
    · exact hcontexts
    · split
      · split
        · exact hcontexts
        · rename_i defrager hdefrag
          exact hcontexts.defrag hdefrag hinserted
        · rename_i defrager packet next hdefrag
          rw [defrager_demultiplex]
          exact hcontexts.defrag hdefrag hinserted
      · rw [defrager_demultiplex]
        exact hcontexts

end Packets

section Calls

variable {d d' : Daemon}

theorem setUdpSlot_balanced {i : Nat} {slot : Slot Pcb} (h : inSlot slot ≤ inSlot (d.udpSlot i)) :
    inStack (d.setUdpSlot i slot).stack ≤ inStack d.stack := by
  rw [← add_zero (inSlot (d.udpSlot i))] at h
  have hset : total inSlot (d.setUdpSlot i slot).stack.udp.pcbs ≤
      total inSlot d.stack.udp.pcbs + 0 := total_inSlot_set_le h
  have hstack : inStack (d.setUdpSlot i slot).stack ≤ inStack d.stack + 0 := inStack_udp hset
  rwa [add_zero] at hstack

theorem setTcpSlot_balanced {i : Nat} {slot : Slot TcpPcb}
    (h : inSlot slot ≤ inSlot (d.tcpSlot i)) :
    inStack (d.setTcpSlot i slot).stack ≤ inStack d.stack := by
  rw [← add_zero (inSlot (d.tcpSlot i))] at h
  have hset : total inSlot (d.setTcpSlot i slot).stack.tcp.pcbs ≤
      total inSlot d.stack.tcp.pcbs + 0 := total_inSlot_set_le h
  have hstack : inStack (d.setTcpSlot i slot).stack ≤ inStack d.stack + 0 := inStack_tcp hset
  rwa [add_zero] at hstack

theorem release_balanced (d : Daemon) (old : Option SocketRef) :
    inStack (d.release old).stack ≤ inStack d.stack := by
  rcases old with _ | ⟨_ | _, index⟩
  · exact le_refl _
  · exact setUdpSlot_balanced (Multiset.zero_le _)
  · exact setTcpSlot_balanced (Multiset.zero_le _)

/-- What leaves the queue of a socket leaves the stack. -/
theorem setSocketAt_balanced {ref : SocketRef} {so so' : Socket} {chain : List SocketBuffer}
    (hso : d.socketAt ref = some so) (h : queued so' + origins chain = queued so) :
    inStack (d.setSocketAt ref so').stack + origins chain ≤ inStack d.stack := by
  rcases ref with ⟨_ | _, index⟩
  · have hslot : inSlot { d.udpSlot index with socket := some so' } + origins chain ≤
        inSlot (d.udpSlot index) + 0 := by
      replace hso : (d.udpSlot index).socket = some so := hso
      simp only [inSlot, hso, Option.elim_some, h, add_zero, le_refl]
    have htotal := total_set_le (slot_index_lt hso) hslot
    calc _ = inContexts d.stack.defrager + (total inSlot (d.stack.udp.pcbs.set index
            { d.udpSlot index with socket := some so' }) + origins chain) +
              total inSlot d.stack.tcp.pcbs := by
          unfold inStack
          simp only [Daemon.setSocketAt, Daemon.setUdpSlot]
          abel
      _ ≤ _ := by
          rw [add_zero] at htotal
          exact add_le_add_left (add_le_add_right htotal _) _
  · have hslot : inSlot { d.tcpSlot index with socket := some so' } + origins chain ≤
        inSlot (d.tcpSlot index) + 0 := by
      replace hso : (d.tcpSlot index).socket = some so := hso
      simp only [inSlot, hso, Option.elim_some, h, add_zero, le_refl]
    have htotal := total_set_le (slot_index_lt hso) hslot
    calc _ = inContexts d.stack.defrager + total inSlot d.stack.udp.pcbs +
            (total inSlot (d.stack.tcp.pcbs.set index
              { d.tcpSlot index with socket := some so' }) + origins chain) := by
          unfold inStack
          simp only [Daemon.setSocketAt, Daemon.setTcpSlot]
          abel
      _ ≤ _ := by
          rw [add_zero] at htotal
          exact add_le_add_right htotal _

theorem socketCall_balanced {mem : Uninit} {ch : Nat} {domain type : Int32} {resp : Response}
    (h : socketCall d mem ch domain type = .ok (d', resp)) :
    inStack d'.stack ≤ inStack d.stack := by
  unfold socketCall at h
  split at h
  · cases h
  · split at h
    · cases h
    · dsimp only at h
      split at h
      · cases h
        refine (release_balanced _ _).trans ?_
        simp [inStack, Tcp.newPcb, inSlot, queued]
      · cases h
        refine (release_balanced _ _).trans ?_
        simp [inStack, Udp.newPcb, inSlot, queued]

theorem udpCalled_balanced (d : Daemon) (i : Nat) (port : UInt16) (pcb : Pcb) :
    inStack (udpCalled d i port pcb).stack ≤ inStack d.stack := by
  have hslot : inSlot ({ d.udpSlot i with pcb := some pcb } : Slot Pcb) ≤ inSlot (d.udpSlot i) :=
    le_refl _
  exact setUdpSlot_balanced hslot

theorem tcpCalled_balanced (d : Daemon) (i : Nat) (port : UInt16) (pcb : TcpPcb) :
    inStack (tcpCalled d i port pcb).stack ≤ inStack d.stack := by
  have hslot : inSlot ({ d.tcpSlot i with pcb := some pcb } : Slot TcpPcb) ≤
      inSlot (d.tcpSlot i) := le_refl _
  exact setTcpSlot_balanced hslot

theorem balanced_of_le {calling : Calling} {ch : Nat} (h : inStack d'.stack ≤ inStack d.stack)
    (hnone : takenByRequest d ch calling = []) :
    inStack d'.stack + origins (takenByRequest d ch calling) ≤ inStack d.stack := by
  rw [hnone]
  exact (le_of_eq (add_zero _)).trans h

/-- Of the handlers only the one of `recvfrom` takes from a queue. -/
theorem handleRequest_balanced {mem : Uninit} {ch : Nat} {req : Request} {resp : Response}
    (h : handleRequest d mem ch req = .ok (d', resp)) :
    inStack d'.stack + origins (takenByRequest d ch req.calling) ≤ inStack d.stack := by
  unfold handleRequest at h
  generalize req.calling = calling at h
  cases calling with
  | socketCall domain type protocol => exact balanced_of_le (socketCall_balanced h) rfl
  | connectCall addr =>
      obtain ⟨ref, so, -, hexit⟩ := connectCall_exit h
      refine balanced_of_le ?_ rfl
      cases hexit with
      | udp => exact udpCalled_balanced _ _ _ _
      | inProgress => exact le_refl _
      | waitEstab => exact tcpCalled_balanced _ _ _ _
  | recvfromCall len flags requireAddr =>
      simp only [recvfromCall, bind_eq_ok_iff] at h
      obtain ⟨⟨ref, so⟩, hsocket, ⟨so', _⟩, hrecvfrom, ⟨⟩⟩ := h
      have htaken : takenByRequest d ch (.recvfromCall len flags requireAddr) = taken so := by
        simp only [takenByRequest, hsocket]
      rw [htaken]
      exact setSocketAt_balanced (socket_eq_ok_iff.mp hsocket).2 (queued_recvfrom hrecvfrom)
  | sendtoCall buf flags addr =>
      obtain ⟨ref, so, -, hexit⟩ := sendtoCall_exit h
      refine balanced_of_le ?_ rfl
      cases hexit with
      | udpSendto => exact udpCalled_balanced _ _ _ _
      | udpSend => exact udpCalled_balanced _ _ _ _
      | tcpSend => exact tcpCalled_balanced _ _ _ _
  | getpeernameCall =>
      obtain ⟨_, -, ⟨⟩⟩ := bind_eq_ok_iff.mp h
      exact balanced_of_le (le_refl _) rfl
  | getsocknameCall =>
      obtain ⟨_, -, ⟨⟩⟩ := bind_eq_ok_iff.mp h
      exact balanced_of_le (le_refl _) rfl
  | atstartAction progname =>
      cases h
      exact balanced_of_le (le_refl _) rfl
  | _ =>
      cases h
      exact balanced_of_le (le_refl _) rfl

theorem taken_le_inStack {ref : SocketRef} {so : Socket} (hso : d.socketAt ref = some so) :
    origins (taken so) ≤ inStack d.stack := by
  have hqueued : queued { so with recvQ := so.recvQ.tail } + origins (taken so) = queued so := by
    rcases hqueue : so.recvQ with _ | ⟨entry, rest⟩
    · simp [queued, taken, hqueue, origins]
    · exact queued_taken hqueue
  exact (Multiset.le_add_left _ _).trans (setSocketAt_balanced hso hqueued)

theorem takenByRequest_le (d : Daemon) (ch : Nat) (calling : Calling) :
    origins (takenByRequest d ch calling) ≤ inStack d.stack := by
  unfold takenByRequest
  split
  · rename_i hsocket
    exact taken_le_inStack (socket_eq_ok_iff.mp hsocket).2
  · exact Multiset.zero_le _

theorem onReadReady_balanced {mem : Uninit} {ch : Nat} {result : ReadResult} {writeFails : Bool}
    {sent : Option Response} (h : onReadReady d mem ch result writeFails = .ok (d', sent)) :
    inStack d'.stack + origins (handed (.running d) (.read mem ch result writeFails)) ≤
      inStack d.stack := by
  cases onReadReady_exit h with
  | again => exact le_of_eq (add_zero _)
  | eof => exact (le_of_eq (add_zero _)).trans (release_balanced d _)
  | written hcall => exact handleRequest_balanced hcall
  | unwritten hcall =>
      have hbalanced := handleRequest_balanced hcall
      exact hbalanced

end Calls

section Replies

variable {d d' : Daemon}

theorem socketCall_resp {mem : Uninit} {ch : Nat} {domain type : Int32} {resp : Response}
    (h : socketCall d mem ch domain type = .ok (d', resp)) : resp = retOk (.socketCall 0 none) := by
  unfold socketCall at h
  split at h
  · cases h
  · split at h
    · cases h
    · dsimp only at h
      split at h
      · cases h
        rfl
      · cases h
        rfl

/-- A response is made of the packet that is first in the queue of a socket, and that is
handed to the client. -/
def AnsweredFrom (d : Daemon) (chain : List SocketBuffer) (resp : Response) : Prop :=
  ∃ ref so entry rest requireAddr, d.socketAt ref = some so ∧ so.recvQ = entry :: rest ∧
    chain = entry.2 ∧ packetResponse requireAddr entry = .ok resp

theorem recvfrom_answered {so so' : Socket} {ref : SocketRef} {ch : Nat} {requireAddr : Bool}
    {resp : Response} {ret : Int32} {errno : Option Int32} {buf : List UInt8}
    {addr : Option (List UInt8)} (hso : d.socketAt ref = some so)
    (h : recvfrom so ch requireAddr = .ok (so', resp))
    (hresp : resp.returning = some (.recvfromCall ret errno (some buf) addr)) :
    AnsweredFrom d (taken so) resp := by
  cases recvfrom_exit h with
  | packet hqueue hpacket =>
      refine ⟨ref, so, _, _, requireAddr, hso, hqueue, ?_, hpacket⟩
      rw [taken, hqueue]
      rfl
  | again => cases hresp
  | waitNext => cases hresp

theorem sChannelReadCb_answered {so so' : Socket} {ref : SocketRef} {resp : Response}
    (hso : d.socketAt ref = some so) (h : sChannelReadCb so = .ok (so', some resp)) :
    AnsweredFrom d (takenByCallback so) resp := by
  cases sChannelReadCb_effect h with
  | replied hwaiting hcb hqueue hpacket =>
      refine ⟨ref, so, _, _, _, hso, hqueue, ?_, hpacket⟩
      rw [takenByCallback, hwaiting, hcb, taken, hqueue]
      rfl

theorem handleRequest_answered {mem : Uninit} {ch : Nat} {req : Request} {resp : Response}
    {ret : Int32} {errno : Option Int32} {buf : List UInt8} {addr : Option (List UInt8)}
    (h : handleRequest d mem ch req = .ok (d', resp))
    (hresp : resp.returning = some (.recvfromCall ret errno (some buf) addr)) :
    AnsweredFrom d (takenByRequest d ch req.calling) resp := by
  unfold handleRequest at h
  generalize req.calling = calling at h
  cases calling with
  | socketCall domain type protocol =>
      rw [socketCall_resp h] at hresp
      cases hresp
  | connectCall addr =>
      obtain ⟨ref, so, -, hexit⟩ := connectCall_exit h
      cases hexit <;> cases hresp
  | recvfromCall len flags requireAddr =>
      simp only [recvfromCall, bind_eq_ok_iff] at h
      obtain ⟨⟨ref, so⟩, hsocket, ⟨so', _⟩, hrecvfrom, ⟨⟩⟩ := h
      simp only [takenByRequest, hsocket]
      exact recvfrom_answered (socket_eq_ok_iff.mp hsocket).2 hrecvfrom hresp
  | sendtoCall buf flags addr =>
      obtain ⟨ref, so, -, hexit⟩ := sendtoCall_exit h
      cases hexit <;> cases hresp
  | getpeernameCall =>
      obtain ⟨_, -, ⟨⟩⟩ := bind_eq_ok_iff.mp h
      cases hresp
  | getsocknameCall =>
      obtain ⟨_, -, ⟨⟩⟩ := bind_eq_ok_iff.mp h
      cases hresp
  | _ =>
      cases h
      cases hresp

theorem AnsweredFrom.collects {chain : List SocketBuffer} {resp : Response} {ret : Int32}
    {errno : Option Int32} {buf : List UInt8} {addr : Option (List UInt8)}
    (h : AnsweredFrom d chain resp)
    (hresp : resp.returning = some (.recvfromCall ret errno (some buf) addr)) :
    collect chain = some buf := by
  obtain ⟨ref, so, entry, rest, requireAddr, -, -, rfl, hpacket⟩ := h
  obtain ⟨bytes, hcollect, rfl⟩ := packetResponse_eq_ok_iff.mp hpacket
  cases hresp
  exact hcollect

end Replies

section Runs

theorem toOption_bind_eq_some {ε α β : Type} {x : Except ε (α × Option β)} {b : β}
    (h : x.toOption.bind Prod.snd = some b) : ∃ a, x = .ok (a, some b) := by
  rcases x with _ | ⟨a, rest⟩
  · cases h
  · exact ⟨a, congrArg _ (congrArg _ h)⟩

theorem answer_answered {a : Label} {resp : Response} {ret : Int32} {errno : Option Int32}
    {buf : List UInt8} {addr : Option (List UInt8)} {d : Daemon}
    (h : answer (.running d) a = some resp)
    (hresp : resp.returning = some (.recvfromCall ret errno (some buf) addr)) :
    AnsweredFrom d (handed (.running d) a) resp := by
  cases a with
  | read mem ch result writeFails =>
      obtain ⟨d', hread⟩ := toOption_bind_eq_some h
      cases onReadReady_exit hread with
      | written hcall hwrite =>
          obtain ⟨-, -, rfl⟩ := write_eq_ok_iff.mp hwrite
          exact handleRequest_answered hcall hresp
  | notified ref =>
      obtain ⟨so, hso, hanswer⟩ := Option.bind_eq_some_iff.mp h
      obtain ⟨so', hread⟩ := toOption_bind_eq_some hanswer
      simp only [handed, hso]
      exact sChannelReadCb_answered hso hread
  | _ => cases h

/-- The bytes that a client is answered with are the payload of the buffers it is handed. -/
theorem answer_collects {s : State} {a : Label} {resp : Response} {ret : Int32}
    {errno : Option Int32} {buf : List UInt8} {addr : Option (List UInt8)}
    (h : answer s a = some resp)
    (hresp : resp.returning = some (.recvfromCall ret errno (some buf) addr)) :
    collect (handed s a) = some buf := by
  rcases s with d | fault
  · exact (answer_answered h hresp).collects hresp
  · cases a <;> cases h

theorem handed_le (d : Daemon) (a : Label) : origins (handed (.running d) a) ≤ inStack d.stack := by
  unfold handed
  split
  · rename_i hstate
    cases hstate
    exact takenByRequest_le _ _ _
  · rename_i hstate
    cases hstate
    split
    · rename_i so hso
      unfold takenByCallback
      split
      · exact taken_le_inStack hso
      · exact Multiset.zero_le _
    · exact Multiset.zero_le _
  · exact Multiset.zero_le _

def Kept (s : State) : Prop :=
  ∀ d, s = .running d → ContextsFromDevice d.stack.defrager

theorem network_of_fromDevice {uninit : SockaddrIn} {skbuf : SocketBuffer}
    (h : FromDevice (.rx uninit skbuf)) : skbuf.network = 0 := by
  obtain ⟨bytes, rfl⟩ := h
  rfl

theorem kept_step {s t : State} {a : Label} (h : Kept s) (hdevice : FromDevice a)
    (hnext : next s a = some t) : Kept t := by
  rintro d' rfl
  rcases s with d | fault
  · rcases defrager_next hnext with heq | ⟨uninit, skbuf, rfl⟩
    · rw [heq]
      exact h d rfl
    · cases hnext
      exact rx_contexts (h d rfl) uninit (network_of_fromDevice hdevice)
  · cases hnext

/-- No step has more packets to hand out than it found and received. -/
theorem step_balanced {s t : State} {a : Label} (h : Kept s) (hdevice : FromDevice a)
    (hnext : next s a = some t) :
    held t + origins (handed s a) ≤ held s + received a := by
  rcases s with d | fault
  · rcases t with d' | fault
    · cases next_exit hnext with
      | accept => exact le_refl _
      | read _ hread => exact (onReadReady_balanced hread).trans (Multiset.le_add_right _ _)
      | hangUp => exact add_le_add_left (release_balanced d _) 0
      | rx uninit skbuf =>
          have hrx := rx_balanced (h d rfl) uninit (network_of_fromDevice hdevice)
          exact (le_of_eq (add_zero _)).trans hrx
      | @notified ref so so' _ hso hread =>
          have htaken : handed (.running d) (.notified ref) = takenByCallback so := by
            simp only [handed, hso]
          rw [htaken]
          refine (setSocketAt_balanced hso (queued_sChannelReadCb hread)).trans ?_
          exact Multiset.le_add_right _ _
    · calc held (.failed fault) + origins (handed (.running d) a)
          = origins (handed (.running d) a) := zero_add _
        _ ≤ held (.running d) := handed_le d a
        _ ≤ held (.running d) + received a := Multiset.le_add_right _ _
  · cases hnext

/-- In every run of the daemon, what clients have been handed and what is still queued or
waits to be reassembled was received, and each packet no more often than it was: nothing is
made up, and nothing is delivered twice. What a client is answered with is the payload of what
it is handed. -/
theorem packets_conserved {s t : State} {labels : List Label} (hinitial : started.initial s)
    (hdevice : ∀ a ∈ labels, FromDevice a) (hexec : started.exec s labels = some t) :
    held t + spending started (fun s a => origins (handed s a)) s labels ≤
        total received labels ∧
      ∀ (s' : State) (a : Label) (resp : Response) (ret : Int32) (errno : Option Int32)
        (buf : List UInt8) (addr : Option (List UInt8)), answer s' a = some resp →
        resp.returning = some (.recvfromCall ret errno (some buf) addr) →
        collect (handed s' a) = some buf := by
  refine ⟨?_, fun _ _ _ _ _ _ _ hanswer hresp => answer_collects hanswer hresp⟩
  obtain ⟨d, rfl, -, hudp, htcp, hcontexts⟩ := hinitial
  have hkept : Kept (.running d) := by
    rintro d ⟨⟩ ctx hctx
    rw [hcontexts] at hctx
    cases hctx
  have hnone : held (.running d) = 0 := by
    simp [held, inStack, inContexts, hudp, htcp, hcontexts]
  have hkeeps : ∀ s a t, Kept s → FromDevice a → started.next s a = some t → Kept t :=
    fun _ _ _ hs ha hnext => kept_step hs ha hnext
  have hstep : ∀ s a t, Kept s → FromDevice a → started.next s a = some t →
      held t + origins (handed s a) ≤ held s + received a :=
    fun _ _ _ hs ha hnext => step_balanced hs ha hnext
  have hbalanced := exec_balanced hkeeps hstep hkept hdevice hexec
  rwa [hnone, zero_add] at hbalanced

def sampleDelivery : List Label :=
  sampleLabels .zero ++ [sampleRead (.recvfromCall 16 0 false)]

theorem packets_conserved_sample :
    ∃ t, started.exec (.running sampleStart) sampleDelivery = some t ∧
      held t + spending started (fun s a => origins (handed s a)) (.running sampleStart)
        sampleDelivery ≤ {origin sampleAnswer} := by
  have hdevice : ∀ a ∈ sampleDelivery, FromDevice a := by
    intro a ha
    simp only [sampleDelivery, sampleLabels, List.cons_append, List.nil_append, List.mem_cons,
      List.not_mem_nil, or_false] at ha
    rcases ha with rfl | rfl | rfl | rfl | rfl
    · trivial
    · trivial
    · trivial
    · exact ⟨_, rfl⟩
    · trivial
  have htotal : total received sampleDelivery = {origin sampleAnswer} := by
    simp [sampleDelivery, sampleLabels, sampleRead, received]
  refine ⟨_, rfl, ?_⟩
  rw [← htotal]
  exact (packets_conserved sampleStart_initial hdevice rfl).1

end Runs

end MuQuinet.BufferAccounts
