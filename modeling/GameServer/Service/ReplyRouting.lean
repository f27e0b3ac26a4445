import GameServer.Lib.Replies
import GameServer.Network.SendPath
import GameServer.Network.ServerRounds
import GameServer.Service.Handle

/-!
# The way of a reply

A packet is stamped with the sequence id of its connection when it is unpacked.
It goes through the receive queues to the logic thread, whose handler produces
replies under the same id.  These go through the send queues back to the
network thread, which looks the id up in the pool and writes to the bufferevent
of the client it finds.  Meanwhile connections are closed and others accepted
on the same descriptor.

The model has the callbacks of the network thread, the read callback round by
round, the loop of the logic thread over the packets it has taken over, and
`ExecuteCmdSendAllPacket` packet by packet.  The pipe between the threads is
left out: the network thread may run the send command whenever it is idle, and
the logic thread may hand over its replies at any time.

As history each accepted connection gets a number, which stays with its
bufferevent; the packets received, produced and written are recorded.  In every
run in which the sequence ids given to connections are distinct, a reply is
written to the connection its request came from or to none.
-/

namespace GameServer
namespace Gamehandle

open Lib Network

/-! ## Handlers -/

/-- Replies have been produced for a request: they are in the send-prepare
queue, with the sender of the request. -/
def RepliesTo (request : NetPacketBuffer) (ctx ctx' : NetworkContext)
    (replies : List NetPacketBuffer) : Prop :=
  ctx' = { ctx with netPacketSendPrepareQueue :=
      ⟨ctx.netPacketSendPrepareQueue.iPacketNum + replies.length,
        ctx.netPacketSendPrepareQueue.vecPacketPool ++ replies⟩ } ∧
    ∀ reply ∈ replies, reply.ulClientSeq = request.ulClientSeq ∧
      reply.iSockFd = request.iSockFd

/-- A handler that the logic thread calls for every packet, with the readings
of the clock it makes.  It does nothing to the context but produce replies to
the packet. -/
structure ReplyHandler where
  handle : NetworkContext → NetPacketBuffer → UInt64 → UInt64 →
    Option NetworkContext
  repliesTo : ∀ {ctx ctx' : NetworkContext} {request : NetPacketBuffer}
    {dwLogicTime now : UInt64},
    handle ctx request dwLogicTime now = some ctx' →
      ∃ replies, RepliesTo request ctx ctx' replies

theorem repliesTo_nil (request : NetPacketBuffer) (ctx : NetworkContext) :
    RepliesTo request ctx ctx [] := by
  refine ⟨?_, fun _ h => nomatch h⟩
  rw [List.append_nil]
  rfl

/-- A packet produced with the ids of the request. -/
theorem repliesTo_packetProduceProtobufPacket {request : NetPacketBuffer}
    {ctx ctx' : NetworkContext} {iProtoNo : Int} {proto : List Byte}
    {now : UInt64}
    (h : ctx.packetProduceProtobufPacket request.ulClientSeq request.iSockFd
      iProtoNo proto now = some ctx') :
    ∃ replies, RepliesTo request ctx ctx' replies := by
  obtain ⟨queue, hadd, rfl⟩ := Option.map_eq_some_iff.mp h
  obtain ⟨-, rfl⟩ := NetPacketQueue.addPacket_eq_some_iff.mp hadd
  refine ⟨[⟨request.ulClientSeq, request.iSockFd, iProtoNo, proto.length, now,
    proto.take proto.length⟩], rfl, ?_⟩
  intro reply hreply
  cases List.mem_singleton.mp hreply
  exact ⟨rfl, rfl⟩

theorem repliesTo_handleCSProto {parser : CSHelloParser}
    {ctx ctx' : NetworkContext} {request : NetPacketBuffer}
    {dwLogicTime now : UInt64}
    (h : handleCSProto parser ctx request dwLogicTime now = some ctx') :
    ∃ replies, RepliesTo request ctx ctx' replies := by
  unfold handleCSProto at h
  split at h
  · exact repliesTo_packetProduceProtobufPacket h
  · cases h
    exact ⟨[], repliesTo_nil request ctx⟩

theorem repliesTo_handleSSProto {ctx ctx' : NetworkContext}
    {request : NetPacketBuffer} {dwTimestamp now : UInt64}
    (h : handleSSProto ctx request dwTimestamp now = some ctx') :
    ∃ replies, RepliesTo request ctx ctx' replies := by
  unfold handleSSProto at h
  split at h
  · exact repliesTo_packetProduceProtobufPacket h
  · cases h
    exact ⟨[], repliesTo_nil request ctx⟩

/-- The handler of the server for game clients. -/
def csHandler (parser : CSHelloParser) : ReplyHandler :=
  ⟨handleCSProto parser, repliesTo_handleCSProto⟩

/-- The handler of the server for other servers. -/
def ssHandler : ReplyHandler :=
  ⟨handleSSProto, repliesTo_handleSSProto⟩

/-! ## Requests and replies under way -/

/-- The queues that packets are not unpacked into. -/
def logicQueues (ctx : NetworkContext) :
    NetPacketQueue × NetPacketQueue × NetPacketQueue × NetPacketQueue :=
  (ctx.netPacketLogicQueue, ctx.netPacketSendPrepareQueue,
    ctx.netPacketSendQueue, ctx.netPacketSendCache)

/-- The packets received that may still be handled. -/
def requestsOf (ctx : NetworkContext) : List NetPacketBuffer :=
  ctx.enqueued ++ ctx.netPacketLogicQueue.vecPacketPool

/-- The packets produced that may still be written. -/
def repliesOf (ctx : NetworkContext) : List NetPacketBuffer :=
  ctx.netPacketSendPrepareQueue.vecPacketPool ++
    ctx.netPacketSendQueue.vecPacketPool ++
    ctx.netPacketSendCache.vecPacketPool

/-- Unpacking works on the receive queues only. -/
theorem logicQueues_unpackPacketToRecvQueue {ctx : NetworkContext}
    {client : ClientContextBuffer} {clock : Nat → UInt64}
    {result : UnpackResult}
    (h : unpackPacketToRecvQueue ctx client clock = some result) :
    logicQueues result.ctx = logicQueues ctx := by
  obtain ⟨loop, -, rfl⟩ := Option.map_eq_some_iff.mp h
  dsimp only
  split_ifs <;> rfl

theorem logicQueues_readRound {api : BuffereventRead} {clock : Nat → UInt64}
    {ctx : NetworkContext} {client : ClientContextBuffer} {input : List Byte}
    {round : ReadRoundResult}
    (h : readRound api clock ctx client input = some round) :
    logicQueues round.ctx = logicQueues ctx := by
  obtain ⟨unpacked, hunpack, rfl⟩ := Option.map_eq_some_iff.mp h
  have hqueues := logicQueues_unpackPacketToRecvQueue hunpack
  dsimp only
  split_ifs
  · exact hqueues
  · exact hqueues

/-- What is copied to a queue was in one of the two queues. -/
theorem vecPacketPool_copyFrom_subset (queue source : NetPacketQueue) :
    (queue.copyFrom source).1.vecPacketPool ⊆ queue.vecPacketPool ++ source.vecPacketPool := by
  unfold NetPacketQueue.copyFrom
  split_ifs
  · exact List.Subset.refl _
  · exact List.subset_append_right _ _

theorem requestsOf_copyPacketsFromNetToLogic (ctx : NetworkContext) :
    requestsOf ctx.copyPacketsFromNetToLogic.1 ⊆ requestsOf ctx := by
  intro packet hpacket
  have hlogic := NetPacketQueue.vecPacketPool_init_copyFrom ctx.netPacketRecvQueue
  simp only [requestsOf, NetworkContext.enqueued,
    NetworkContext.copyPacketsFromNetToLogic, NetPacketQueue.copyFrom_snd,
    NetPacketQueue.vecPacketPool_init, hlogic, List.nil_append,
    List.mem_append] at hpacket ⊢
  tauto

theorem repliesOf_packetSendPrepare (ctx : NetworkContext) :
    repliesOf ctx.packetSendPrepare ⊆ repliesOf ctx := by
  intro packet hpacket
  have hsend := @vecPacketPool_copyFrom_subset ctx.netPacketSendQueue
    ctx.netPacketSendPrepareQueue packet
  simp only [repliesOf, NetworkContext.packetSendPrepare,
    NetPacketQueue.copyFrom_snd, NetPacketQueue.vecPacketPool_init,
    List.nil_append, List.mem_append] at hpacket hsend ⊢
  tauto

theorem repliesOf_packetSendPrepareCache (ctx : NetworkContext) :
    repliesOf ctx.packetSendPrepareCache.1 ⊆ repliesOf ctx := by
  intro packet hpacket
  have hcache := @vecPacketPool_copyFrom_subset ctx.netPacketSendCache ctx.netPacketSendQueue packet
  simp only [repliesOf, NetworkContext.packetSendPrepareCache,
    NetPacketQueue.copyFrom_snd, NetPacketQueue.vecPacketPool_init,
    List.append_nil, List.mem_append] at hpacket hcache ⊢
  tauto

/-! ## The threads -/

/-- Where the network thread stands. -/
inductive ReplyNetPc where
  | idle
  /-- In the loop of `OnBufferEventRead`. -/
  | reading (pstEvtobj pstClientCtx : Nat)
  /-- At the start of `ExecuteCmdSendAllPacket`. -/
  | called
  /-- In its inner loop, before packet `i` of the cache. -/
  | sending (i : Nat)
  /-- Behind `ReleaseAllPackets`. -/
  | released
deriving DecidableEq

/-- Where the logic thread stands. -/
inductive ReplyLogicPc where
  | idle
  /-- About to handle packet `i` of `iPacketNum`. -/
  | handling (i iPacketNum : Nat)
deriving DecidableEq

/-- The server, the position of the two threads and the history.  The numbers
of the connections are found under the addresses of their bufferevents. -/
structure ReplyState where
  server : LibeventState
  net : ReplyNetPc
  logic : ReplyLogicPc
  connections : Nat → Nat
  history : ReplyHistory UInt64 NetPacketBuffer NetPacketBuffer

/-- The actions of the two threads. -/
inductive ReplyAction where
  /-- A connection is accepted. -/
  | accept (accepted : Accepted)
  /-- Bytes arrive on a bufferevent. -/
  | receive (pstEvtobj : Nat) (bytes : List Byte)
  /-- The event callback of a bufferevent runs. -/
  | trigger (pstEvtobj : Nat) (wEvent : UInt16)
  /-- A client is closed for any other reason. -/
  | close (pstClientCtx : Nat)
  /-- The read callback of a bufferevent starts. -/
  | read (pstEvtobj : Nat)
  /-- One round of its loop. -/
  | round (clock : Nat → UInt64)
  /-- The logic thread calls `CopyPacketsFromNetToLogic`. -/
  | copy
  /-- The logic thread handles the next packet. -/
  | handle (dwLogicTime now : UInt64)
  /-- The logic thread calls `PacketSendPrepare`. -/
  | prepare
  /-- The logic thread calls `ReleaseAllPackets` behind the last packet. -/
  | finish
  /-- The network thread calls `ExecuteCmdSendAllPacket`. -/
  | execute
  /-- The first `PacketSendPrepareCache`. -/
  | cache
  /-- The next packet of the cache. -/
  | take
  /-- `ReleaseAllPackets` behind the last one. -/
  | release
  /-- `PacketSendPrepareCache` at the end of the loop, and the loop's test. -/
  | recache

namespace ReplyState

/-- A server without connections. -/
def fresh : ReplyState := ⟨.fresh, .idle, .idle, fun _ => 0, .empty⟩

/-- The server's context. -/
def ctx (s : ReplyState) : NetworkContext := s.server.ctx

/-- The server with other queues. -/
def withCtx (s : ReplyState) (ctx : NetworkContext) : ReplyState :=
  { s with server := { s.server with ctx := ctx } }

/-- The history of an accepted connection starts with its client. -/
def connect (s : ReplyState) (accepted : Accepted) (server : LibeventState) :
    ReplyState :=
  match accepted.bufferEvent with
  -- a socket option or the bufferevent has failed: there is no client
  | none => { s with server := server }
  | some pstEvtObj =>
    { s with
      server := server
      connections := Function.update s.connections pstEvtObj
        s.history.keys.length
      history := s.history.connect accepted.ulClientSeq }

/-- One packet of the cache: `GetClient`, and `PacketBufferSend` of the client
found. -/
def takePacket (s : ReplyState) (packet : NetPacketBuffer) :
    Option ReplyState :=
  match Network.takePacket s.server.clientPool packet with
  | .skipped _ => some s
  | .sent pstClient packet =>
    (s.server.clients pstClient).bind fun client =>
      (s.server.events client.bufferEvent).map fun _ =>
        { s with history :=
            s.history.write (s.connections client.bufferEvent) packet }

variable (api : BuffereventRead) (handler : ReplyHandler)

/-- One action.  `none` means that it is not enabled, that an assertion fails
or that a deleted object is used. -/
def step (s : ReplyState) : ReplyAction → Option ReplyState
  | .accept accepted =>
    if s.net = .idle then
      (s.server.onListenerAcceptConnect accepted).map (s.connect accepted)
    else
      none
  | .receive pstEvtobj bytes =>
    if s.net = .idle then
      (s.server.step api (.receive pstEvtobj bytes)).map fun server =>
        { s with server := server }
    else
      none
  | .trigger pstEvtobj wEvent =>
    if s.net = .idle then
      (s.server.step api (.trigger pstEvtobj wEvent)).map fun server =>
        { s with server := server }
    else
      none
  | .close pstClientCtx =>
    if s.net = .idle then
      (s.server.closeClient pstClientCtx).map fun server =>
        { s with server := server }
    else
      none
  | .read pstEvtobj =>
    if s.net = .idle then
      (s.server.events pstEvtobj).bind fun evt =>
        if evt.enabled then
          match s.server.clientPool.getClientByFd evt.fd with
          -- the callback returns
          | none => some s
          | some pstClientCtx =>
            some { s with net := .reading pstEvtobj pstClientCtx }
        else
          none
    else
      none
  | .round clock =>
    match s.net with
    | .reading pstEvtobj pstClientCtx =>
      (s.server.readRound api pstEvtobj pstClientCtx clock).map
        fun (server, again) =>
          { s with
            server := server
            net := if again then .reading pstEvtobj pstClientCtx else .idle
            -- what this round has put into the receive queues
            history := s.history.receive (s.connections pstEvtobj)
              (server.ctx.enqueued.drop s.ctx.enqueued.length) }
    | _ => none
  | .copy =>
    if s.logic = .idle then
      let copied := s.ctx.copyPacketsFromNetToLogic
      some { s.withCtx copied.1 with logic := .handling 0 copied.2 }
    else
      none
  | .handle dwLogicTime now =>
    match s.logic with
    | .handling i iPacketNum =>
      if i < iPacketNum then
        s.ctx.netPacketLogicQueue.vecPacketPool[i]?.bind fun packet =>
          (handler.handle s.ctx packet dwLogicTime now).map fun ctx =>
            { s.withCtx ctx with
              logic := .handling (i + 1) iPacketNum
              -- what the handler has appended
              history := s.history.produce packet
                (ctx.netPacketSendPrepareQueue.vecPacketPool.drop
                  s.ctx.netPacketSendPrepareQueue.vecPacketPool.length) }
      else
        none
    | .idle => none
  | .prepare => some (s.withCtx s.ctx.packetSendPrepare)
  | .finish =>
    match s.logic with
    | .handling i iPacketNum =>
      if i < iPacketNum then
        none
      else
        some { s.withCtx { s.ctx with netPacketLogicQueue :=
            s.ctx.netPacketLogicQueue.releaseAllPackets } with
          logic := .idle }
    | .idle => none
  | .execute => if s.net = .idle then some { s with net := .called } else none
  | .cache =>
    if s.net = .called then
      some { s.withCtx s.ctx.packetSendPrepareCache.1 with net := .sending 0 }
    else
      none
  | .take =>
    match s.net with
    | .sending i =>
      s.ctx.netPacketSendCache.vecPacketPool[i]?.bind fun packet =>
        (s.takePacket packet).map fun s => { s with net := .sending (i + 1) }
    | _ => none
  | .release =>
    match s.net with
    | .sending i =>
      if i < s.ctx.netPacketSendCache.vecPacketPool.length then
        none
      else
        some { s.withCtx { s.ctx with netPacketSendCache :=
            s.ctx.netPacketSendCache.releaseAllPackets } with
          net := .released }
    | _ => none
  | .recache =>
    if s.net = .released then
      let cached := s.ctx.packetSendPrepareCache
      some { s.withCtx cached.1 with
        net := if cached.2 > 0 then .sending 0 else .idle }
    else
      none

/-- The sequence id given to a connection by an action, if any. -/
def givenSeq : ReplyAction → Option UInt64
  | .accept accepted => accepted.bufferEvent.map fun _ => accepted.ulClientSeq
  | _ => none

/-- A sequence id is given that has not been given before. -/
def NewSeq (s : ReplyState) (a : ReplyAction) : Prop :=
  ∀ seq, givenSeq a = some seq → seq ∉ s.history.keys

/-- There is a client for the connection. -/
def IsOpen (s : ReplyState) (connection : Nat) : Prop :=
  ∃ p client, s.server.clients p = some client ∧
    s.connections client.bufferEvent = connection

/-- The connection has been accepted, and its client has been deleted. -/
def IsClosed (s : ReplyState) (connection : Nat) : Prop :=
  connection < s.history.keys.length ∧ ¬ s.IsOpen connection

/-- What a step can do.  Most steps only move packets between queues or drop
them. -/
inductive Transition (s : ReplyState) : ReplyAction → ReplyState → Prop where
  | accept (accepted : Accepted) (server : LibeventState) (hnet : s.net = .idle)
      (haccept : s.server.onListenerAcceptConnect accepted = some server) :
      Transition s (.accept accepted) (s.connect accepted server)
  /-- A callback leaves the queues alone and may delete clients. -/
  | callback (a : ReplyAction) (server : LibeventState)
      (ha : givenSeq a = none) (hnet : s.net = .idle)
      (hserver : s.server.Inv → server.Inv ∧
        LibeventState.ClientsFrom s.server server ∧ server.ctx = s.ctx) :
      Transition s a { s with server := server }
  | read (ev p : Nat) (evt : Bufferevent) (hevt : s.server.events ev = some evt)
      (henabled : evt.enabled = true)
      (hfd : s.server.clientPool.getClientByFd evt.fd = some p) :
      Transition s (.read ev) { s with net := .reading ev p }
  | round (clock : Nat → UInt64) (ev p : Nat) (server : LibeventState)
      (again : Bool) (hnet : s.net = .reading ev p)
      (hround : s.server.readRound api ev p clock = some (server, again)) :
      Transition s (.round clock)
        { s with
          server := server
          net := if again then .reading ev p else .idle
          history := s.history.receive (s.connections ev)
            (server.ctx.enqueued.drop s.ctx.enqueued.length) }
  | handle (dwLogicTime now : UInt64) (packet : NetPacketBuffer)
      (ctx : NetworkContext) (replies : List NetPacketBuffer)
      (logic : ReplyLogicPc)
      (hpacket : packet ∈ s.ctx.netPacketLogicQueue.vecPacketPool)
      (hreplies : RepliesTo packet s.ctx ctx replies) :
      Transition s (.handle dwLogicTime now)
        { s.withCtx ctx with
          logic := logic
          history := s.history.produce packet replies }
  | take (i : Nat) (packet : NetPacketBuffer) (s₁ : ReplyState)
      (hnet : s.net = .sending i)
      (hpacket : packet ∈ s.ctx.netPacketSendCache.vecPacketPool)
      (htake : s.takePacket packet = some s₁) :
      Transition s .take { s₁ with net := .sending (i + 1) }
  | queues (a : ReplyAction) (ctx : NetworkContext) (net : ReplyNetPc)
      (logic : ReplyLogicPc) (ha : givenSeq a = none)
      (hrecv : s.ctx.netPacketRecvQueue.NoneHidden →
        ctx.netPacketRecvQueue.NoneHidden)
      (hrequests : requestsOf ctx ⊆ requestsOf s.ctx)
      (hreplies : repliesOf ctx ⊆ repliesOf s.ctx)
      (hnet : ∀ ev p, net = .reading ev p → s.net = .reading ev p) :
      Transition s a { s.withCtx ctx with net := net, logic := logic }

section

variable {api : BuffereventRead} {handler : ReplyHandler} {s s' : ReplyState}
  {a : ReplyAction}

/-- A step that only changes where the threads stand. -/
theorem Transition.move (a : ReplyAction) (net : ReplyNetPc)
    (logic : ReplyLogicPc) (ha : givenSeq a = none)
    (hnet : ∀ ev p, net = .reading ev p → s.net = .reading ev p) :
    Transition api s a { s with net := net, logic := logic } :=
  .queues a s.ctx net logic ha id (List.Subset.refl _) (List.Subset.refl _) hnet

/-- Every step is one of these. -/
theorem transition_of_step (h : s.step api handler a = some s') : Transition api s a s' := by
  cases a with
  | accept accepted =>
    simp only [step] at h
    split_ifs at h with hnet
    obtain ⟨server, haccept, rfl⟩ := Option.map_eq_some_iff.mp h
    exact .accept accepted server hnet haccept
  | receive ev bytes =>
    simp only [step] at h
    split_ifs at h with hnet
    obtain ⟨server, hreceive, rfl⟩ := Option.map_eq_some_iff.mp h
    refine .callback _ server rfl hnet fun hinv => ?_
    exact ⟨LibeventState.inv_step api _ (.receive ev bytes) _ hinv trivial
      hreceive, LibeventState.clientsFrom_receive api hreceive⟩
  | trigger ev wEvent =>
    simp only [step] at h
    split_ifs at h with hnet
    obtain ⟨server, htrigger, rfl⟩ := Option.map_eq_some_iff.mp h
    refine .callback _ server rfl hnet fun hinv => ?_
    exact ⟨LibeventState.inv_step api _ (.trigger ev wEvent) _ hinv trivial
      htrigger, LibeventState.clientsFrom_trigger api hinv htrigger⟩
  | close p =>
    simp only [step] at h
    split_ifs at h with hnet
    obtain ⟨server, hclose, rfl⟩ := Option.map_eq_some_iff.mp h
    refine .callback _ server rfl hnet fun hinv => ?_
    exact ⟨LibeventState.inv_closeClient hinv hclose,
      LibeventState.clientsFrom_closeClient hinv hclose⟩
  | read ev =>
    simp only [step] at h
    split_ifs at h with hnet
    obtain ⟨evt, hevt, h⟩ := Option.bind_eq_some_iff.mp h
    split_ifs at h with henabled
    split at h
    · cases h
      exact .move _ s.net s.logic rfl fun _ _ => id
    · rename_i p hfd
      cases h
      exact .read ev p evt hevt henabled hfd
  | round clock =>
    simp only [step] at h
    split at h
    · rename_i ev p hnet
      obtain ⟨⟨server, again⟩, hround, rfl⟩ := Option.map_eq_some_iff.mp h
      exact .round clock ev p server again hnet hround
    · cases h
  | copy =>
    simp only [step] at h
    split_ifs at h
    cases h
    refine .queues _ _ s.net _ rfl (fun _ => ?_)
      (requestsOf_copyPacketsFromNetToLogic s.ctx) (List.Subset.refl _)
      fun _ _ => id
    -- the copy leaves the receive queue initialised
    show (NetPacketQueue.copyFrom _ _).2.NoneHidden
    rw [NetPacketQueue.copyFrom_snd]
    exact NetPacketQueue.counted_init.noneHidden
  | handle dwLogicTime now =>
    simp only [step] at h
    split at h
    · rename_i i iPacketNum hlogic
      split_ifs at h
      obtain ⟨packet, hpacket, h⟩ := Option.bind_eq_some_iff.mp h
      obtain ⟨ctx, hhandle, rfl⟩ := Option.map_eq_some_iff.mp h
      obtain ⟨replies, hreplies⟩ := handler.repliesTo hhandle
      have hdrop : ctx.netPacketSendPrepareQueue.vecPacketPool.drop
          s.ctx.netPacketSendPrepareQueue.vecPacketPool.length = replies := by
        rw [hreplies.1]
        exact List.drop_left
      rw [hdrop]
      exact .handle dwLogicTime now packet ctx replies _ (List.mem_of_getElem? hpacket) hreplies
    · cases h
  | prepare =>
    cases h
    exact .queues _ _ s.net s.logic rfl id (List.Subset.refl _)
      (repliesOf_packetSendPrepare s.ctx) fun _ _ => id
  | finish =>
    simp only [step] at h
    split at h
    · split_ifs at h
      cases h
      refine .queues _ _ s.net _ rfl id ?_ (List.Subset.refl _) fun _ _ => id
      show s.ctx.enqueued ++ [] ⊆ _
      rw [List.append_nil]
      exact List.subset_append_left _ _
    · cases h
  | execute =>
    simp only [step] at h
    split_ifs at h
    cases h
    exact .move _ .called s.logic rfl fun _ _ => nofun
  | cache =>
    simp only [step] at h
    split_ifs at h
    cases h
    exact .queues _ _ _ s.logic rfl id (List.Subset.refl _)
      (repliesOf_packetSendPrepareCache s.ctx) fun _ _ => nofun
  | take =>
    simp only [step] at h
    split at h
    · rename_i i hnet
      obtain ⟨packet, hpacket, h⟩ := Option.bind_eq_some_iff.mp h
      obtain ⟨s₁, htake, rfl⟩ := Option.map_eq_some_iff.mp h
      exact .take i packet s₁ hnet (List.mem_of_getElem? hpacket) htake
    · cases h
  | release =>
    simp only [step] at h
    split at h
    · split_ifs at h
      cases h
      refine .queues _ _ _ s.logic rfl id (List.Subset.refl _) ?_ fun _ _ => nofun
      show s.ctx.netPacketSendPrepareQueue.vecPacketPool ++
        s.ctx.netPacketSendQueue.vecPacketPool ++ [] ⊆ _
      rw [List.append_nil]
      exact List.subset_append_left _ _
    · cases h
  | recache =>
    simp only [step] at h
    split_ifs at h
    · cases h
      exact .queues _ _ _ s.logic rfl id (List.Subset.refl _)
        (repliesOf_packetSendPrepareCache s.ctx) fun _ _ => nofun
    · cases h
      exact .queues _ _ _ s.logic rfl id (List.Subset.refl _)
        (repliesOf_packetSendPrepareCache s.ctx) fun _ _ => nofun

/-- A packet of the cache is written to an open connection with its id, or to
nobody. -/
theorem takePacket_cases {packet : NetPacketBuffer} (h : s.takePacket packet = some s') :
    s' = s ∨ ∃ p client, s.server.clientPool.clientSeqPool packet.ulClientSeq =
        some p ∧ s.server.clients p = some client ∧
      s' = { s with history :=
        s.history.write (s.connections client.bufferEvent) packet } := by
  unfold takePacket Network.takePacket at h
  cases hclient : s.server.clientPool.getClient packet.ulClientSeq with
  | none =>
    rw [hclient] at h
    exact .inl (Option.some.inj h).symm
  | some p =>
    rw [hclient] at h
    obtain ⟨client, hp, h⟩ := Option.bind_eq_some_iff.mp h
    obtain ⟨evt, -, rfl⟩ := Option.map_eq_some_iff.mp h
    exact .inr ⟨p, client, hclient, hp, rfl⟩

/-! ## The rounds of the read callback -/

/-- A round is a step of the network thread. -/
theorem exists_step_round {ev p : Nat} {server : LibeventState} {again : Bool}
    {clock : Nat → UInt64} (hnet : s.net = .reading ev p)
    (hround : s.server.readRound api ev p clock = some (server, again)) :
    ∃ t, s.step api handler (.round clock) = some t ∧ t.server = server ∧
      t.net = (if again then .reading ev p else .idle) ∧
      t.logic = s.logic := by
  rw [step, hnet]
  dsimp only
  rw [hround]
  exact ⟨_, rfl, rfl, rfl, rfl⟩

theorem exists_run_of_rounds {ev p : Nat} {server server' : LibeventState}
    (hrounds : LibeventState.Rounds api ev p server server')
    (hserver : s.server = server) (hnet : s.net = .reading ev p) :
    ∃ rounds t, runSteps (step api handler) s rounds = some t ∧
      t.server = server' ∧ t.net = .idle ∧ t.logic = s.logic := by
  induction hrounds generalizing s with
  | last clock hround =>
    obtain ⟨t, hstep, hend⟩ := exists_step_round hnet (hserver ▸ hround)
    exact ⟨[.round clock], t, runSteps_cons_eq_some_iff.mpr ⟨t, hstep, rfl⟩, hend⟩
  | next clock hround hrest ih =>
    obtain ⟨s₁, hstep, hserver₁, hnet₁, hlogic₁⟩ :=
      exists_step_round hnet (hserver ▸ hround)
    obtain ⟨rounds, t, hrun, hserver', hidle, hlogic⟩ := ih hserver₁ hnet₁
    exact ⟨.round clock :: rounds, t,
      runSteps_cons_eq_some_iff.mpr ⟨s₁, hstep, hrun⟩, hserver', hidle,
      hlogic.trans hlogic₁⟩

/-- **The steps of one callback.**  When nothing comes between them, the steps
of the read callback end where the function `onBufferEventRead` ends. -/
theorem exists_run_onBufferEventRead (h : s.server.Inv) {ev : Nat}
    {evt : Bufferevent} (hnet : s.net = .idle)
    (hevt : s.server.events ev = some evt) (henabled : evt.enabled = true)
    (clock : Nat → Nat → UInt64) {server' : LibeventState}
    (hread : s.server.onBufferEventRead api ev clock = some server') :
    ∃ rounds t, runSteps (step api handler) s (.read ev :: rounds) = some t ∧
      t.server = server' ∧ t.net = .idle ∧ t.logic = s.logic := by
  obtain ⟨p, hfd, hrounds⟩ := LibeventState.rounds_of_onBufferEventRead api h
    hevt henabled clock hread
  obtain ⟨rounds, t, hrun, hend⟩ : ∃ rounds t,
      runSteps (step api handler) { s with net := .reading ev p } rounds =
        some t ∧ t.server = server' ∧ t.net = .idle ∧ t.logic = s.logic :=
    exists_run_of_rounds hrounds rfl rfl
  refine ⟨rounds, t, runSteps_cons_eq_some_iff.mpr ⟨_, ?_, hrun⟩, hend⟩
  simp only [step, hnet, if_true, hevt, Option.bind_some, henabled, hfd]

/-! ## Every reply goes back where its request came from -/

/-- What holds between any two steps. -/
structure Inv (s : ReplyState) : Prop where
  server : s.server.Inv
  /-- A client has the sequence id that was given to its connection. -/
  owns : ∀ {p client}, s.server.clients p = some client →
    s.history.keys[s.connections client.bufferEvent]? =
      some client.ulClientSeq
  /-- The read callback works on the client of its bufferevent. -/
  reading : ∀ {ev p}, s.net = .reading ev p →
    ∃ client, s.server.clients p = some client ∧ client.bufferEvent = ev
  correlates : s.history.Correlates NetPacketBuffer.ulClientSeq
    NetPacketBuffer.ulClientSeq (requestsOf s.ctx) (repliesOf s.ctx)

theorem inv_fresh : Inv fresh where
  server := LibeventState.inv_fresh
  owns := fun h => nomatch h
  reading := fun h => nomatch h
  correlates := ReplyHistory.correlates_empty

/-- Clients that were there before have their id already. -/
theorem Inv.owns_of_clientsFrom (h : s.Inv) {server : LibeventState}
    (hfrom : LibeventState.ClientsFrom s.server server) {p : Nat}
    {client : LibeventClientCtx} (hp : server.clients p = some client) :
    s.history.keys[s.connections client.bufferEvent]? = some client.ulClientSeq := by
  obtain ⟨old, hold, hsame⟩ := hfrom hp
  rw [hsame.bufferEvent, hsame.seq]
  exact h.owns hold

/-- An id that was never given is not in the pool. -/
theorem Inv.clientSeqPool_eq_none (h : s.Inv) {seq : UInt64} (hseq : seq ∉ s.history.keys) :
    s.server.clientPool.clientSeqPool seq = none := by
  by_contra hsome
  obtain ⟨p, hp⟩ := Option.ne_none_iff_exists'.mp hsome
  obtain ⟨client, hclient, rfl⟩ := h.server.bySeq hp
  exact hseq (List.mem_of_getElem? (h.owns hclient))

/-- A connection is accepted. -/
theorem Inv.accept (h : s.Inv) {accepted : Accepted} {server : LibeventState}
    (hnet : s.net = .idle) (hcond : s.NewSeq (.accept accepted))
    (haccept : s.server.onListenerAcceptConnect accepted = some server) :
    (s.connect accepted server).Inv := by
  have hreading : ∀ {ev p}, s.net = .reading ev p →
      ∃ client, server.clients p = some client ∧ client.bufferEvent = ev :=
    fun hread => by rw [hnet] at hread; cases hread
  obtain ⟨s₁, hinv₁, hfrom, hctx, ⟨hnone, hinv, hclients, hctx'⟩ | ⟨ev, hsome, hfree, rfl⟩⟩ :=
    LibeventState.onListenerAcceptConnect_cases h.server haccept
  · -- at most a client with the same descriptor has been closed
    rw [connect, hnone]
    refine ⟨hinv, fun hp => ?_, hreading, ?_⟩
    · exact h.owns_of_clientsFrom hfrom (hclients ▸ hp)
    · show s.history.Correlates _ _ (requestsOf server.ctx) (repliesOf server.ctx)
      rw [hctx', hctx]
      exact h.correlates
  · have hseq : accepted.ulClientSeq ∉ s.history.keys :=
      hcond _ (by rw [givenSeq, hsome, Option.map_some])
    have hinv := LibeventState.inv_onListenerAcceptConnect h.server
      (h.clientSeqPool_eq_none hseq) haccept
    rw [connect, hsome]
    refine ⟨hinv, fun hp => ?_, hreading, ?_⟩
    · rcases update_some_eq_some_iff.mp hp with ⟨rfl, rfl⟩ | ⟨-, hp⟩
      · -- the new client
        show (s.history.keys ++ [accepted.ulClientSeq])[
          Function.update s.connections ev s.history.keys.length ev]? = _
        rw [Function.update_self, List.getElem?_concat_length]
        rfl
      · -- the others keep their bufferevents, and with them their numbers
        have hold := h.owns_of_clientsFrom hfrom hp
        show (s.history.keys ++ [accepted.ulClientSeq])[
          Function.update s.connections ev s.history.keys.length _]? = _
        rw [Function.update_of_ne (hinv₁.bufferEvent_ne hp hfree)]
        exact (List.getElem?_append_left (List.getElem?_eq_some_iff.mp hold).1).trans hold
    · show (s.history.connect _).Correlates _ _ (requestsOf s₁.ctx) (repliesOf s₁.ctx)
      rw [hctx]
      exact h.correlates.connect hseq

/-- One round of the read callback. -/
theorem Inv.round (h : s.Inv) {clock : Nat → UInt64} {ev p : Nat}
    {server : LibeventState} {again : Bool} (hnet : s.net = .reading ev p)
    (hround : s.server.readRound api ev p clock = some (server, again)) :
    Inv { s with
      server := server
      net := if again then .reading ev p else .idle
      history := s.history.receive (s.connections ev)
        (server.ctx.enqueued.drop s.ctx.enqueued.length) } := by
  obtain ⟨client, hp, rfl⟩ := h.reading hnet
  have hinv := LibeventState.inv_readRound api h.server hp clock hround
  obtain ⟨input, round, added, hcall, hunpacks, hctx, hfrom, hagain⟩ :=
    LibeventState.readRound_cases h.server hp hround
  have hqueues := logicQueues_readRound hcall
  have henqueued : server.ctx.enqueued = s.ctx.enqueued ++ added := by
    rw [hctx]
    exact hunpacks.enqueued
  have hlogic : server.ctx.netPacketLogicQueue = s.ctx.netPacketLogicQueue := by
    rw [hctx]
    exact congrArg (fun q => q.1) hqueues
  have hreplies : repliesOf server.ctx = repliesOf s.ctx := by
    rw [hctx]
    exact congrArg (fun q => q.2.1.vecPacketPool ++ q.2.2.1.vecPacketPool ++
      q.2.2.2.vecPacketPool) hqueues
  rw [henqueued, List.drop_left]
  refine ⟨hinv, fun hq => h.owns_of_clientsFrom hfrom hq, ?_, ?_⟩
  · intro ev' p' hread
    cases again with
    | false => cases hread
    | true =>
      cases hread
      exact hagain rfl
  · show (s.history.receive _ added).Correlates _ _ (requestsOf server.ctx) (repliesOf server.ctx)
    rw [hreplies]
    refine h.correlates.receive (h.owns hp)
      (fun packet hpacket => (hunpacks.cameFrom packet hpacket).1) ?_
    intro packet hpacket
    simp only [requestsOf, henqueued, hlogic, List.mem_append] at hpacket ⊢
    tauto

theorem inv_step (s : ReplyState) (a : ReplyAction) (s' : ReplyState)
    (h : s.Inv) (hcond : s.NewSeq a) (hstep : s.step api handler a = some s') :
    s'.Inv := by
  cases transition_of_step hstep with
  | accept accepted server hnet haccept => exact h.accept hnet hcond haccept
  | callback a server ha hnet hserver =>
    obtain ⟨hinv, hfrom, hctx⟩ := hserver h.server
    refine ⟨hinv, fun hp => h.owns_of_clientsFrom hfrom hp, fun hread => ?_, ?_⟩
    · rw [show s.net = _ from hread] at hnet
      cases hnet
    · show s.history.Correlates _ _ (requestsOf server.ctx) (repliesOf server.ctx)
      rw [hctx]
      exact h.correlates
  | read ev p evt hevt henabled hfd =>
    refine ⟨h.server, h.owns, fun hread => ?_, h.correlates⟩
    cases hread
    -- the descriptor of an enabled bufferevent leads to its own client
    obtain ⟨q, client, hq, hclient, hev, -⟩ :=
      h.server.exists_client hevt henabled
    rw [hfd] at hq
    cases hq
    exact ⟨client, hclient, hev⟩
  | round clock ev p server again hnet hround => exact h.round hnet hround
  | handle dwLogicTime now packet ctx replies logic hpacket hreplies =>
    obtain ⟨rfl, hstamped⟩ := hreplies
    refine ⟨LibeventState.inv_withCtx h.server h.server.recv, h.owns, h.reading, ?_⟩
    refine h.correlates.produce (List.mem_append_right _ hpacket)
      (fun reply hreply => (hstamped reply hreply).1) ?_
    intro reply hreply
    simp only [repliesOf, ReplyState.ctx, withCtx, List.mem_append] at hreply ⊢
    tauto
  | take i packet s₁ hnet hpacket htake =>
    obtain rfl | ⟨p, client, hseq, hp, rfl⟩ := takePacket_cases htake
    · exact ⟨h.server, h.owns, fun hread => (nomatch hread), h.correlates⟩
    · refine ⟨h.server, h.owns, fun hread => (nomatch hread), ?_⟩
      -- the client found has the packet's id, and so has its connection
      obtain ⟨client', hp', hid⟩ := h.server.bySeq hseq
      rw [hp] at hp'
      cases hp'
      have howns := h.owns hp
      rw [hid] at howns
      exact h.correlates.write (List.mem_append_right _ hpacket) howns
  | queues a ctx net logic ha hrecv hrequests hreplies hnet =>
    exact ⟨LibeventState.inv_withCtx h.server (hrecv h.server.recv), h.owns,
      fun hread => h.reading (hnet _ _ hread),
      h.correlates.subset hrequests hreplies⟩

/-! ## A closed connection stays closed -/

theorem isOpen_of_clientsFrom {server : LibeventState} {connection : Nat}
    (hfrom : LibeventState.ClientsFrom s.server server)
    (hopen : IsOpen { s with server := server } connection) :
    s.IsOpen connection := by
  obtain ⟨p, client, hp, hconnection⟩ := hopen
  obtain ⟨old, hold, hsame⟩ := hfrom hp
  exact ⟨p, old, hold, hsame.bufferEvent ▸ hconnection⟩

/-- No step opens a connection that has been accepted before. -/
theorem isClosed_step {connection : Nat} (h : s.Inv)
    (hstep : s.step api handler a = some s') (hclosed : s.IsClosed connection) :
    s'.IsClosed connection := by
  obtain ⟨haccepted, hgone⟩ := hclosed
  cases transition_of_step hstep with
  | accept accepted server hnet haccept =>
    obtain ⟨s₁, hinv₁, hfrom, -, ⟨hnone, -, hclients, -⟩ | ⟨ev, hsome, hfree, rfl⟩⟩ :=
      LibeventState.onListenerAcceptConnect_cases h.server haccept
    · rw [connect, hnone]
      refine ⟨haccepted, fun hopen => hgone (isOpen_of_clientsFrom ?_ hopen)⟩
      exact fun hp => hfrom (hclients ▸ hp)
    · rw [connect, hsome]
      refine ⟨?_, ?_⟩
      · show connection < (s.history.keys ++ [accepted.ulClientSeq]).length
        rw [List.length_append]
        omega
      · rintro ⟨p, client, hp, hconnection⟩
        have hupdate : Function.update s.connections ev
            s.history.keys.length client.bufferEvent = connection :=
          hconnection
        rcases update_some_eq_some_iff.mp hp with ⟨rfl, rfl⟩ | ⟨-, hp⟩
        · -- the new connection has the next number
          rw [Function.update_self] at hupdate
          omega
        · rw [Function.update_of_ne (hinv₁.bufferEvent_ne hp hfree)] at hupdate
          obtain ⟨old, hold, hsame⟩ := hfrom hp
          exact hgone ⟨p, old, hold, hsame.bufferEvent ▸ hupdate⟩
  | callback a server ha hnet hserver =>
    obtain ⟨-, hfrom, -⟩ := hserver h.server
    exact ⟨haccepted, fun hopen => hgone (isOpen_of_clientsFrom hfrom hopen)⟩
  | read ev p evt hevt henabled hfd => exact ⟨haccepted, hgone⟩
  | round clock ev p server again hnet hround =>
    obtain ⟨client, hp, rfl⟩ := h.reading hnet
    obtain ⟨-, -, -, -, -, -, hfrom, -⟩ :=
      LibeventState.readRound_cases h.server hp hround
    exact ⟨haccepted, fun hopen => hgone (isOpen_of_clientsFrom hfrom hopen)⟩
  | handle dwLogicTime now packet ctx replies logic hpacket hreplies =>
    exact ⟨haccepted, hgone⟩
  | take i packet s₁ hnet hpacket htake =>
    obtain rfl | ⟨p, client, hseq, hp, rfl⟩ := takePacket_cases htake
    · exact ⟨haccepted, hgone⟩
    · exact ⟨haccepted, hgone⟩
  | queues a ctx net logic ha hrecv hrequests hreplies hnet =>
    exact ⟨haccepted, hgone⟩

/-- A step writes at most one packet, to an open connection. -/
theorem written_step (hstep : s.step api handler a = some s') :
    s'.history.written = s.history.written ∨ ∃ connection packet, s.IsOpen connection ∧
        s'.history.written = s.history.written ++ [(connection, packet)] := by
  cases transition_of_step hstep with
  | accept accepted server hnet haccept =>
    left
    unfold connect
    split <;> rfl
  | take i packet s₁ hnet hpacket htake =>
    obtain rfl | ⟨p, client, hseq, hp, rfl⟩ := takePacket_cases htake
    · exact .inl rfl
    · exact .inr ⟨_, packet, ⟨p, client, hp, rfl⟩, rfl⟩
  | callback => exact .inl rfl
  | read => exact .inl rfl
  | round => exact .inl rfl
  | handle => exact .inl rfl
  | queues => exact .inl rfl

/-- What has happened since `s`: closed connections have stayed closed, and
nothing has been written to them. -/
structure Since (s s' : ReplyState) : Prop where
  inv : s'.Inv
  closed : ∀ {connection}, s.IsClosed connection → s'.IsClosed connection
  written : ∃ more, s'.history.written = s.history.written ++ more ∧
    ∀ connection packet, (connection, packet) ∈ more →
      ¬ s.IsClosed connection

theorem since_refl (h : s.Inv) : Since s s :=
  ⟨h, id, [], (List.append_nil _).symm, fun _ _ hmem => nomatch hmem⟩

theorem since_step (s s₁ : ReplyState) (a : ReplyAction) (s' : ReplyState)
    (h : Since s s₁) (hcond : s₁.NewSeq a)
    (hstep : s₁.step api handler a = some s') : Since s s' := by
  obtain ⟨more, hmore, hnone⟩ := h.written
  refine ⟨inv_step s₁ a s' h.inv hcond hstep,
    fun hclosed => isClosed_step h.inv hstep (h.closed hclosed), ?_⟩
  obtain hsame | ⟨connection, packet, hopen, hadd⟩ := written_step hstep
  · exact ⟨more, hsame.trans hmore, hnone⟩
  · refine ⟨more ++ [(connection, packet)], ?_, ?_⟩
    · rw [hadd, hmore, List.append_assoc]
    · intro connection' packet' hmem
      rcases List.mem_append.mp hmem with hold | hnew
      · exact hnone connection' packet' hold
      · -- what was closed at `s` is closed still, and this one is open
        cases List.mem_singleton.mp hnew
        exact fun hclosed => (h.closed hclosed).2 hopen

end

/-! ## Distinct sequence ids -/

/-- The sequence ids that a run gives to connections. -/
def givenSeqs (actions : List ReplyAction) : List UInt64 :=
  actions.filterMap givenSeq

section

variable {api : BuffereventRead} {handler : ReplyHandler}

theorem keys_step {s s' : ReplyState} {a : ReplyAction} (hstep : s.step api handler a = some s') :
    s'.history.keys = s.history.keys ++ (givenSeq a).toList := by
  cases transition_of_step hstep with
  | accept accepted server hnet haccept =>
    rw [givenSeq]
    unfold connect
    cases accepted.bufferEvent with
    | none => exact (List.append_nil _).symm
    | some ev => rfl
  | callback a server ha hnet hserver =>
    rw [ha]
    exact (List.append_nil _).symm
  | queues a ctx net logic ha hrecv hrequests hreplies hnet =>
    rw [ha]
    exact (List.append_nil _).symm
  | take i packet s₁ hnet hpacket htake =>
    obtain rfl | ⟨p, client, hseq, hp, rfl⟩ := takePacket_cases htake
    · exact (List.append_nil _).symm
    · exact (List.append_nil _).symm
  | read => exact (List.append_nil _).symm
  | round => exact (List.append_nil _).symm
  | handle => exact (List.append_nil _).symm

/-- When the ids that the actions give are distinct, each of them is new. -/
theorem runMeets_newSeq {s : ReplyState} {actions : List ReplyAction}
    (h : (s.history.keys ++ givenSeqs actions).Nodup) :
    RunMeets (step api handler) NewSeq s actions := by
  induction actions generalizing s with
  | nil => trivial
  | cons a rest ih =>
    have hsplit : givenSeqs (a :: rest) = (givenSeq a).toList ++ givenSeqs rest := by
      unfold givenSeqs
      cases hseq : givenSeq a with
      | none => rw [List.filterMap_cons_none hseq]; rfl
      | some seq => rw [List.filterMap_cons_some hseq]; rfl
    rw [hsplit, ← List.append_assoc] at h
    refine ⟨?_, fun s' hstep => ih ?_⟩
    · intro seq hseq hold
      rw [hseq] at h
      exact (List.nodup_append.mp (List.nodup_append.mp h).1).2.2 seq hold seq
        (List.mem_singleton_self seq) rfl
    · rw [keys_step hstep]
      exact h

end

/-- **Replies never reach the wrong client.**  Consider any run in which the
sequence ids given to connections are distinct, and any point of it.  Every
packet written to a bufferevent answers a packet that was received on the same
connection.  No packet written after that point goes to a connection that was
closed by then, nor answers a packet that was received on such a connection. -/
theorem replies_reach_their_connection (api : BuffereventRead)
    (handler : ReplyHandler) (first later : List ReplyAction)
    (s s' : ReplyState)
    (hdistinct : (givenSeqs (first ++ later)).Nodup)
    (hfirst : runSteps (step api handler) fresh first = some s)
    (hlater : runSteps (step api handler) s later = some s') :
    (∀ connection reply, (connection, reply) ∈ s'.history.written →
        s'.history.Answers connection reply) ∧
      ∃ more, s'.history.written = s.history.written ++ more ∧
        ∀ closed, s.IsClosed closed → ∀ connection reply, (connection, reply) ∈ more →
            connection ≠ closed ∧ ¬ s'.history.Answers closed reply := by
  have hmeets : RunMeets (step api handler) NewSeq fresh (first ++ later) :=
    runMeets_newSeq hdistinct
  obtain ⟨hmeets₁, hmeets₂⟩ := runMeets_append.mp hmeets
  have hinv : s.Inv := runSteps_invariant_of_meets inv_step inv_fresh hmeets₁ hfirst
  have hsince : Since s s' := runSteps_invariant_of_meets (since_step s)
    (since_refl hinv) (hmeets₂ s hfirst) hlater
  obtain ⟨more, hmore, hnone⟩ := hsince.written
  refine ⟨hsince.inv.correlates.written, more, hmore, ?_⟩
  intro closed hclosed connection reply hmem
  have hne : connection ≠ closed := by
    rintro rfl
    exact hnone connection reply hmem hclosed
  -- a reply answers only one connection, since their ids are distinct
  have hwritten : (connection, reply) ∈ s'.history.written := by
    rw [hmore]
    exact List.mem_append_right _ hmem
  exact ⟨hne, hsince.inv.correlates.not_answers_of_ne hwritten hne⟩

/-- A connection whose id is not in the pool is closed. -/
theorem Inv.isClosed_of_getClient {s : ReplyState} (h : s.Inv)
    {connection : Nat} {seq : UInt64}
    (hkey : s.history.keys[connection]? = some seq)
    (hnone : s.server.clientPool.getClient seq = none) :
    s.IsClosed connection := by
  refine ⟨(List.getElem?_eq_some_iff.mp hkey).1, ?_⟩
  rintro ⟨p, client, hp, rfl⟩
  rw [h.owns hp] at hkey
  cases hkey
  rw [show s.server.clientPool.getClient client.ulClientSeq = some p from
    (h.server.registered hp).2] at hnone
  cases hnone

/-! ## A descriptor that is used again -/

/-- Two hellos of another server, as they arrive. -/
def twoHellos : List Byte := [0, 5, 78, 33, 7, 0, 5, 78, 33, 8]

theorem length_twoHellos_le : twoHellos.length ≤ contextBufferCapacity := by
  decide

/-- The buffer they are read into. -/
def helloBuffer : ClientContextBuffer :=
  .ofContent 1 7 twoHellos length_twoHellos_le

/-- The queues of the server when they have been unpacked. -/
def helloCtx : NetworkContext :=
  { NetworkContext.construct with
    netPacketRecvQueue :=
      ⟨2, [⟨1, 7, 20001, 1, 5, [7]⟩, ⟨1, 7, 20001, 1, 5, [8]⟩]⟩
    bHasSignal := true }

theorem unpack_helloBuffer :
    unpackPacketToRecvQueue .construct helloBuffer (fun _ => 5) =
      some ⟨helloCtx, helloBuffer.moveBufferPtr 10 0, 0⟩ := by
  rw [unpackPacketToRecvQueue, unpackLoop_of_packet rfl rfl,
    unpackLoop_of_packet rfl rfl, unpackLoop_of_incomplete _ _ rfl]
  rfl

theorem readRound_twoHellos :
    readRound .ofList (fun _ => 5) .construct (.construct 1 7) twoHellos =
      some ⟨helloCtx, (packetBufferRead .ofList
        (helloBuffer.moveBufferPtr 10 0) []).client, [], 0, false⟩ := by
  rw [readRound, packetBufferRead_construct .ofList 1 7 length_twoHellos_le]
  show Option.map _ (unpackPacketToRecvQueue .construct helloBuffer _) = _
  rw [unpack_helloBuffer]
  rfl

/-- A server connects, sends two hellos, and the read callback starts. -/
def arriving : List ReplyAction :=
  [.accept ⟨7, some 0, 0, 0, 1⟩, .receive 0 twoHellos, .read 0]

/-- The state it starts from. -/
def arrived : ReplyState :=
  (runSteps (step .ofList ssHandler) fresh arriving).getD fresh

/-- The state it leaves. -/
def unpacked : ReplyState :=
  { arrived with
    server := arrived.server.withClient helloCtx 0
      ⟨(packetBufferRead .ofList (helloBuffer.moveBufferPtr 10 0) []).client, 0⟩
      ⟨7, [], true, twoHellos⟩
    net := .idle
    history := arrived.history.receive 0 helloCtx.enqueued }

theorem step_arrived : arrived.step .ofList ssHandler (.round fun _ => 5) = some unpacked := by
  have hnet : arrived.net = .reading 0 0 := rfl
  have hclient : arrived.server.clients 0 = some ⟨.construct 1 7, 0⟩ := rfl
  have hround := LibeventState.readRound_of_round hclient rfl readRound_twoHellos
  simp only [step, hnet]
  rw [show arrived.server.readRound _ 0 0 _ = _ from hround]
  rfl

/-- One hello is answered and its reply written.  The reply to the other one is
still queued when the client is closed and a new connection gets the same
descriptor. -/
def answering : List ReplyAction :=
  [.copy, .handle 6 7, .prepare, .execute, .cache, .take, .release, .recache,
    .handle 8 9, .prepare, .close 0, .accept ⟨7, some 1, 0, 1, 2⟩]

/-- The queued reply is taken. -/
def taking : List ReplyAction :=
  [.execute, .cache, .take, .release, .recache]

/-- The reply written answers the connection that is closed now.  The queued
one is written to nobody, although there is a client with its descriptor. -/
theorem replies_reach_their_connection_same_fd :
    ∃ s s', runSteps (step .ofList ssHandler) fresh
        (arriving ++ .round (fun _ => 5) :: answering) = some s ∧
      runSteps (step .ofList ssHandler) s taking = some s' ∧ s.IsClosed 0 ∧
      s.server.clientPool.getClientByFd 7 = some 1 ∧
      repliesOf s.ctx = [⟨1, 7, 20002, 2, 9, [8, 8]⟩] ∧
      s'.history.written = [(0, ⟨1, 7, 20002, 2, 7, [8, 6]⟩)] ∧
      s'.history.Answers 0 ⟨1, 7, 20002, 2, 7, [8, 6]⟩ := by
  have hview : ((runSteps (step .ofList ssHandler) unpacked answering).bind
      fun s => (runSteps (step .ofList ssHandler) s taking).map fun s' =>
        ((s.history.keys, s.server.clientPool.getClient 1, s.server.clientPool.getClientByFd 7),
          (repliesOf s.ctx, s'.history.written))) =
      some (([1, 2], none, some 1), ([⟨1, 7, 20002, 2, 9, [8, 8]⟩],
          [(0, ⟨1, 7, 20002, 2, 7, [8, 6]⟩)])) := by
    decide +kernel
  obtain ⟨s, hanswering, hview⟩ := Option.bind_eq_some_iff.mp hview
  obtain ⟨s', htaking, hview⟩ := Option.map_eq_some_iff.mp hview
  simp only [Prod.mk.injEq] at hview
  obtain ⟨⟨hkeys, hgone, hfd⟩, hqueued, hwritten⟩ := hview
  have hfirst : runSteps (step .ofList ssHandler) fresh
      (arriving ++ .round (fun _ => 5) :: answering) = some s := by
    have harrived : runSteps (step .ofList ssHandler) fresh arriving = some arrived := rfl
    rw [runSteps_append, harrived, Option.bind_some]
    exact runSteps_cons_eq_some_iff.mpr ⟨unpacked, step_arrived, hanswering⟩
  have hreplies := replies_reach_their_connection .ofList ssHandler
    (arriving ++ .round (fun _ => 5) :: answering) taking s s'
    (by decide) hfirst htaking
  have hinv : s.Inv := runSteps_invariant_of_meets inv_step inv_fresh
    (runMeets_newSeq (by decide)) hfirst
  refine ⟨s, s', hfirst, htaking, ?_, hfd, hqueued, hwritten, ?_⟩
  · exact hinv.isClosed_of_getClient (by rw [hkeys]; rfl) hgone
  · exact hreplies.1 0 _ (by rw [hwritten]; exact List.mem_singleton_self _)

end ReplyState

end Gamehandle
end GameServer
