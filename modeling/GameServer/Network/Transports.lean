import GameServer.Network.LibeventServer
import GameServer.Network.SendPath

/-!
# The two kinds of clients

`ClientContext` has two implementations, `LibeventClientCtx` and
`SocketClientCtx` of `socket_ctx.h`.  The pool registers a client under what
its `GetClientSeq()` returns, while `UnpackPacketToRecvQueue` stamps packets
with the sequence id in the client's receive buffer.  `LibeventClientCtx` keeps
one id, in the buffer.  `SocketClientCtx` has an id of its own next to the
buffer and never writes the buffer's.

So a reply to a packet finds its way back over libevent, and over the socket
server only for the client that happens to have the id zero.
-/

namespace GameServer
namespace Network

open Lib

/-- `SocketClientCtx`. -/
structure SocketClientCtx where
  ulClientUniqSeq : UInt64
  contextBuffer : ClientContextBuffer

namespace SocketClientCtx

/-- The constructor, with the id that `GenerateSeqID` returns. -/
def construct (iClientFd : Int) (ulSeqID : UInt64) : SocketClientCtx where
  ulClientUniqSeq := ulSeqID
  contextBuffer := .construct 0 iClientFd

/-- `PacketBufferRead`, with the value it returns. -/
def packetBufferRead (client : SocketClientCtx) (pchBuffer : List Byte) :
    SocketClientCtx × Int :=
  let iLeftSpace : Int :=
    contextBufferCapacity - client.contextBuffer.iBufferSize
  if iLeftSpace < pchBuffer.length then
    (client, -1)
  else
    ({ client with contextBuffer := client.contextBuffer.append pchBuffer },
      pchBuffer.length)

end SocketClientCtx

/-- The implementations of `ClientContext`. -/
inductive Transport where
  | libevent
  | socket
deriving Repr, DecidableEq

/-- `ClientContext`. -/
inductive ClientContext where
  | libevent (client : LibeventClientCtx)
  | socket (client : SocketClientCtx)

namespace ClientContext

/-- A new client with the id that `GenerateSeqID` returns. -/
def create (transport : Transport) (ulSeqID : UInt64) (iClientFd : Int)
    (pstBufferEvent : Nat) : ClientContext :=
  match transport with
  -- only this constructor passes the id on to the buffer
  | .libevent => .libevent ⟨.construct ulSeqID iClientFd, pstBufferEvent⟩
  | .socket => .socket (.construct iClientFd ulSeqID)

/-- `GetContextBuffer`. -/
def contextBuffer : ClientContext → ClientContextBuffer
  | .libevent client => client.contextBuffer
  | .socket client => client.contextBuffer

/-- The client after its buffer has been changed through `GetContextBuffer`. -/
def setContextBuffer (buffer : ClientContextBuffer) :
    ClientContext → ClientContext
  | .libevent client => .libevent { client with contextBuffer := buffer }
  | .socket client => .socket { client with contextBuffer := buffer }

/-- `GetClientSeq`. -/
def ulClientSeq : ClientContext → UInt64
  | .libevent client => client.ulClientSeq
  | .socket client => client.ulClientUniqSeq

/-- `GetClientFd`. -/
def iClientFd (client : ClientContext) : Int :=
  client.contextBuffer.iClientFd

/-- `PacketBufferRead` for bytes that have arrived. -/
def packetBufferRead (api : BuffereventRead) (bytes : List Byte) :
    ClientContext → ClientContext
  | .libevent client => .libevent { client with
      contextBuffer := (Network.packetBufferRead api client.contextBuffer
        bytes).client }
  | .socket client => .socket (client.packetBufferRead bytes).1

@[simp] theorem contextBuffer_setContextBuffer (client : ClientContext)
    (buffer : ClientContextBuffer) :
    (client.setContextBuffer buffer).contextBuffer = buffer := by
  cases client <;> rfl

@[simp] theorem ulClientSeq_create (transport : Transport) (ulSeqID : UInt64)
    (iClientFd : Int) (pstBufferEvent : Nat) :
    (create transport ulSeqID iClientFd pstBufferEvent).ulClientSeq =
      ulSeqID := by
  cases transport <;> rfl

/-- The id that packets of a new client are stamped with. -/
def stampOf (transport : Transport) (ulSeqID : UInt64) : UInt64 :=
  match transport with
  | .libevent => ulSeqID
  | .socket => 0

theorem contextBuffer_create (transport : Transport) (ulSeqID : UInt64)
    (iClientFd : Int) (pstBufferEvent : Nat) :
    (create transport ulSeqID iClientFd pstBufferEvent).contextBuffer =
      .construct (stampOf transport ulSeqID) iClientFd := by
  cases transport <;> rfl

/-- Reading leaves the ids in the buffer alone and stays in bounds. -/
theorem packetBufferRead_spec (api : BuffereventRead) (bytes : List Byte)
    {client : ClientContext} {ulClientSeq : UInt64} {iClientFd : Int}
    (hbounds : client.contextBuffer.InBounds)
    (howned : client.contextBuffer.OwnedBy ulClientSeq iClientFd) :
    (client.packetBufferRead api bytes).contextBuffer.InBounds ∧
      (client.packetBufferRead api bytes).contextBuffer.OwnedBy ulClientSeq
        iClientFd := by
  cases client with
  | libevent client =>
    exact ⟨inBounds_packetBufferRead api hbounds bytes, ownedBy_packetBufferRead api howned bytes⟩
  | socket client =>
    simp only [packetBufferRead, SocketClientCtx.packetBufferRead]
    split_ifs with hfull
    · exact ⟨hbounds, howned⟩
    · refine ⟨ClientContextBuffer.inBounds_append hbounds ?_, howned⟩
      show bytes.length ≤ client.contextBuffer.freeSpace
      unfold ClientContextBuffer.freeSpace
      omega

/-- A small block is stored as a whole. -/
theorem content_packetBufferRead_of_fits (api : BuffereventRead)
    {bytes : List Byte} {client : ClientContext}
    (hbounds : client.contextBuffer.InBounds)
    (hfits : bytes.length ≤ client.contextBuffer.freeSpace) :
    (client.packetBufferRead api bytes).contextBuffer.content =
      client.contextBuffer.content ++ bytes := by
  cases client with
  | libevent client =>
    have hcontent := content_packetBufferRead api hbounds bytes
    rw [List.take_of_length_le hfits] at hcontent
    exact hcontent
  | socket client =>
    have hroom : ¬ (contextBufferCapacity : Int) -
        client.contextBuffer.iBufferSize < bytes.length := by
      have hspace : bytes.length ≤ client.contextBuffer.freeSpace := hfits
      have hhigh : client.contextBuffer.InBounds := hbounds
      unfold ClientContextBuffer.freeSpace at hspace
      unfold ClientContextBuffer.InBounds at hhigh
      omega
    simp only [packetBufferRead, SocketClientCtx.packetBufferRead, if_neg hroom]
    exact ClientContextBuffer.content_append hbounds hfits

end ClientContext

/-! ## What is received from one client -/

/-- A server context, a client, and the packets unpacked from its buffer. -/
structure ClientState where
  ctx : NetworkContext
  client : ClientContext
  unpacked : List NetPacketBuffer

/-- Bytes are read into the client's buffer, or it is unpacked. -/
inductive ClientAction where
  | read (bytes : List Byte)
  | unpack (clock : Nat → UInt64)

namespace ClientState

variable (api : BuffereventRead)

/-- One action. -/
def step (s : ClientState) : ClientAction → Option ClientState
  | .read bytes => some { s with
      client := s.client.packetBufferRead api bytes }
  | .unpack clock =>
    (unpackPacketToRecvQueue s.ctx s.client.contextBuffer clock).map
      fun result =>
        { ctx := result.ctx
          client := s.client.setContextBuffer result.client
          unpacked := s.unpacked ++
            result.ctx.enqueued.drop s.ctx.enqueued.length }

/-- The buffer keeps its ids, and all packets carry them. -/
structure Inv (ulClientSeq : UInt64) (iClientFd : Int) (s : ClientState) :
    Prop where
  recv : s.ctx.netPacketRecvQueue.NoneHidden
  inBounds : s.client.contextBuffer.InBounds
  ownedBy : s.client.contextBuffer.OwnedBy ulClientSeq iClientFd
  stamped : ∀ packet ∈ s.unpacked, packet.ulClientSeq = ulClientSeq

variable {ulClientSeq : UInt64} {iClientFd : Int} {s : ClientState}

/-- Unpacking the buffer. -/
theorem Inv.unpack (h : s.Inv ulClientSeq iClientFd) (clock : Nat → UInt64) :
    ∃ s' added, s.step api (.unpack clock) = some s' ∧
      s'.Inv ulClientSeq iClientFd ∧ s'.unpacked = s.unpacked ++ added ∧
      added.map NetPacketBuffer.wire = (referenceParse s.client.contextBuffer.content).packets := by
  obtain ⟨result, added, hcall, henqueued, hwire, hcame, -, -, -, hbounds,
      howner, hhidden⟩ := unpackPacketToRecvQueue_spec h.recv h.inBounds clock
  obtain ⟨hseq, hfd⟩ := h.ownedBy
  rw [hseq, hfd] at howner
  have hstep : s.step api (.unpack clock) = some
      { ctx := result.ctx
        client := s.client.setContextBuffer result.client
        unpacked := s.unpacked ++ added } := by
    simp only [step, hcall, Option.map_some, henqueued, List.drop_left]
  refine ⟨_, added, hstep, ⟨hhidden, ?_, ?_, ?_⟩, rfl, hwire⟩
  · simpa using hbounds
  · simpa using howner
  · intro packet hpacket
    obtain hold | hnew := List.mem_append.mp hpacket
    · exact h.stamped packet hold
    · rw [(hcame packet hnew).1, hseq]

theorem inv_step (s : ClientState) (a : ClientAction) (s' : ClientState)
    (h : s.Inv ulClientSeq iClientFd) (hstep : s.step api a = some s') :
    s'.Inv ulClientSeq iClientFd := by
  cases a with
  | read bytes =>
    cases hstep
    obtain ⟨hbounds, howned⟩ := ClientContext.packetBufferRead_spec api bytes h.inBounds h.ownedBy
    exact ⟨h.recv, hbounds, howned, h.stamped⟩
  | unpack clock =>
    obtain ⟨s₁, -, hunpack, hinv, -⟩ := h.unpack api clock
    rw [hunpack] at hstep
    cases hstep
    exact hinv

/-- A new client of a server. -/
def accepted (ctx : NetworkContext) (transport : Transport)
    (ulSeqID : UInt64) (iClientFd : Int) (pstBufferEvent : Nat) :
    ClientState :=
  ⟨ctx, .create transport ulSeqID iClientFd pstBufferEvent, []⟩

theorem inv_accepted {ctx : NetworkContext}
    (hctx : ctx.netPacketRecvQueue.NoneHidden) (transport : Transport)
    (ulSeqID : UInt64) (iClientFd : Int) (pstBufferEvent : Nat) :
    (accepted ctx transport ulSeqID iClientFd pstBufferEvent).Inv
      (ClientContext.stampOf transport ulSeqID) iClientFd := by
  refine ⟨hctx, ?_, ?_, fun _ hpacket => nomatch hpacket⟩
  · show (ClientContext.create _ _ _ _).contextBuffer.InBounds
    rw [ClientContext.contextBuffer_create]
    exact ClientContextBuffer.inBounds_construct _ _
  · show (ClientContext.create _ _ _ _).contextBuffer.OwnedBy _ _
    rw [ClientContext.contextBuffer_create]
    exact ⟨rfl, rfl⟩

/-- A client can send a packet. -/
theorem exists_unpacked {ctx : NetworkContext}
    (hctx : ctx.netPacketRecvQueue.NoneHidden) (transport : Transport)
    (ulSeqID : UInt64) (iClientFd : Int) (pstBufferEvent : Nat) :
    ∃ s packet, runSteps (step api) (accepted ctx transport ulSeqID iClientFd pstBufferEvent)
        [.read (frameOf 1 [7]), .unpack fun _ => 0] = some s ∧
      packet ∈ s.unpacked ∧
      packet.ulClientSeq = ClientContext.stampOf transport ulSeqID := by
  have hinv := inv_accepted hctx transport ulSeqID iClientFd pstBufferEvent
  obtain ⟨s₁, hread⟩ : ∃ s₁, (accepted ctx transport ulSeqID iClientFd pstBufferEvent).step api
        (.read (frameOf 1 [7])) = some s₁ := ⟨_, rfl⟩
  have hcontent : s₁.client.contextBuffer.content = frameOf 1 [7] := by
    cases hread
    refine (ClientContext.content_packetBufferRead_of_fits api hinv.inBounds ?_).trans ?_
    · show _ ≤ (ClientContext.create _ _ _ _).contextBuffer.freeSpace
      rw [ClientContext.contextBuffer_create, ClientContextBuffer.freeSpace_construct]
      decide
    · show (ClientContext.create _ _ _ _).contextBuffer.content ++ _ = _
      rw [ClientContext.contextBuffer_create]
      rfl
  have hinv₁ := inv_step api _ _ s₁ hinv hread
  obtain ⟨s, added, hunpack, hinv', hunpacked, hwire⟩ :=
    hinv₁.unpack api fun _ => 0
  have hframe : scanFrame (frameOf 1 [7] ++ []) = .frame (1, [7]) [] :=
    scanFrame_frameOf_append (by decide) (by decide) (by decide) (by decide) []
  rw [List.append_nil] at hframe
  rw [hcontent, referenceParse_of_frame hframe] at hwire
  obtain ⟨packet, hpacket⟩ : ∃ packet, packet ∈ added := by
    apply List.exists_mem_of_ne_nil
    rintro rfl
    cases hwire
  have hmem : packet ∈ s.unpacked := by
    rw [hunpacked]
    exact List.mem_append_right _ hpacket
  refine ⟨s, packet, ?_, hmem, hinv'.stamped packet hmem⟩
  rw [runSteps_cons, hread, Option.bind_some, runSteps_cons, hunpack,
    Option.bind_some, runSteps_nil]

end ClientState

/-! ## The way back -/

namespace ClientContextPool

/-- The client is in the pool, under this id. -/
def RegisteredUnder (pool : ClientContextPool Nat) (p : Nat)
    (ulClientSeq : UInt64) : Prop :=
  ∀ key, pool.getClient key = some p ↔ key = ulClientSeq

/-- `AddClient` registers a new client under its id. -/
theorem registeredUnder_addClient {pool : ClientContextPool Nat} {p : Nat}
    {ulClientSeq : UInt64} (hnew : ∀ key, pool.getClient key ≠ some p)
    (hfree : pool.getClient ulClientSeq = none) (iClientFd : Int) :
    (pool.addClient ulClientSeq p iClientFd).RegisteredUnder p ulClientSeq := by
  intro key
  show mapInsert pool.clientSeqPool ulClientSeq p key = some p ↔ _
  have hkeyFree : pool.clientSeqPool ulClientSeq = none := hfree
  rw [mapInsert_of_none hkeyFree, update_some_eq_some_iff]
  constructor
  · rintro (⟨rfl, -⟩ | ⟨-, hold⟩)
    · rfl
    · exact (hnew key hold).elim
  · intro hkey
    exact .inl ⟨hkey, rfl⟩

/-- A packet leads back to the client: it is found under the packet's id, and a
reply with the packet's id and descriptor is handed to its
`PacketBufferSend`. -/
def RoutesBack (pool : ClientContextPool Nat) (p : Nat)
    (packet : NetPacketBuffer) : Prop :=
  pool.getClient packet.ulClientSeq = some p ∧
    ∀ reply : NetPacketBuffer, reply.ulClientSeq = packet.ulClientSeq →
      reply.iSockFd = packet.iSockFd → takePacket pool reply = .sent p reply

theorem RegisteredUnder.routesBack_iff_seq_eq
    {pool : ClientContextPool Nat} {p : Nat} {ulClientSeq : UInt64}
    (h : pool.RegisteredUnder p ulClientSeq)
    (packet : NetPacketBuffer) :
    pool.RoutesBack p packet ↔ packet.ulClientSeq = ulClientSeq := by
  refine ⟨fun hroutes => (h _).mp hroutes.1, fun hseq => ⟨(h _).mpr hseq, ?_⟩⟩
  intro reply hreply _
  rw [takePacket, hreply, (h _).mpr hseq]

end ClientContextPool

/-- **Which clients get their replies.**  Whatever is received from a client
that is in the pool under its `GetClientSeq()`, every packet unpacked from its
buffer leads back to it, exactly when the client is one of libevent or its id
is zero. -/
theorem routesBack_iff (api : BuffereventRead) (ctx : NetworkContext)
    (hctx : ctx.netPacketRecvQueue.NoneHidden) (transport : Transport)
    (ulSeqID : UInt64) (iClientFd : Int) (pstBufferEvent p : Nat)
    (pool : ClientContextPool Nat)
    (hpool : pool.RegisteredUnder p (ClientContext.create transport ulSeqID
      iClientFd pstBufferEvent).ulClientSeq) :
    (∀ actions s, runSteps (ClientState.step api) (ClientState.accepted ctx
        transport ulSeqID iClientFd pstBufferEvent) actions = some s →
        ∀ packet ∈ s.unpacked, pool.RoutesBack p packet) ↔
      transport = .libevent ∨ ulSeqID = 0 := by
  rw [ClientContext.ulClientSeq_create] at hpool
  constructor
  · -- one packet is enough to see which id the buffer has
    intro h
    obtain ⟨s, packet, hrun, hpacket, hstamp⟩ := ClientState.exists_unpacked
      api hctx transport ulSeqID iClientFd pstBufferEvent
    have hroutes := h _ s hrun packet hpacket
    rw [hpool.routesBack_iff_seq_eq, hstamp] at hroutes
    cases transport with
    | libevent => exact .inl rfl
    | socket => exact .inr hroutes.symm
  · intro h actions s hrun packet hpacket
    have hinv := runSteps_invariant (ClientState.inv_step api)
      (ClientState.inv_accepted hctx transport ulSeqID iClientFd pstBufferEvent) hrun
    rw [hpool.routesBack_iff_seq_eq, hinv.stamped packet hpacket]
    cases transport with
    | libevent => rfl
    | socket =>
      obtain hkind | rfl := h
      · cases hkind
      · rfl

/-- A pool with one client, found under the id five. -/
def fivePool : ClientContextPool Nat :=
  ClientContextPool.empty.addClient 5 0 7

theorem registeredUnder_fivePool : fivePool.RegisteredUnder 0 5 :=
  ClientContextPool.registeredUnder_addClient (fun key => by simp) rfl 7

/-- A libevent client with the id five gets its replies. -/
theorem routesBack_iff_libevent :
    ∃ s packet, runSteps (ClientState.step .ofList)
        (ClientState.accepted .construct .libevent 5 7 0)
        [.read (frameOf 1 [7]), .unpack fun _ => 0] = some s ∧
      packet ∈ s.unpacked ∧ fivePool.RoutesBack 0 packet := by
  have hctx : NetworkContext.construct.netPacketRecvQueue.NoneHidden :=
    NetPacketQueue.counted_init.noneHidden
  obtain ⟨s, packet, hrun, hpacket, -⟩ :=
    ClientState.exists_unpacked .ofList hctx .libevent 5 7 0
  exact ⟨s, packet, hrun, hpacket,
    (routesBack_iff .ofList .construct hctx .libevent 5 7 0 0 fivePool
      registeredUnder_fivePool).mpr (.inl rfl) _ s hrun packet hpacket⟩

/-- A socket client with the id five does not: its packets carry the id zero,
under which there is nobody. -/
theorem routesBack_fails_of_socket :
    ∃ s packet, runSteps (ClientState.step .ofList)
        (ClientState.accepted .construct .socket 5 7 0)
        [.read (frameOf 1 [7]), .unpack fun _ => 0] = some s ∧
      packet ∈ s.unpacked ∧ packet.ulClientSeq = 0 ∧
      fivePool.getClient packet.ulClientSeq = none ∧
      ¬ fivePool.RoutesBack 0 packet := by
  have hctx : NetworkContext.construct.netPacketRecvQueue.NoneHidden :=
    NetPacketQueue.counted_init.noneHidden
  obtain ⟨s, packet, hrun, hpacket, hstamp⟩ :=
    ClientState.exists_unpacked .ofList hctx .socket 5 7 0
  have hzero : packet.ulClientSeq = 0 := hstamp
  refine ⟨s, packet, hrun, hpacket, hzero, ?_, ?_⟩
  · rw [hzero]
    rfl
  · rw [registeredUnder_fivePool.routesBack_iff_seq_eq, hzero]
    decide

end Network
end GameServer
