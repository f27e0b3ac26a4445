import GameServer.Lib.Transition
import GameServer.Network.ClientPool
import GameServer.Network.Context

/-!
# The send path of a server

The logic thread produces packets into the send-prepare queue.  From time to
time `SendNetworkPackets` hands them to the send queue under the write lock and
writes a command to a pipe.  The network thread reads the pipe, and for a send
command runs `ExecuteCmdSendAllPacket`: it moves the send queue to a cache,
sends the packets of the cache, releases them, and starts over until nothing is
left.

The step function has one action for each locked section, for each transfer
over the pipe and for each packet sent.  The pipe carries bytes; a request is
shorter than `PIPE_BUF`, so that it is written as a whole or not at all.  Other
callbacks of the network thread run between commands and may leave any client
pool.  As history the state carries the packets produced and the packets taken
out of the cache.

The result is about all interleavings: no packet is lost, taken twice or
reordered, and once both threads are idle and the pipe is empty nothing is left
behind, whichever command a packet was drained by.
-/

namespace GameServer
namespace Network

open Lib

/-- `ST_NETWORK_CMD_REQUEST_MAX_SIZE`. -/
def networkCmdRequestMaxSize : Nat := 32

/-- `NETWORK_CMD_REQUEST_SEND_ALL_PACKET`, the letter S. -/
def networkCmdRequestSendAllPacket : Byte := 83

/-- `NETWORK_CMD_REQUEST_CLOSE_SERVER`, the letter C. -/
def networkCmdRequestCloseServer : Byte := 67

/-- `ST_NETWORK_CMD_REQUEST`: the command, followed by zeros. -/
def networkCmdRequest (chCmd : Byte) : List Byte :=
  chCmd :: List.replicate (networkCmdRequestMaxSize - 1) 0

/-- `GetCmd` on a buffer that was zeroed before the read. -/
def getCmd (buffer : List Byte) : Byte :=
  buffer.headD 0

@[simp] theorem length_networkCmdRequest (chCmd : Byte) :
    (networkCmdRequest chCmd).length = networkCmdRequestMaxSize := by
  simp [networkCmdRequest, networkCmdRequestMaxSize]

/-- Where the network thread stands. -/
inductive SendNetPc where
  | idle
  /-- At the start of `ExecuteCmdSendAllPacket`. -/
  | called
  /-- In its inner loop, before packet `i` of the cache. -/
  | sending (i : Nat)
  /-- Behind `ReleaseAllPackets`. -/
  | released
  /-- The event loop has been left. -/
  | stopped

/-- Where the logic thread stands. -/
inductive SendLogicPc where
  | idle
  /-- In `SendNetworkPackets`, behind `PacketSendPrepare`. -/
  | prepared

/-- A packet taken out of the cache, and what happened to it. -/
inductive Taken (γ : Type*) where
  /-- `PacketBufferSend` of this client was called. -/
  | sent (pstClient : γ) (packet : NetPacketBuffer)
  /-- `GetClient` found no client. -/
  | skipped (packet : NetPacketBuffer)

/-- The packet itself. -/
def Taken.packet {γ : Type*} : Taken γ → NetPacketBuffer
  | .sent _ packet => packet
  | .skipped packet => packet

/-- One round of the inner loop of `ExecuteCmdSendAllPacket`. -/
def takePacket {γ : Type*} (clientPool : ClientContextPool γ)
    (packet : NetPacketBuffer) : Taken γ :=
  match clientPool.getClient packet.ulClientSeq with
  | none => .skipped packet
  | some pstClient => .sent pstClient packet

@[simp] theorem packet_takePacket {γ : Type*} (clientPool : ClientContextPool γ)
    (packet : NetPacketBuffer) :
    (takePacket clientPool packet).packet = packet := by
  unfold takePacket
  split <;> rfl

/-- The server context, the pipe, the position of the two threads and the
history. -/
structure SendState (γ : Type*) where
  ctx : NetworkContext
  clientPool : ClientContextPool γ
  pipe : List Byte
  net : SendNetPc
  logic : SendLogicPc
  produced : List NetPacketBuffer
  taken : List (Taken γ)

/-- The actions of the two threads. -/
inductive SendAction (γ : Type*) where
  /-- The logic thread calls `PacketProduceProtobufPacket` at time `now`. -/
  | produce (ulClientSeq : UInt64) (iClientFd iProtoNo : Int)
      (proto : List Byte) (now : UInt64)
  /-- The logic thread enters `SendNetworkPackets`: `PacketSendPrepare`. -/
  | prepare
  /-- The logic thread writes the send command. -/
  | write
  /-- The network thread reads a request and dispatches it. -/
  | read
  /-- The first `PacketSendPrepareCache`. -/
  | cache
  /-- The next packet of the cache. -/
  | take
  /-- `ReleaseAllPackets` behind the last one. -/
  | release
  /-- `PacketSendPrepareCache` at the end of the loop, and the loop's test. -/
  | recache
  /-- Other callbacks of the network thread leave this pool. -/
  | clients (clientPool : ClientContextPool γ)

namespace SendState

variable {γ : Type*}

/-- A fresh context with both threads idle. -/
def fresh (clientPool : ClientContextPool γ) : SendState γ :=
  ⟨.construct, clientPool, [], .idle, .idle, [], []⟩

/-- `RecvNetworkCmd`: where the network thread goes for a command. -/
def recvNetworkCmd (bchNetCmd : Byte) : SendNetPc :=
  if bchNetCmd = networkCmdRequestSendAllPacket then .called
  else if bchNetCmd = networkCmdRequestCloseServer then .stopped
  else .idle

/-- One action.  `none` means that it is not enabled or that an assertion
fails. -/
def step (s : SendState γ) : SendAction γ → Option (SendState γ)
  | .produce ulClientSeq iClientFd iProtoNo proto now =>
    match s.logic with
    | .idle =>
      (s.ctx.packetProduceProtobufPacket ulClientSeq iClientFd iProtoNo
        proto now).map fun ctx =>
          { s with
            ctx := ctx
            produced := s.produced ++
              ctx.netPacketSendPrepareQueue.vecPacketPool.drop
                s.ctx.netPacketSendPrepareQueue.vecPacketPool.length }
    | .prepared => none
  | .prepare =>
    match s.logic with
    | .idle => some { s with ctx := s.ctx.packetSendPrepare, logic := .prepared }
    | .prepared => none
  | .write =>
    match s.logic with
    | .idle => none
    | .prepared =>
      some { s with
        pipe := s.pipe ++ networkCmdRequest networkCmdRequestSendAllPacket
        logic := .idle }
  | .read =>
    match s.net with
    | .idle =>
      if s.pipe = [] then
        none
      else
        let buf := s.pipe.take networkCmdRequestMaxSize
        some { s with
          pipe := s.pipe.drop networkCmdRequestMaxSize
          net := recvNetworkCmd (getCmd buf) }
    | _ => none
  | .cache =>
    match s.net with
    | .called =>
      -- the body of the do-while loop is entered whatever the count is
      some { s with ctx := s.ctx.packetSendPrepareCache.1, net := .sending 0 }
    | _ => none
  | .take =>
    match s.net with
    | .sending i =>
      s.ctx.netPacketSendCache.vecPacketPool[i]?.map fun packet =>
        { s with
          net := .sending (i + 1)
          taken := s.taken ++ [takePacket s.clientPool packet] }
    | _ => none
  | .release =>
    match s.net with
    | .sending i =>
      if i < s.ctx.netPacketSendCache.vecPacketPool.length then
        none
      else
        some { s with
          ctx := { s.ctx with netPacketSendCache :=
            s.ctx.netPacketSendCache.releaseAllPackets }
          net := .released }
    | _ => none
  | .recache =>
    match s.net with
    | .released =>
      let cached := s.ctx.packetSendPrepareCache
      some { s with
        ctx := cached.1
        net := if cached.2 > 0 then .sending 0 else .idle }
    | _ => none
  | .clients clientPool =>
    match s.net with
    | .idle => some { s with clientPool := clientPool }
    | _ => none

/-- The part of the cache that has not been taken out. -/
def unsent (s : SendState γ) : List NetPacketBuffer :=
  match s.net with
  | .sending i => s.ctx.netPacketSendCache.vecPacketPool.drop i
  | _ => s.ctx.netPacketSendCache.vecPacketPool

/-- The steps of the send path, one constructor for each action. -/
inductive Transition (s : SendState γ) :
    SendAction γ → SendState γ → Prop where
  | produce (ulClientSeq : UInt64) (iClientFd iProtoNo : Int)
      (proto : List Byte) (now : UInt64) (packet : NetPacketBuffer)
      (hlogic : s.logic = .idle) :
      Transition s (.produce ulClientSeq iClientFd iProtoNo proto now)
        { s with
          ctx := { s.ctx with netPacketSendPrepareQueue :=
            ⟨s.ctx.netPacketSendPrepareQueue.iPacketNum + 1,
              s.ctx.netPacketSendPrepareQueue.vecPacketPool ++ [packet]⟩ }
          produced := s.produced ++ [packet] }
  | prepare (hlogic : s.logic = .idle) :
      Transition s .prepare
        { s with ctx := s.ctx.packetSendPrepare, logic := .prepared }
  | write (hlogic : s.logic = .prepared) :
      Transition s .write
        { s with
          pipe := s.pipe ++ networkCmdRequest networkCmdRequestSendAllPacket
          logic := .idle }
  | read (hnet : s.net = .idle) (hpipe : s.pipe ≠ []) :
      Transition s .read
        { s with
          pipe := s.pipe.drop networkCmdRequestMaxSize
          net := recvNetworkCmd
            (getCmd (s.pipe.take networkCmdRequestMaxSize)) }
  | cache (hnet : s.net = .called) :
      Transition s .cache
        { s with ctx := s.ctx.packetSendPrepareCache.1, net := .sending 0 }
  | take (i : Nat) (packet : NetPacketBuffer) (hnet : s.net = .sending i)
      (hpacket : s.ctx.netPacketSendCache.vecPacketPool[i]? = some packet) :
      Transition s .take
        { s with
          net := .sending (i + 1)
          taken := s.taken ++ [takePacket s.clientPool packet] }
  | release (i : Nat) (hnet : s.net = .sending i)
      (hdone : s.ctx.netPacketSendCache.vecPacketPool.length ≤ i) :
      Transition s .release
        { s with
          ctx := { s.ctx with netPacketSendCache :=
            s.ctx.netPacketSendCache.releaseAllPackets }
          net := .released }
  | recache (hnet : s.net = .released) :
      Transition s .recache
        { s with
          ctx := s.ctx.packetSendPrepareCache.1
          net := if s.ctx.packetSendPrepareCache.2 > 0 then .sending 0
            else .idle }
  | clients (clientPool : ClientContextPool γ) (hnet : s.net = .idle) :
      Transition s (.clients clientPool) { s with clientPool := clientPool }

/-- Every step is one of these. -/
theorem transition_of_step {s s' : SendState γ} {a : SendAction γ}
    (h : s.step a = some s') : Transition s a s' := by
  cases a with
  | produce ulClientSeq iClientFd iProtoNo proto now =>
    simp only [step] at h
    split at h
    · rename_i hlogic
      obtain ⟨ctx, hproduce, rfl⟩ := Option.map_eq_some_iff.mp h
      obtain ⟨queue, hadd, rfl⟩ := Option.map_eq_some_iff.mp hproduce
      obtain ⟨-, rfl⟩ := NetPacketQueue.addPacket_eq_some_iff.mp hadd
      simp only [List.drop_left]
      exact .produce ulClientSeq iClientFd iProtoNo proto now _ hlogic
    · cases h
  | prepare =>
    simp only [step] at h
    split at h
    · rename_i hlogic
      cases h
      exact .prepare hlogic
    · cases h
  | write =>
    simp only [step] at h
    split at h
    · cases h
    · rename_i hlogic
      cases h
      exact .write hlogic
  | read =>
    simp only [step] at h
    split at h
    · rename_i hnet
      split at h
      · cases h
      · rename_i hpipe
        cases h
        exact .read hnet hpipe
    · cases h
  | cache =>
    simp only [step] at h
    split at h
    · rename_i hnet
      cases h
      exact .cache hnet
    · cases h
  | take =>
    simp only [step] at h
    split at h
    · rename_i i hnet
      obtain ⟨packet, hpacket, rfl⟩ := Option.map_eq_some_iff.mp h
      exact .take i packet hnet hpacket
    · cases h
  | release =>
    simp only [step] at h
    split at h
    · rename_i i hnet
      split at h
      · cases h
      · rename_i hdone
        cases h
        exact .release i hnet (Nat.le_of_not_lt hdone)
    · cases h
  | recache =>
    simp only [step] at h
    split at h
    · rename_i hnet
      cases h
      exact .recache hnet
    · cases h
  | clients clientPool =>
    simp only [step] at h
    split at h
    · rename_i hnet
      cases h
      exact .clients clientPool hnet
    · cases h

/-! ## The pipe -/

/-- The pipe holds `n` send requests. -/
def Requests (pipe : List Byte) (n : Nat) : Prop :=
  pipe = (List.replicate n
    (networkCmdRequest networkCmdRequestSendAllPacket)).flatten

theorem Requests.write {pipe : List Byte} {n : Nat} (h : Requests pipe n) :
    Requests (pipe ++ networkCmdRequest networkCmdRequestSendAllPacket) (n + 1) := by
  rw [Requests, List.replicate_succ', List.flatten_append, ← h]
  simp

/-- One read takes one request off the pipe, and it is a send request. -/
theorem Requests.read {pipe : List Byte} {n : Nat} (h : Requests pipe n) (hpipe : pipe ≠ []) :
    recvNetworkCmd (getCmd (pipe.take networkCmdRequestMaxSize)) = .called ∧
      Requests (pipe.drop networkCmdRequestMaxSize) (n - 1) := by
  cases n with
  | zero => exact (hpipe h).elim
  | succ n =>
    rw [Requests, List.replicate_succ, List.flatten_cons] at h
    have hlength := length_networkCmdRequest networkCmdRequestSendAllPacket
    refine ⟨?_, ?_⟩
    · rw [h, List.take_left' hlength]
      rfl
    · rw [h, List.drop_left' hlength]
      rfl

/-! ## No packet is lost, taken twice, reordered or left behind -/

/-- What holds between any two steps. -/
structure Inv (s : SendState γ) : Prop where
  /-- The packets taken and those on their way are the packets produced. -/
  packets : s.taken.map Taken.packet ++ s.unsent ++
    s.ctx.netPacketSendQueue.vecPacketPool ++
    s.ctx.netPacketSendPrepareQueue.vecPacketPool = s.produced
  send : s.ctx.netPacketSendQueue.NoneHidden
  cached : s.ctx.netPacketSendCache.NoneHidden
  /-- The cache is empty outside the inner loop. -/
  empty : (∀ i, s.net ≠ .sending i) →
    s.ctx.netPacketSendCache.vecPacketPool = []
  requests : ∃ n, Requests s.pipe n
  /-- A packet in the send queue has somebody who will come for it. -/
  pending : s.ctx.netPacketSendQueue.vecPacketPool ≠ [] →
    s.pipe ≠ [] ∨ s.logic = .prepared ∨ s.net ≠ .idle

theorem inv_fresh (clientPool : ClientContextPool γ) : Inv (fresh clientPool) where
  packets := rfl
  send := NetPacketQueue.counted_init.noneHidden
  cached := NetPacketQueue.counted_init.noneHidden
  empty := fun _ => rfl
  requests := ⟨0, rfl⟩
  pending := fun h => (h rfl).elim

/-- Outside the inner loop `PacketSendPrepareCache` moves the send queue to the
cache as it is, and returns its length, stale counter or not. -/
theorem Inv.packetSendPrepareCache {s : SendState γ} (h : s.Inv) (hnet : ∀ i, s.net ≠ .sending i) :
    s.ctx.packetSendPrepareCache = ({ s.ctx with
          netPacketSendCache :=
            ⟨s.ctx.netPacketSendQueue.vecPacketPool.length, s.ctx.netPacketSendQueue.vecPacketPool⟩
          netPacketSendQueue := .init },
        s.ctx.netPacketSendQueue.vecPacketPool.length) := by
  unfold NetworkContext.packetSendPrepareCache
  dsimp only
  rw [NetPacketQueue.copyFrom_eq h.cached, NetPacketQueue.copyFrom_snd,
    h.empty hnet, List.nil_append]
  rfl

/-- The packets taken and those behind the cache, outside the inner loop. -/
theorem Inv.packets_of_not_sending {s : SendState γ} (h : s.Inv) (hnet : ∀ i, s.net ≠ .sending i) :
    s.taken.map Taken.packet ++ s.ctx.netPacketSendQueue.vecPacketPool ++
      s.ctx.netPacketSendPrepareQueue.vecPacketPool = s.produced := by
  have hunsent : s.unsent = [] := by
    unfold unsent
    split
    · rename_i i hsending
      exact (hnet i hsending).elim
    · exact h.empty hnet
  have hpackets := h.packets
  rw [hunsent, List.append_nil] at hpackets
  exact hpackets

theorem inv_step (s : SendState γ) (a : SendAction γ) (s' : SendState γ)
    (h : s.Inv) (hstep : s.step a = some s') : s'.Inv := by
  cases transition_of_step hstep with
  | produce ulClientSeq iClientFd iProtoNo proto now packet hlogic =>
    refine ⟨?_, h.send, h.cached, h.empty, h.requests, h.pending⟩
    show _ ++ s.unsent ++ _ ++ (_ ++ [packet]) = s.produced ++ [packet]
    rw [← List.append_assoc, h.packets]
  | prepare hlogic =>
    have hmoved := NetPacketQueue.vecPacketPool_copyFrom h.send s.ctx.netPacketSendPrepareQueue
    refine ⟨?_, (NetPacketQueue.counted_copyFrom _ _).noneHidden, h.cached,
      h.empty, h.requests, fun _ => Or.inr (Or.inl rfl)⟩
    show _ ++ s.unsent ++ (NetPacketQueue.copyFrom _ _).1.vecPacketPool ++
      (NetPacketQueue.copyFrom _ _).2.vecPacketPool = s.produced
    rw [hmoved, NetPacketQueue.copyFrom_snd, NetPacketQueue.vecPacketPool_init,
      List.append_nil, ← List.append_assoc]
    exact h.packets
  | write hlogic =>
    obtain ⟨n, hrequests⟩ := h.requests
    refine ⟨h.packets, h.send, h.cached, h.empty, ⟨n + 1, hrequests.write⟩, fun _ => Or.inl ?_⟩
    exact List.append_ne_nil_of_right_ne_nil _ (List.cons_ne_nil _ _)
  | read hnet hpipe =>
    obtain ⟨n, hrequests⟩ := h.requests
    obtain ⟨hcalled, hrest⟩ := hrequests.read hpipe
    have hnot : ∀ i, s.net ≠ .sending i := by simp [hnet]
    have hempty := h.empty hnot
    rw [hcalled]
    refine ⟨?_, h.send, h.cached, fun _ => hempty, ⟨n - 1, hrest⟩,
      fun _ => Or.inr (Or.inr (by simp))⟩
    show _ ++ s.ctx.netPacketSendCache.vecPacketPool ++ _ ++ _ = s.produced
    rw [hempty, List.append_nil]
    exact h.packets_of_not_sending hnot
  | cache hnet =>
    have hnot : ∀ i, s.net ≠ .sending i := by simp [hnet]
    rw [h.packetSendPrepareCache hnot]
    refine ⟨?_, NetPacketQueue.counted_init.noneHidden,
      NetPacketQueue.Counted.noneHidden rfl, fun hnone => (hnone 0 rfl).elim,
      h.requests, fun hne => (hne rfl).elim⟩
    show _ ++ List.drop 0 s.ctx.netPacketSendQueue.vecPacketPool ++ [] ++ _ = s.produced
    rw [List.drop_zero, List.append_nil]
    exact h.packets_of_not_sending hnot
  | take i packet hnet hpacket =>
    have hpackets := h.packets
    simp only [unsent, hnet] at hpackets
    refine ⟨?_, h.send, h.cached, fun hnone => (hnone (i + 1) rfl).elim,
      h.requests, fun _ => Or.inr (Or.inr (by simp))⟩
    show (s.taken ++ [takePacket s.clientPool packet]).map Taken.packet ++
      s.ctx.netPacketSendCache.vecPacketPool.drop (i + 1) ++ _ ++ _ = s.produced
    rw [← hpackets, NetPacketQueue.drop_of_getElem? hpacket]
    simp
  | release i hnet hdone =>
    have hpackets := h.packets
    have hnone : s.ctx.netPacketSendCache.vecPacketPool.drop i = [] :=
      List.drop_eq_nil_iff.mpr hdone
    simp only [unsent, hnet, hnone] at hpackets
    exact ⟨hpackets, h.send, NetPacketQueue.noneHidden_releaseAllPackets _,
      fun _ => rfl, h.requests, fun _ => Or.inr (Or.inr (by simp))⟩
  | recache hnet =>
    have hnot : ∀ i, s.net ≠ .sending i := by simp [hnet]
    have hpackets := h.packets_of_not_sending hnot
    rw [h.packetSendPrepareCache hnot]
    dsimp only
    -- the loop goes on exactly when the send queue held a packet
    cases hqueue : s.ctx.netPacketSendQueue.vecPacketPool with
    | nil =>
      rw [hqueue] at hpackets
      exact ⟨by simpa [unsent] using hpackets, NetPacketQueue.counted_init.noneHidden,
        NetPacketQueue.Counted.noneHidden rfl, fun _ => rfl, h.requests,
        fun hne => (hne rfl).elim⟩
    | cons packet rest =>
      rw [hqueue] at hpackets
      exact ⟨by simpa [unsent] using hpackets, NetPacketQueue.counted_init.noneHidden,
        NetPacketQueue.Counted.noneHidden rfl,
        fun hnone => (hnone 0 rfl).elim, h.requests,
        fun hne => (hne rfl).elim⟩
  | clients clientPool hnet =>
    exact ⟨h.packets, h.send, h.cached, h.empty, h.requests, h.pending⟩

/-- **The send path is a queue that is drained.**  At every point of every
interleaving the packets taken out for sending, followed by the rest of the
cache, the send queue and the send-prepare queue, are the packets produced, in
order.  When both threads are idle and no command is in the pipe, the send
queue and the cache are empty. -/
theorem packets_sent_in_order (clientPool : ClientContextPool γ)
    (actions : List (SendAction γ)) (s : SendState γ)
    (hrun : runSteps step (fresh clientPool) actions = some s) :
    s.taken.map Taken.packet ++ s.unsent ++ s.ctx.netPacketSendQueue.vecPacketPool ++
        s.ctx.netPacketSendPrepareQueue.vecPacketPool = s.produced ∧
      (s.net = .idle → s.logic = .idle → s.pipe = [] → s.ctx.netPacketSendQueue.vecPacketPool = [] ∧
          s.ctx.netPacketSendCache.vecPacketPool = []) := by
  have hinv : s.Inv := runSteps_invariant inv_step (inv_fresh clientPool) hrun
  refine ⟨hinv.packets, ?_⟩
  intro hnet hlogic hpipe
  refine ⟨?_, hinv.empty (by simp [hnet])⟩
  by_contra hne
  rcases hinv.pending hne with hcommand | hprepared | hbusy
  · exact hcommand hpipe
  · rw [hlogic] at hprepared
    cases hprepared
  · exact hbusy hnet

/-- Two packets, the second one produced after the command for the first was
written but drained by it, and its client unknown. -/
theorem packets_sent_in_order_two_packets :
    ∃ s, runSteps step (fresh (ClientContextPool.empty.addClient 1 () 7))
        [.produce 1 7 20001 [8, 1] 3, .prepare, .write, .read,
          .produce 2 8 20001 [8, 2] 4, .prepare, .cache, .take, .take, .release,
          .recache, .write, .read, .cache, .release, .recache] = some s ∧
      s.taken.map Taken.packet ++ s.unsent ++ s.ctx.netPacketSendQueue.vecPacketPool ++
        s.ctx.netPacketSendPrepareQueue.vecPacketPool = s.produced ∧
      s.taken = [.sent () ⟨1, 7, 20001, 2, 3, [8, 1]⟩, .skipped ⟨2, 8, 20001, 2, 4, [8, 2]⟩] ∧
      s.ctx.netPacketSendQueue.vecPacketPool = [] ∧
        s.ctx.netPacketSendCache.vecPacketPool = [] := by
  obtain ⟨s, hrun⟩ : ∃ s, runSteps step (fresh (ClientContextPool.empty.addClient 1 () 7))
        [.produce 1 7 20001 [8, 1] 3, .prepare, .write, .read,
          .produce 2 8 20001 [8, 2] 4, .prepare, .cache, .take, .take, .release,
          .recache, .write, .read, .cache, .release, .recache] = some s :=
    ⟨_, rfl⟩
  have hordered := packets_sent_in_order _ _ s hrun
  refine ⟨s, hrun, hordered.1, ?_, hordered.2 ?_ ?_ ?_⟩
  all_goals
    cases hrun
    rfl

end SendState

end Network
end GameServer
