import GameServer.Lib.Ownership
import GameServer.Lib.Transition
import GameServer.Network.PacketPool

/-!
# Threads, queues and the packet memory pool

Any number of threads work on the six queues of any number of contexts, with
one memory pool behind all of them.  A step is a critical section of the pool
or what a thread does between two of them; contexts come and go, also while
threads work on their queues.

`queue.h` wants a queue to be locked from the outside, and nothing in the code
sees to it: `Connector::HeartBeat` adds packets to a queue that another thread
adds to and copies from.  The steps therefore allow two threads inside
operations on one queue.  `emplace_back` is cut where this matters: it writes
the packet to the cell behind the last one, and makes the vector longer
afterwards.  What `clear` leaves in the cells behind the last packet is still
there, and is part of the state.

Packets are copied from queue to queue together with their pointer, and
nothing in the code says who owns a block.  The invariant does: every block is
referred to by at most one of the free queue, a queued packet or a thread in
the middle of a call, and each of them finds in the block what it relies on.
It holds as long as the queues are locked (`PoolState.LocksQueues`).
-/

namespace GameServer
namespace Network

open Lib

/-- The queues of a `NetworkContext`. -/
inductive QueueKind where
  | recvPrepareQueue
  | recvQueue
  | logicQueue
  | sendPrepareQueue
  | sendQueue
  | sendCache
deriving Repr, DecidableEq

/-- All of them. -/
def QueueKind.all : List QueueKind :=
  [recvPrepareQueue, recvQueue, logicQueue, sendPrepareQueue, sendQueue,
    sendCache]

theorem QueueKind.mem_all (kind : QueueKind) : kind ∈ all := by
  cases kind <;> decide

/-- The arguments of `AddPacket`. -/
structure AddPacketArgs where
  ulClientSeq : UInt64
  iSockFd : Int
  iProtoNo : Int
  iBufferSize : Nat
  pchBuffer : List Byte
deriving Repr, DecidableEq

/-- The packet that `AddPacket` constructs. -/
def AddPacketArgs.packet (args : AddPacketArgs) (now : UInt64)
    (pstMemory : MemoryRef) : PooledPacket :=
  ⟨args.ulClientSeq, args.iSockFd, args.iProtoNo, args.iBufferSize, now,
    pstMemory, args.pchBuffer.take args.iBufferSize⟩

/-- Where a thread is. -/
inductive PoolPc (χ : Type*) where
  | idle
  /-- In `AddPacket`, with the block the pool has handed out. -/
  | adding (queue : χ × QueueKind) (args : AddPacketArgs)
      (pstMemory : MemoryRef)
  /-- In `emplace_back`, with the packet behind the last one and not counted. -/
  | counting (queue : χ × QueueKind) (packet : PooledPacket)
  /-- In the loop of `ReleaseAllPackets`, in front of a packet. -/
  | releasing (queue : χ × QueueKind) (position : Nat)
  /-- In `ReleasePacketMemory` for a packet, after `release()`. -/
  | givingBack (queue : χ × QueueKind) (position : Nat)
      (pstMemory : MemoryRef) (iIndex : Int)
deriving DecidableEq

namespace PoolPc

variable {χ : Type*}

/-- The queue a thread works on. -/
def queue : PoolPc χ → Option (χ × QueueKind)
  | .idle => none
  | .adding queue _ _ => some queue
  | .counting queue _ => some queue
  | .releasing queue _ => some queue
  | .givingBack queue _ _ _ => some queue

/-- The block a thread has in its hands.  A thread inside `AddPacket` on a
context that is gone does not come back to its block. -/
def memory (alive : χ → Bool) : PoolPc χ → Option MemoryRef
  | .adding queue _ pstMemory =>
    if alive queue.1 then some pstMemory else none
  | .counting queue packet =>
    if alive queue.1 then some packet.pstMemory else none
  | .givingBack _ _ pstMemory _ => some pstMemory
  | _ => none

/-- What a thread relies on in the block it has in its hands. -/
def fits : PoolPc χ → MemoryRef → PacketMemory → Prop
  | .adding _ _ _, ref, block => block.Blank ∧ block.iIndex = ref.index
  | .counting _ packet, ref, block => block.iIndex = ref.index ∧
      block.getBuffer.take packet.iBufferSize = packet.added
  | .givingBack _ _ _ iIndex, ref, block => block.Blank ∧ iIndex = ref.index
  | _, _, _ => True

/-- The thread has released the packet, which is still in the vector. -/
def Passed (pc : PoolPc χ) (queue : χ × QueueKind) (position : Nat) : Prop :=
  match pc with
  | .releasing queue' next => queue' = queue ∧ position < next
  | .givingBack queue' last _ _ => queue' = queue ∧ position ≤ last
  | _ => False

theorem Passed.queue_eq {pc : PoolPc χ} {queue : χ × QueueKind}
    {position : Nat} (h : pc.Passed queue position) :
    pc.queue = some queue := by
  cases pc with
  | idle | adding | counting => cases h
  | releasing | givingBack => exact congrArg some h.1

end PoolPc

/-- The pool, the contexts with their queues, and the threads.  A context
exists from its creation until it is deleted, and `behind` is what the cells
behind the last packet of a vector hold. -/
structure PoolState (τ χ : Type*) where
  pool : PacketMemoryPool
  created : χ → Bool
  alive : χ → Bool
  queues : χ × QueueKind → PooledQueue
  behind : χ × QueueKind → List PooledPacket
  threads : τ → PoolPc χ

/-- What happens next. -/
inductive PoolAction (τ χ : Type*) where
  /-- The constructor of a context. -/
  | create (ctx : χ)
  /-- The destructor of a context. -/
  | destroy (ctx : χ)
  /-- `AddPacket` calls `GetFreePacketMemory`. -/
  | getFree (thread : τ) (queue : χ × QueueKind) (args : AddPacketArgs)
      (address : Nat)
  /-- `emplace_back` constructs the packet, which fills the block. -/
  | emplace (thread : τ) (now : UInt64)
  /-- The vector and the counter grow by one. -/
  | count (thread : τ)
  /-- `CopyFrom`. -/
  | copyFrom (thread : τ) (queue source : χ × QueueKind)
  /-- `Init` and `CopyFrom`, as in `CopyPacketsFromNetToLogic`. -/
  | initCopyFrom (thread : τ) (queue source : χ × QueueKind)
  /-- `ReleaseAllPackets` starts. -/
  | releaseAll (thread : τ) (queue : χ × QueueKind)
  /-- `ReleaseAllPackets` calls `release()` for its next packet. -/
  | release (thread : τ)
  /-- `ReleasePacketMemory` deletes the block or pushes its index. -/
  | giveBack (thread : τ)
  /-- `ReleaseAllPackets` clears the vector at the end of its loop. -/
  | clear (thread : τ)

/-- Who can refer to a block. -/
inductive Holder (τ χ : Type*) where
  | free (iIndex : Nat)
  | queued (queue : χ × QueueKind) (position : Nat)
  | thread (thread : τ)

namespace PoolState

variable {τ χ : Type*}

/-- Before anything has happened: the pool constructed, no context. -/
def fresh : PoolState τ χ where
  pool := .construct
  created := fun _ => false
  alive := fun _ => false
  queues := fun _ => .init
  behind := fun _ => []
  threads := fun _ => .idle

/-- The packet is in the queue and has not been released. -/
def Queued (s : PoolState τ χ) (queue : χ × QueueKind) (position : Nat)
    (packet : PooledPacket) : Prop :=
  (∀ thread, ¬ (s.threads thread).Passed queue position) ∧
    (s.queues queue).vecPacketPool[position]? = some packet

open scoped Classical in
/-- The block a holder refers to. -/
noncomputable def holds (s : PoolState τ χ) : Holder τ χ → Option MemoryRef
  | .free iIndex =>
    if iIndex ∈ s.pool.packetIndexFreeQueue then some (.slot iIndex)
    else none
  | .queued queue position =>
    if ∀ thread, ¬ (s.threads thread).Passed queue position then
      (s.queues queue).vecPacketPool[position]?.map fun packet =>
        packet.pstMemory
    else none
  | .thread thread => (s.threads thread).memory s.alive

/-- What a holder relies on in the block it refers to. -/
def fits (s : PoolState τ χ) : Holder τ χ → MemoryRef → PacketMemory → Prop
  | .free _, _, block => block.Blank
  | .queued queue position, ref, block =>
    block.iIndex = ref.index ∧
      ∀ packet, (s.queues queue).vecPacketPool[position]? = some packet →
        block.getBuffer.take packet.iBufferSize = packet.added
  | .thread thread, ref, block => (s.threads thread).fits ref block

/-- No thread is inside an operation on the queue. -/
def Unused (s : PoolState τ χ) (queue : χ × QueueKind) : Prop :=
  ∀ thread, (s.threads thread).queue ≠ some queue

theorem Unused.ne_of_queue {s : PoolState τ χ} {queue queue' : χ × QueueKind}
    {thread : τ} (h : s.Unused queue)
    (hqueue' : (s.threads thread).queue = some queue') : queue' ≠ queue := by
  rintro rfl
  exact h thread hqueue'

/-- The lock that `queue.h` demands: an operation starts only on queues that no
other one is working on. -/
def LocksQueues (s : PoolState τ χ) : PoolAction τ χ → Prop
  | .getFree _ queue _ _ => s.Unused queue
  | .copyFrom _ queue source => s.Unused queue ∧ s.Unused source
  | .initCopyFrom _ queue source => s.Unused queue ∧ s.Unused source
  | .releaseAll _ queue => s.Unused queue
  | _ => True

section Step

variable [DecidableEq τ] [DecidableEq χ] {queue source : χ × QueueKind}

instance [Fintype τ] (s : PoolState τ χ) (queue : χ × QueueKind) :
    Decidable (s.Unused queue) :=
  inferInstanceAs (Decidable (∀ thread, (s.threads thread).queue ≠ some queue))

instance [Fintype τ] (s : PoolState τ χ) (a : PoolAction τ χ) :
    Decidable (s.LocksQueues a) :=
  match a with
  | .getFree _ queue _ _ => inferInstanceAs (Decidable (s.Unused queue))
  | .copyFrom _ queue source =>
    inferInstanceAs (Decidable (s.Unused queue ∧ s.Unused source))
  | .initCopyFrom _ queue source =>
    inferInstanceAs (Decidable (s.Unused queue ∧ s.Unused source))
  | .releaseAll _ queue => inferInstanceAs (Decidable (s.Unused queue))
  | .create _ | .destroy _ | .emplace _ _ | .count _ | .release _
  | .giveBack _ | .clear _ => inferInstanceAs (Decidable True)

/-- All queues of one context empty. -/
def dropQueues (s : PoolState τ χ) (ctx : χ) : χ × QueueKind → PooledQueue :=
  fun queue => if queue.1 = ctx then .init else s.queues queue

/-- Nothing behind the packets of one context. -/
def dropBehind (s : PoolState τ χ) (ctx : χ) :
    χ × QueueKind → List PooledPacket :=
  fun queue => if queue.1 = ctx then [] else s.behind queue

/-- The queues after `CopyFrom` from `source`, where `before` is what the
destination holds when it is called. -/
def copied (s : PoolState τ χ) (queue : χ × QueueKind) (before : PooledQueue)
    (source : χ × QueueKind) : χ × QueueKind → PooledQueue :=
  let result := before.copyFrom (s.queues source)
  Function.update (Function.update s.queues queue result.1) source result.2

/-- What is behind their packets then, where `behind` is what was behind those
of the destination.  `insert` writes over it, and `swap` exchanges it together
with the packets. -/
def copiedBehind (s : PoolState τ χ) (queue : χ × QueueKind)
    (before : PooledQueue) (behind : List PooledPacket)
    (source : χ × QueueKind) : χ × QueueKind → List PooledPacket :=
  let vec := (s.queues source).vecPacketPool
  let result := if before.iPacketNum > 0 then
      (behind.drop vec.length, vec ++ s.behind source)
    else
      (s.behind source, before.vecPacketPool ++ behind)
  Function.update (Function.update s.behind queue result.1) source result.2

omit [DecidableEq τ] in
theorem dropQueues_of_eq (s : PoolState τ χ) {ctx : χ} (h : queue.1 = ctx) :
    s.dropQueues ctx queue = .init := if_pos h

omit [DecidableEq τ] in
theorem dropQueues_of_ne (s : PoolState τ χ) {ctx : χ} (h : queue.1 ≠ ctx) :
    s.dropQueues ctx queue = s.queues queue := if_neg h

omit [DecidableEq τ] in
theorem dropBehind_of_ne (s : PoolState τ χ) {ctx : χ} (h : queue.1 ≠ ctx) :
    s.dropBehind ctx queue = s.behind queue := if_neg h

omit [DecidableEq τ] in
theorem copied_self (s : PoolState τ χ) (before : PooledQueue) (h : queue ≠ source) :
    s.copied queue before source queue = (before.copyFrom (s.queues source)).1 := by
  rw [copied, Function.update_of_ne h, Function.update_self]

omit [DecidableEq τ] in
theorem copied_source (s : PoolState τ χ) (queue source : χ × QueueKind)
    (before : PooledQueue) : s.copied queue before source source = .init := by
  rw [copied, Function.update_self, PooledQueue.copyFrom_snd]

omit [DecidableEq τ] in
theorem copied_of_ne (s : PoolState τ χ) {queue' : χ × QueueKind}
    (before : PooledQueue) (hqueue : queue' ≠ queue) (hsource : queue' ≠ source) :
    s.copied queue before source queue' = s.queues queue' := by
  rw [copied, Function.update_of_ne hsource, Function.update_of_ne hqueue]

omit [DecidableEq τ] in
theorem copiedBehind_of_ne (s : PoolState τ χ) {queue' : χ × QueueKind}
    (before : PooledQueue) (behind : List PooledPacket)
    (hqueue : queue' ≠ queue) (hsource : queue' ≠ source) :
    s.copiedBehind queue before behind source queue' = s.behind queue' := by
  rw [copiedBehind, Function.update_of_ne hsource, Function.update_of_ne hqueue]

/-- One step.  A step that reaches for memory which is not there has no
result: a block, the queue of a deleted context, or a cell in which no packet
has been constructed. -/
def step (s : PoolState τ χ) : PoolAction τ χ → Option (PoolState τ χ)
  | .create ctx =>
    if s.created ctx then
      none
    else
      some { s with
        created := Function.update s.created ctx true
        alive := Function.update s.alive ctx true
        queues := s.dropQueues ctx
        behind := s.dropBehind ctx }
  | .destroy ctx =>
    if s.alive ctx then
      some { s with
        alive := Function.update s.alive ctx false
        queues := s.dropQueues ctx
        behind := s.dropBehind ctx }
    else
      none
  | .getFree thread queue args address =>
    match s.threads thread with
    | .idle =>
      if s.alive queue.1 then
        (s.pool.getFreePacketMemory address).map fun result =>
          { s with
            pool := result.2
            threads := Function.update s.threads thread
              (.adding queue args result.1) }
      else
        none
    | _ => none
  | .emplace thread now =>
    match s.threads thread with
    | .adding queue args pstMemory =>
      if s.alive queue.1 then
        (s.pool.initMemory pstMemory args.iBufferSize args.pchBuffer).map
          fun pool =>
            { s with
              pool := pool
              behind := Function.update s.behind queue
                (args.packet now pstMemory :: (s.behind queue).tail)
              threads := Function.update s.threads thread
                (.counting queue (args.packet now pstMemory)) }
      else
        none
    | _ => none
  | .count thread =>
    match s.threads thread with
    | .counting queue _ =>
      if s.alive queue.1 then
        match s.behind queue with
        | [] => none
        -- whatever the cell holds by now
        | packet :: rest =>
          some { s with
            queues := Function.update s.queues queue
              ((s.queues queue).emplaceBack packet)
            behind := Function.update s.behind queue rest
            threads := Function.update s.threads thread .idle }
      else
        none
    | _ => none
  | .copyFrom thread queue source =>
    match s.threads thread with
    | .idle =>
      if queue ≠ source ∧ s.alive queue.1 ∧ s.alive source.1 then
        some { s with
          queues := s.copied queue (s.queues queue) source
          behind := s.copiedBehind queue (s.queues queue) (s.behind queue)
            source }
      else
        none
    | _ => none
  | .initCopyFrom thread queue source =>
    match s.threads thread with
    | .idle =>
      if queue ≠ source ∧ s.alive queue.1 ∧ s.alive source.1 then
        some { s with
          queues := s.copied queue .init source
          behind := s.copiedBehind queue .init
            ((s.queues queue).vecPacketPool ++ s.behind queue) source }
      else
        none
    | _ => none
  | .releaseAll thread queue =>
    match s.threads thread with
    | .idle =>
      if s.alive queue.1 then
        some { s with
          threads := Function.update s.threads thread
            (.releasing queue 0) }
      else
        none
    | _ => none
  | .release thread =>
    match s.threads thread with
    | .releasing queue position =>
      if s.alive queue.1 then
        match (s.queues queue).vecPacketPool[position]? with
        | none => none
        -- the packet stays in the vector until the loop has ended
        | some packet =>
          (s.pool.releaseMemory packet.pstMemory).map fun result =>
            { s with
              pool := result.2
              threads := Function.update s.threads thread
                (.givingBack queue position packet.pstMemory
                  result.1) }
      else
        none
    | _ => none
  | .giveBack thread =>
    match s.threads thread with
    | .givingBack queue position pstMemory iIndex =>
      (s.pool.giveBack pstMemory iIndex).map fun pool =>
        { s with
          pool := pool
          threads := Function.update s.threads thread
            (.releasing queue (position + 1)) }
    | _ => none
  | .clear thread =>
    match s.threads thread with
    | .releasing queue position =>
      if s.alive queue.1 ∧
          (s.queues queue).vecPacketPool.length = position then
        some { s with
          queues := Function.update s.queues queue (s.queues queue).clear
          behind := Function.update s.behind queue
            ((s.queues queue).vecPacketPool ++ s.behind queue)
          threads := Function.update s.threads thread .idle }
      else
        none
    | _ => none

/-! ## What a step can do -/

/-- The steps with their guards. -/
inductive Transition (s : PoolState τ χ) :
    PoolAction τ χ → PoolState τ χ → Prop where
  | create {ctx : χ} (hnew : s.created ctx = false) :
      Transition s (.create ctx) { s with
        created := Function.update s.created ctx true
        alive := Function.update s.alive ctx true
        queues := s.dropQueues ctx
        behind := s.dropBehind ctx }
  | destroy {ctx : χ} (halive : s.alive ctx = true) :
      Transition s (.destroy ctx) { s with
        alive := Function.update s.alive ctx false
        queues := s.dropQueues ctx
        behind := s.dropBehind ctx }
  | getFree {thread : τ} {queue : χ × QueueKind} {args : AddPacketArgs}
      {address : Nat} {pstMemory : MemoryRef} {pool : PacketMemoryPool}
      (hidle : s.threads thread = .idle) (halive : s.alive queue.1 = true)
      (hget : s.pool.getFreePacketMemory address = some (pstMemory, pool)) :
      Transition s (.getFree thread queue args address) { s with
        pool := pool
        threads := Function.update s.threads thread
          (.adding queue args pstMemory) }
  | emplace {thread : τ} {now : UInt64} {queue : χ × QueueKind}
      {args : AddPacketArgs} {pstMemory : MemoryRef} {pool : PacketMemoryPool}
      (hpc : s.threads thread = .adding queue args pstMemory)
      (halive : s.alive queue.1 = true)
      (hinit : s.pool.initMemory pstMemory args.iBufferSize args.pchBuffer =
        some pool) :
      Transition s (.emplace thread now) { s with
        pool := pool
        behind := Function.update s.behind queue
          (args.packet now pstMemory :: (s.behind queue).tail)
        threads := Function.update s.threads thread
          (.counting queue (args.packet now pstMemory)) }
  | count {thread : τ} {queue : χ × QueueKind} {placed packet : PooledPacket}
      {rest : List PooledPacket}
      (hpc : s.threads thread = .counting queue placed)
      (halive : s.alive queue.1 = true)
      (hbehind : s.behind queue = packet :: rest) :
      Transition s (.count thread) { s with
        queues := Function.update s.queues queue
          ((s.queues queue).emplaceBack packet)
        behind := Function.update s.behind queue rest
        threads := Function.update s.threads thread .idle }
  | copyFrom {thread : τ} {queue source : χ × QueueKind}
      (hidle : s.threads thread = .idle) (hne : queue ≠ source)
      (hqueue : s.alive queue.1 = true) (hsource : s.alive source.1 = true) :
      Transition s (.copyFrom thread queue source) { s with
        queues := s.copied queue (s.queues queue) source
        behind := s.copiedBehind queue (s.queues queue) (s.behind queue)
          source }
  | initCopyFrom {thread : τ} {queue source : χ × QueueKind}
      (hidle : s.threads thread = .idle) (hne : queue ≠ source)
      (hqueue : s.alive queue.1 = true) (hsource : s.alive source.1 = true) :
      Transition s (.initCopyFrom thread queue source) { s with
        queues := s.copied queue .init source
        behind := s.copiedBehind queue .init
          ((s.queues queue).vecPacketPool ++ s.behind queue) source }
  | releaseAll {thread : τ} {queue : χ × QueueKind}
      (hidle : s.threads thread = .idle) (halive : s.alive queue.1 = true) :
      Transition s (.releaseAll thread queue) { s with
        threads := Function.update s.threads thread (.releasing queue 0) }
  | release {thread : τ} {queue : χ × QueueKind} {position : Nat}
      {packet : PooledPacket} {iIndex : Int} {pool : PacketMemoryPool}
      (hpc : s.threads thread = .releasing queue position)
      (halive : s.alive queue.1 = true)
      (hpacket : (s.queues queue).vecPacketPool[position]? = some packet)
      (hrelease : s.pool.releaseMemory packet.pstMemory =
        some (iIndex, pool)) :
      Transition s (.release thread) { s with
        pool := pool
        threads := Function.update s.threads thread
          (.givingBack queue position packet.pstMemory iIndex) }
  | giveBack {thread : τ} {queue : χ × QueueKind} {position : Nat}
      {pstMemory : MemoryRef} {iIndex : Int} {pool : PacketMemoryPool}
      (hpc : s.threads thread = .givingBack queue position pstMemory iIndex)
      (hgive : s.pool.giveBack pstMemory iIndex = some pool) :
      Transition s (.giveBack thread) { s with
        pool := pool
        threads := Function.update s.threads thread
          (.releasing queue (position + 1)) }
  | clear {thread : τ} {queue : χ × QueueKind} {position : Nat}
      (hpc : s.threads thread = .releasing queue position)
      (halive : s.alive queue.1 = true)
      (hend : (s.queues queue).vecPacketPool.length = position) :
      Transition s (.clear thread) { s with
        queues := Function.update s.queues queue (s.queues queue).clear
        behind := Function.update s.behind queue
          ((s.queues queue).vecPacketPool ++ s.behind queue)
        threads := Function.update s.threads thread .idle }

theorem transition_of_step {s s' : PoolState τ χ} {a : PoolAction τ χ}
    (h : s.step a = some s') : s.Transition a s' := by
  cases a with
  | create ctx =>
    simp only [step] at h
    split at h
    · cases h
    · next hnew =>
      cases h
      exact .create (by simpa using hnew)
  | destroy ctx =>
    simp only [step] at h
    split at h
    · next halive =>
      cases h
      exact .destroy halive
    · cases h
  | getFree thread queue args address =>
    simp only [step] at h
    split at h
    · next hidle =>
      split at h
      · next halive =>
        obtain ⟨⟨pstMemory, pool⟩, hget, rfl⟩ :=
          Option.map_eq_some_iff.mp h
        exact .getFree hidle halive hget
      · cases h
    · cases h
  | emplace thread now =>
    simp only [step] at h
    split at h
    · next hpc =>
      split at h
      · next halive =>
        obtain ⟨pool, hinit, rfl⟩ := Option.map_eq_some_iff.mp h
        exact .emplace hpc halive hinit
      · cases h
    · cases h
  | count thread =>
    simp only [step] at h
    split at h
    · next hpc =>
      split at h
      · next halive =>
        split at h
        · cases h
        · next hbehind =>
          cases h
          exact .count hpc halive hbehind
      · cases h
    · cases h
  | copyFrom thread queue source =>
    simp only [step] at h
    split at h
    · next hidle =>
      split at h
      · next hguard =>
        cases h
        exact .copyFrom hidle hguard.1 hguard.2.1 hguard.2.2
      · cases h
    · cases h
  | initCopyFrom thread queue source =>
    simp only [step] at h
    split at h
    · next hidle =>
      split at h
      · next hguard =>
        cases h
        exact .initCopyFrom hidle hguard.1 hguard.2.1 hguard.2.2
      · cases h
    · cases h
  | releaseAll thread queue =>
    simp only [step] at h
    split at h
    · next hidle =>
      split at h
      · next halive =>
        cases h
        exact .releaseAll hidle halive
      · cases h
    · cases h
  | release thread =>
    simp only [step] at h
    split at h
    · next hpc =>
      split at h
      · next halive =>
        split at h
        · cases h
        · next hpacket =>
          obtain ⟨⟨iIndex, pool⟩, hrelease, rfl⟩ :=
            Option.map_eq_some_iff.mp h
          exact .release hpc halive hpacket hrelease
      · cases h
    · cases h
  | giveBack thread =>
    simp only [step] at h
    split at h
    · next hpc =>
      obtain ⟨pool, hgive, rfl⟩ := Option.map_eq_some_iff.mp h
      exact .giveBack hpc hgive
    · cases h
  | clear thread =>
    simp only [step] at h
    split at h
    · next hpc =>
      split at h
      · next hguard =>
        cases h
        exact .clear hpc hguard.1 hguard.2
      · cases h
    · cases h

end Step

end PoolState

end Network
end GameServer
