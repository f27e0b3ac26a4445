import GameServer.Lib.Memory
import GameServer.Lib.StdMap
import GameServer.Network.Queue

/-!
# The packet memory pool

`packet_pool.h`: 4096 memory blocks in an array, a queue with the indexes of
the free ones, and blocks from `new` with the index -1 when that queue is
empty.  A block stores a short body in its inline array and a long one in an
extra allocation, and `GetBuffer` tells the two apart by the extra pointer
alone.

`queue.h` and `packet.h` again, this time with the pointer to the block in the
packet instead of its content.  A packet remembers, as history, the bytes it
was added with.

The threads' operations are cut where another thread can come in between:
`AddPacket` takes a block from the pool and fills it afterwards, and
`ReleaseAllPackets` clears and gives back one block after the other.
-/

namespace GameServer
namespace Network

open Lib

/-- `MAX_PACKET_MEMORY_POOL_SIZE`. -/
def maxPacketMemoryPoolSize : Nat := 4096

/-- A pointer to an `ST_PacketMemory`: into the pool's array, or to a block
from `new`. -/
inductive MemoryRef where
  | slot (iIndex : Nat)
  | heap (address : Nat)
deriving Repr, DecidableEq

/-- The index that `SetIndex` stores in a block when it is handed out. -/
def MemoryRef.index : MemoryRef → Int
  | .slot iIndex => iIndex
  | .heap _ => -1

/-! ## Memory blocks -/

/-- `ST_PacketMemory`. -/
structure PacketMemory where
  iIndex : Int
  achBytesArray : List Byte
  pchBytesExtraSpace : Option (List Byte)
  length_achBytesArray :
    achBytesArray.length = networkPacketBufferDefaultSize

namespace PacketMemory

/-- `construct`: all zero. -/
def construct : PacketMemory where
  iIndex := 0
  achBytesArray := List.replicate networkPacketBufferDefaultSize 0
  pchBytesExtraSpace := none
  length_achBytesArray := List.length_replicate

/-- `SetIndex`. -/
def setIndex (block : PacketMemory) (iIndex : Int) : PacketMemory :=
  { block with iIndex := iIndex }

/-- `release`: the extra allocation is deleted, then everything is zeroed, the
index included. -/
def release (_block : PacketMemory) : PacketMemory := construct

/-- `GetBuffer`: the bytes behind the pointer it returns. -/
def getBuffer (block : PacketMemory) : List Byte :=
  match block.pchBytesExtraSpace with
  | some extra => extra
  | none => block.achBytesArray

/-- The inline branch of `Init`. -/
def copyInline (block : PacketMemory) (bytes : List Byte) : PacketMemory where
  iIndex := block.iIndex
  achBytesArray := memcpy block.achBytesArray 0 bytes
  pchBytesExtraSpace := block.pchBytesExtraSpace
  length_achBytesArray := by
    rw [length_memcpy]
    exact block.length_achBytesArray

/-- `Init`.  There is no result when the assertion on the size fails, or when
the copy would read behind the end of `pchBuffer`. -/
def init (block : PacketMemory) (iBufferSize : Nat) (pchBuffer : List Byte) :
    Option PacketMemory :=
  if pchBuffer.length < iBufferSize then
    none
  else if networkPacketBufferDefaultSize ≤ iBufferSize then
    if networkPacketBufferMaxSize ≥ iBufferSize then
      some { block with
        pchBytesExtraSpace := some (pchBuffer.take iBufferSize) }
    else
      none
  else
    some (block.copyInline (pchBuffer.take iBufferSize))

/-- A block without an extra allocation. -/
def Blank (block : PacketMemory) : Prop := block.pchBytesExtraSpace = none

@[simp] theorem blank_construct : construct.Blank := rfl

@[simp] theorem blank_release (block : PacketMemory) : block.release.Blank :=
  rfl

@[simp] theorem blank_setIndex (block : PacketMemory) (iIndex : Int) :
    (block.setIndex iIndex).Blank ↔ block.Blank := Iff.rfl

@[simp] theorem iIndex_setIndex (block : PacketMemory) (iIndex : Int) :
    (block.setIndex iIndex).iIndex = iIndex := rfl

/-- `Init` accepts bodies of at most the maximal size and keeps the index.  On a
block without an extra allocation `GetBuffer` shows the copied bytes
afterwards, whatever the inline array held before. -/
theorem init_spec {block after : PacketMemory} {iBufferSize : Nat}
    {pchBuffer : List Byte}
    (h : block.init iBufferSize pchBuffer = some after) :
    iBufferSize ≤ networkPacketBufferMaxSize ∧ after.iIndex = block.iIndex ∧ (block.Blank →
        after.getBuffer.take iBufferSize = pchBuffer.take iBufferSize) := by
  have hsizes : networkPacketBufferDefaultSize ≤ networkPacketBufferMaxSize :=
    by decide
  unfold init at h
  split_ifs at h with hshort hlong hmax
  · obtain rfl := Option.some.inj h
    refine ⟨hmax, rfl, fun _ => ?_⟩
    show (pchBuffer.take iBufferSize).take iBufferSize = _
    rw [List.take_take, Nat.min_self]
  · obtain rfl := Option.some.inj h
    refine ⟨by omega, rfl, fun hblank => ?_⟩
    -- an extra allocation left over would hide the inline array
    have hextra : (block.copyInline (pchBuffer.take iBufferSize)).pchBytesExtraSpace =
          none := hblank
    have hlength : (pchBuffer.take iBufferSize).length = iBufferSize := by
      rw [List.length_take]
      omega
    have hfits : (pchBuffer.take iBufferSize).length ≤
        block.achBytesArray.length := by
      rw [hlength, block.length_achBytesArray]
      omega
    have hcopy := take_memcpy_zero hfits
    rw [hlength] at hcopy
    rw [getBuffer, hextra]
    exact hcopy

/-- `Init` accepts every body of at most the maximal size. -/
theorem exists_init (block : PacketMemory) {iBufferSize : Nat}
    {pchBuffer : List Byte} (hmax : iBufferSize ≤ networkPacketBufferMaxSize)
    (hread : iBufferSize ≤ pchBuffer.length) :
    ∃ after, block.init iBufferSize pchBuffer = some after := by
  unfold init
  rw [if_neg (by omega)]
  split_ifs
  · exact ⟨_, rfl⟩
  · exact ⟨_, rfl⟩

end PacketMemory

/-! ## The pool -/

/-- `CPacketMemoryPool`: what its array and the allocated blocks contain, and
the indexes of the free slots. -/
structure PacketMemoryPool where
  memory : MemoryRef → Option PacketMemory
  packetIndexFreeQueue : List Nat

namespace PacketMemoryPool

/-- The constructor: every slot constructed, indexed and free. -/
def construct : PacketMemoryPool where
  memory
    | .slot iIndex =>
      if iIndex < maxPacketMemoryPoolSize then
        some (PacketMemory.construct.setIndex iIndex)
      else
        none
    | .heap _ => none
  packetIndexFreeQueue := List.range maxPacketMemoryPoolSize

theorem packetIndexFreeQueue_construct :
    construct.packetIndexFreeQueue = List.range maxPacketMemoryPoolSize := by
  rw [construct]

theorem memory_construct_slot {iIndex : Nat} (h : iIndex < maxPacketMemoryPoolSize) :
    construct.memory (.slot iIndex) = some (PacketMemory.construct.setIndex iIndex) := by
  rw [construct]
  exact if_pos h

/-- `GetFreePacketMemory`, one critical section: the pointer it returns and the
pool after it.  `address` is where `new` puts a block, which must be free. -/
def getFreePacketMemory (pool : PacketMemoryPool) (address : Nat) :
    Option (MemoryRef × PacketMemoryPool) :=
  match pool.packetIndexFreeQueue with
  | [] =>
    -- no slot is left: a block of its own, which the index -1 marks
    match pool.memory (.heap address) with
    | some _ => none
    | none =>
      some (.heap address, { pool with
        memory := Function.update pool.memory (.heap address)
          (some (PacketMemory.construct.setIndex (-1))) })
  | iIndex :: rest =>
    (pool.memory (.slot iIndex)).map fun block =>
      (.slot iIndex, {
        memory := Function.update pool.memory (.slot iIndex)
          (some (block.setIndex iIndex))
        packetIndexFreeQueue := rest })

/-- `ReleasePacketMemory` up to `release()`: the index it has read, and the
pool after it. -/
def releaseMemory (pool : PacketMemoryPool) (pstMemory : MemoryRef) :
    Option (Int × PacketMemoryPool) :=
  (pool.memory pstMemory).map fun block =>
    (block.iIndex, { pool with
      memory := Function.update pool.memory pstMemory (some block.release) })

/-- The rest of `ReleasePacketMemory`: a block with a negative index is
deleted, the index of another one is pushed.  Deleting a slot of the array has
no result. -/
def giveBack (pool : PacketMemoryPool) (pstMemory : MemoryRef)
    (iIndex : Int) : Option PacketMemoryPool :=
  if iIndex ≤ -1 then
    match pstMemory with
    | .slot _ => none
    | .heap address =>
      some { pool with
        memory := Function.update pool.memory (.heap address) none }
  else
    some { pool with
      packetIndexFreeQueue := pool.packetIndexFreeQueue ++ [iIndex.toNat] }

/-- `Init` on the block a pointer leads to. -/
def initMemory (pool : PacketMemoryPool) (pstMemory : MemoryRef)
    (iBufferSize : Nat) (pchBuffer : List Byte) : Option PacketMemoryPool :=
  ((pool.memory pstMemory).bind fun block =>
    block.init iBufferSize pchBuffer).map fun block =>
      { pool with memory := Function.update pool.memory pstMemory (some block) }

/-- The array has no slots beyond its size. -/
def InRange (pool : PacketMemoryPool) : Prop :=
  ∀ iIndex, pool.memory (.slot iIndex) ≠ none →
    iIndex < maxPacketMemoryPoolSize

theorem inRange_construct : construct.InRange := by
  intro iIndex hmemory
  by_contra hlt
  rw [construct] at hmemory
  exact hmemory (if_neg hlt)

variable {pool pool' : PacketMemoryPool} {pstMemory : MemoryRef}

/-- Writing to a block that is there, or deleting one, adds no slot. -/
theorem InRange.update (h : pool.InRange) {ref : MemoryRef}
    {block : Option PacketMemory} {free : List Nat}
    (hthere : ∀ iIndex, ref = .slot iIndex → pool.memory ref ≠ none) :
    InRange ⟨Function.update pool.memory ref block, free⟩ := by
  intro iIndex hmemory
  by_cases heq : .slot iIndex = ref
  · apply h iIndex
    rw [heq]
    exact hthere iIndex heq.symm
  · apply h iIndex
    simpa only [Function.update_of_ne heq] using hmemory

/-- What `GetFreePacketMemory` can do. -/
theorem getFreePacketMemory_cases {address : Nat}
    (h : pool.getFreePacketMemory address = some (pstMemory, pool')) :
    (pool.packetIndexFreeQueue = [] ∧ pstMemory = .heap address ∧
        pool.memory (.heap address) = none ∧
        pool' = { pool with
          memory := Function.update pool.memory (.heap address)
            (some (PacketMemory.construct.setIndex (-1))) }) ∨
      ∃ iIndex rest block, pool.packetIndexFreeQueue = iIndex :: rest ∧
        pstMemory = .slot iIndex ∧ pool.memory (.slot iIndex) = some block ∧
        pool' = {
          memory := Function.update pool.memory (.slot iIndex) (some (block.setIndex iIndex))
          packetIndexFreeQueue := rest } := by
  unfold getFreePacketMemory at h
  split at h
  · next hempty =>
    split at h
    · cases h
    · next hfree =>
      cases h
      exact .inl ⟨hempty, rfl, hfree, rfl⟩
  · next iIndex rest hfirst =>
    obtain ⟨block, hblock, heq⟩ := Option.map_eq_some_iff.mp h
    cases heq
    exact .inr ⟨iIndex, rest, block, hfirst, rfl, hblock, rfl⟩

theorem releaseMemory_eq_some_iff {iIndex : Int} :
    pool.releaseMemory pstMemory = some (iIndex, pool') ↔
      ∃ block, pool.memory pstMemory = some block ∧ block.iIndex = iIndex ∧
        { pool with
          memory := Function.update pool.memory pstMemory (some block.release) } = pool' := by
  simp only [releaseMemory, Option.map_eq_some_iff, Prod.mk.injEq]

theorem initMemory_eq_some_iff {iBufferSize : Nat} {pchBuffer : List Byte} :
    pool.initMemory pstMemory iBufferSize pchBuffer = some pool' ↔
      ∃ block after, pool.memory pstMemory = some block ∧
        block.init iBufferSize pchBuffer = some after ∧
        { pool with
          memory := Function.update pool.memory pstMemory (some after) } =
            pool' := by
  simp only [initMemory, Option.map_eq_some_iff, Option.bind_eq_some_iff]
  grind

/-- What the second half of `ReleasePacketMemory` can do with the index that
belongs to the pointer. -/
theorem giveBack_cases (h : pool.giveBack pstMemory pstMemory.index = some pool') :
    (∃ address, pstMemory = .heap address ∧ pool' = { pool with
          memory := Function.update pool.memory (.heap address) none }) ∨
      ∃ iIndex, pstMemory = .slot iIndex ∧ pool' = { pool with
          packetIndexFreeQueue := pool.packetIndexFreeQueue ++ [iIndex] } := by
  cases pstMemory with
  | slot iIndex =>
    refine .inr ⟨iIndex, rfl, ?_⟩
    rw [giveBack, if_neg (by simp only [MemoryRef.index]; omega)] at h
    exact (Option.some.inj h).symm
  | heap address =>
    refine .inl ⟨address, rfl, ?_⟩
    rw [giveBack, if_pos (by simp only [MemoryRef.index]; omega)] at h
    exact (Option.some.inj h).symm

end PacketMemoryPool

/-! ## Packets and queues with pointers -/

/-- `NetPacketBuffer` with its pointer.  `added` is history: the bytes the
packet was added with. -/
structure PooledPacket where
  ulClientSeq : UInt64
  iSockFd : Int
  iProtoNo : Int
  iBufferSize : Nat
  dwCreateTime : UInt64
  pstMemory : MemoryRef
  added : List Byte
deriving Repr, DecidableEq

/-- The packet with its content by value. -/
def PooledPacket.value (packet : PooledPacket) : NetPacketBuffer :=
  ⟨packet.ulClientSeq, packet.iSockFd, packet.iProtoNo, packet.iBufferSize,
    packet.dwCreateTime, packet.added⟩

/-- A packet whose sizes have passed the check of `Init`. -/
def PooledPacket.WellSized (packet : PooledPacket) : Prop :=
  packet.iBufferSize ≤ networkPacketBufferMaxSize ∧
    packet.added.length ≤ packet.iBufferSize

/-- `NetPacketQueue` of packets with pointers. -/
structure PooledQueue where
  iPacketNum : Nat
  vecPacketPool : List PooledPacket
deriving Repr, DecidableEq

namespace PooledQueue

/-- `Init`: the packets are dropped, and their memory is not given back. -/
def init : PooledQueue := ⟨0, []⟩

/-- `CopyFrom`: the two queues after it. -/
def copyFrom (queue source : PooledQueue) : PooledQueue × PooledQueue :=
  if queue.iPacketNum > 0 then
    let vec := queue.vecPacketPool ++ source.vecPacketPool
    (⟨vec.length, vec⟩, init)
  else
    -- `swap`: what the destination held goes with `Init` of the source
    let vec := source.vecPacketPool
    (⟨vec.length, vec⟩, init)

/-- The end of `AddPacket`. -/
def emplaceBack (queue : PooledQueue) (packet : PooledPacket) : PooledQueue :=
  ⟨queue.iPacketNum + 1, queue.vecPacketPool ++ [packet]⟩

/-- The end of `ReleaseAllPackets`: the counter stays. -/
def clear (queue : PooledQueue) : PooledQueue :=
  { queue with vecPacketPool := [] }

/-- The queue with its packets by value. -/
def value (queue : PooledQueue) : NetPacketQueue :=
  ⟨queue.iPacketNum, queue.vecPacketPool.map PooledPacket.value⟩

/-- A zero counter means that there is no packet. -/
def NoneHidden (queue : PooledQueue) : Prop :=
  queue.iPacketNum = 0 → queue.vecPacketPool = []

@[simp] theorem vecPacketPool_init : init.vecPacketPool = [] := rfl

@[simp] theorem value_init : init.value = NetPacketQueue.init := rfl

@[simp] theorem copyFrom_snd (queue source : PooledQueue) : (queue.copyFrom source).2 = init := by
  unfold copyFrom
  split <;> rfl

/-- What the destination holds after `CopyFrom`: the source's packets, behind
its own ones if its counter was positive. -/
theorem copyFrom_fst_vec (queue source : PooledQueue) :
    ∃ kept, (queue.copyFrom source).1.vecPacketPool = kept ++ source.vecPacketPool ∧
      (kept = queue.vecPacketPool ∨ kept = [] ∧ queue.iPacketNum = 0) := by
  unfold copyFrom
  split_ifs with hpositive
  · exact ⟨_, rfl, .inl rfl⟩
  · exact ⟨[], rfl, .inr ⟨rfl, by omega⟩⟩

theorem vecPacketPool_init_copyFrom (source : PooledQueue) :
    (init.copyFrom source).1.vecPacketPool = source.vecPacketPool := rfl

/-- Where no packet hides behind a zero counter, both branches append the
source to the destination. -/
theorem vecPacketPool_copyFrom {queue : PooledQueue} (h : queue.NoneHidden) (source : PooledQueue) :
    (queue.copyFrom source).1.vecPacketPool = queue.vecPacketPool ++ source.vecPacketPool := by
  obtain ⟨kept, hvec, rfl | ⟨rfl, hzero⟩⟩ := queue.copyFrom_fst_vec source
  · exact hvec
  · rw [hvec, h hzero]

theorem noneHidden_init : init.NoneHidden := fun _ => rfl

theorem noneHidden_clear (queue : PooledQueue) : queue.clear.NoneHidden :=
  fun _ => rfl

theorem noneHidden_emplaceBack (queue : PooledQueue) (packet : PooledPacket) :
    (queue.emplaceBack packet).NoneHidden := by
  intro hzero
  exact (Nat.succ_ne_zero _ hzero).elim

theorem noneHidden_copyFrom (queue source : PooledQueue) :
    (queue.copyFrom source).1.NoneHidden := by
  unfold copyFrom
  split_ifs
  · exact List.length_eq_zero_iff.mp
  · exact List.length_eq_zero_iff.mp

/-- By value, `CopyFrom` is the function of the same name. -/
theorem value_copyFrom (queue source : PooledQueue) :
    (queue.copyFrom source).1.value = (queue.value.copyFrom source.value).1 := by
  unfold copyFrom NetPacketQueue.copyFrom
  by_cases hpositive : queue.iPacketNum > 0
  · rw [if_pos hpositive, if_pos (show queue.value.iPacketNum > 0 from
      hpositive)]
    simp [value]
  · rw [if_neg hpositive, if_neg (show ¬ queue.value.iPacketNum > 0 from
      hpositive)]
    simp [value]

/-- By value, the end of `ReleaseAllPackets` is the whole function. -/
theorem value_clear (queue : PooledQueue) : queue.clear.value = queue.value.releaseAllPackets := rfl

end PooledQueue

end Network
end GameServer
