import GameServer.Network.Packet

/-!
# Packet queues

`NetPacketQueue` of `queue.h`: a vector of packets with a cached counter.  The
counter decides between the two branches of `CopyFrom`, and `ReleaseAllPackets`
empties the vector without touching it.  The counter is kept unbounded; a
queue of 2^31 packets is out of reach of the process's memory.

Two notions relate counter and vector.  `Counted` says that they agree;
`NoneHidden` says only that a zero counter means an empty vector, which is what
`CopyFrom` relies on and what `ReleaseAllPackets` does keep.
-/

namespace GameServer
namespace Network

/-- `NetPacketQueue`. -/
structure NetPacketQueue where
  iPacketNum : Nat
  vecPacketPool : List NetPacketBuffer
deriving Repr, DecidableEq

namespace NetPacketQueue

/-- `Init`: an empty queue with a zero counter. -/
def init : NetPacketQueue := ⟨0, []⟩

/-- `Size`: the cached counter. -/
def size (queue : NetPacketQueue) : Nat := queue.iPacketNum

/-- `CopyFrom`: the two queues after it.  A positive counter appends the source
to the destination, otherwise the vectors are swapped; in both cases the source
is re-initialised, so what the swap put there is dropped. -/
def copyFrom (queue source : NetPacketQueue) :
    NetPacketQueue × NetPacketQueue :=
  if queue.iPacketNum > 0 then
    let vec := queue.vecPacketPool ++ source.vecPacketPool
    (⟨vec.length, vec⟩, init)
  else
    let vec := source.vecPacketPool
    (⟨vec.length, vec⟩, init)

/-- `AddPacket`: `none` when the memory block's assertion fails. -/
def addPacket (queue : NetPacketQueue) (ulClientSeq : UInt64)
    (iSockFd iProtoNo : Int) (iBufferSize : Nat) (pchBuffer : List Byte)
    (now : UInt64) : Option NetPacketQueue :=
  (NetPacketBuffer.create ulClientSeq iSockFd iProtoNo iBufferSize pchBuffer
    now).map fun packet =>
      ⟨queue.iPacketNum + 1, queue.vecPacketPool ++ [packet]⟩

/-- `ReleaseAllPackets`: the packets go back to the pool, the counter stays. -/
def releaseAllPackets (queue : NetPacketQueue) : NetPacketQueue :=
  { queue with vecPacketPool := [] }

/-- The counter is the length of the vector. -/
def Counted (queue : NetPacketQueue) : Prop :=
  queue.iPacketNum = queue.vecPacketPool.length

/-- A zero counter means that there is no packet. -/
def NoneHidden (queue : NetPacketQueue) : Prop :=
  queue.iPacketNum = 0 → queue.vecPacketPool = []

@[simp] theorem vecPacketPool_init : init.vecPacketPool = [] := rfl

@[simp] theorem counted_init : init.Counted := rfl

variable {queue : NetPacketQueue}

theorem Counted.noneHidden (h : queue.Counted) : queue.NoneHidden := by
  intro hzero
  rw [Counted, hzero] at h
  exact List.length_eq_zero_iff.mp h.symm

theorem noneHidden_releaseAllPackets (queue : NetPacketQueue) :
    queue.releaseAllPackets.NoneHidden :=
  fun _ => rfl

/-- Whatever branch it takes, `CopyFrom` leaves the counter in step. -/
theorem counted_copyFrom (queue source : NetPacketQueue) : (queue.copyFrom source).1.Counted := by
  unfold copyFrom
  split <;> rfl

@[simp] theorem copyFrom_snd (queue source : NetPacketQueue) :
    (queue.copyFrom source).2 = init := by
  unfold copyFrom
  split <;> rfl

/-- Where no packet hides behind a zero counter, both branches append the
source to the destination. -/
theorem copyFrom_eq (h : queue.NoneHidden) (source : NetPacketQueue) :
    (queue.copyFrom source).1 =
      ⟨(queue.vecPacketPool ++ source.vecPacketPool).length,
        queue.vecPacketPool ++ source.vecPacketPool⟩ := by
  unfold copyFrom
  split_ifs with hpositive
  · rfl
  · rw [h (by omega), List.nil_append]

theorem vecPacketPool_copyFrom (h : queue.NoneHidden) (source : NetPacketQueue) :
    (queue.copyFrom source).1.vecPacketPool = queue.vecPacketPool ++ source.vecPacketPool := by
  rw [copyFrom_eq h]

/-- A freshly initialised queue takes over the source as it is. -/
theorem vecPacketPool_init_copyFrom (source : NetPacketQueue) :
    (init.copyFrom source).1.vecPacketPool = source.vecPacketPool := by
  rw [vecPacketPool_copyFrom counted_init.noneHidden]
  rfl

/-- `AddPacket` appends one packet and counts it. -/
theorem addPacket_eq_some_iff {after : NetPacketQueue} {ulClientSeq : UInt64}
    {iSockFd iProtoNo : Int} {iBufferSize : Nat} {pchBuffer : List Byte}
    {now : UInt64} :
    queue.addPacket ulClientSeq iSockFd iProtoNo iBufferSize pchBuffer now = some after ↔
      iBufferSize ≤ networkPacketBufferMaxSize ∧
        after = ⟨queue.iPacketNum + 1, queue.vecPacketPool ++
          [⟨ulClientSeq, iSockFd, iProtoNo, iBufferSize, now, pchBuffer.take iBufferSize⟩]⟩ := by
  unfold addPacket
  rw [Option.map_eq_some_iff]
  constructor
  · rintro ⟨packet, hcreate, rfl⟩
    obtain ⟨hmax, rfl⟩ := NetPacketBuffer.create_eq_some_iff.mp hcreate
    exact ⟨hmax, rfl⟩
  · rintro ⟨hmax, rfl⟩
    exact ⟨_, NetPacketBuffer.create_eq_some_iff.mpr ⟨hmax, rfl⟩, rfl⟩

/-- `AddPacket` keeps a counter in step. -/
theorem counted_addPacket {after : NetPacketQueue} (h : queue.Counted)
    {ulClientSeq : UInt64} {iSockFd iProtoNo : Int} {iBufferSize : Nat}
    {pchBuffer : List Byte} {now : UInt64}
    (hadd : queue.addPacket ulClientSeq iSockFd iProtoNo iBufferSize pchBuffer
      now = some after) : after.Counted := by
  obtain ⟨-, rfl⟩ := addPacket_eq_some_iff.mp hadd
  have hcount : queue.iPacketNum = queue.vecPacketPool.length := h
  show queue.iPacketNum + 1 = (queue.vecPacketPool ++ [_]).length
  rw [List.length_append, List.length_singleton, hcount]

/-- What a loop over the packets has ahead of it starts with the packet at its
index. -/
theorem drop_of_getElem? {i : Nat} {packet : NetPacketBuffer}
    (h : queue.vecPacketPool[i]? = some packet) :
    queue.vecPacketPool.drop i = packet :: queue.vecPacketPool.drop (i + 1) := by
  obtain ⟨hi, hget⟩ := List.getElem?_eq_some_iff.mp h
  rw [List.drop_eq_getElem_cons hi, hget]

end NetPacketQueue

end Network
end GameServer
