import GameServer.Lib.Transition
import GameServer.Network.Queue

/-!
# Packet queues along a run

`CopyFrom` asks the counter whether the destination has packets and, if it says
no, swaps the vectors and drops what the swap has brought to the source.  The
counter may be wrong: `ReleaseAllPackets` leaves it as it is, and it is an
`int32_t`, so it goes astray with a vector of `2^31` packets.

Here the counter has its 32 bits.  `toNetPacketQueue` leads to the queue with
an unbounded counter, and the operations agree as long as the packets can be
counted.  The runs are those of any number of queues with any calls of `Init`,
`CopyFrom` and `ReleaseAllPackets`, and with calls of `AddPacket` on queues not
released since their last `Init`.  In each of them a zero counter means an
empty vector, so the two branches of `CopyFrom` do the same
(`copyFrom_appends`).
-/

namespace GameServer
namespace Network

open Lib

/-! ## The queue with its 32-bit counter -/

/-- `NetPacketQueue`, with `m_iPacketNum` as the `int32_t` it is. -/
structure NetPacketQueue32 where
  iPacketNum : Int32
  vecPacketPool : List NetPacketBuffer
deriving Repr, DecidableEq

namespace NetPacketQueue32

/-- `Init`. -/
def init : NetPacketQueue32 := ⟨0, []⟩

/-- `m_iPacketNum = m_vecPacketPool.size()`. -/
def ofVec (vec : List NetPacketBuffer) : NetPacketQueue32 :=
  ⟨Int32.ofNat vec.length, vec⟩

/-- The branch of `CopyFrom` that inserts the source behind the destination:
both queues after it. -/
def insertFrom (queue source : NetPacketQueue32) :
    NetPacketQueue32 × NetPacketQueue32 :=
  (ofVec (queue.vecPacketPool ++ source.vecPacketPool), init)

/-- The branch of `CopyFrom` that swaps the vectors.  The source has the old
vector of the destination when it is initialised, and drops it. -/
def swapFrom (_queue source : NetPacketQueue32) :
    NetPacketQueue32 × NetPacketQueue32 :=
  (ofVec source.vecPacketPool, init)

/-- `CopyFrom`; the value it returns is the new counter of the destination. -/
def copyFrom (queue source : NetPacketQueue32) :
    NetPacketQueue32 × NetPacketQueue32 :=
  if queue.iPacketNum > 0 then queue.insertFrom source
  else queue.swapFrom source

/-- `AddPacket`: `none` when the memory block's assertion fails. -/
def addPacket (queue : NetPacketQueue32) (ulClientSeq : UInt64)
    (iSockFd iProtoNo : Int) (iBufferSize : Nat) (pchBuffer : List Byte)
    (now : UInt64) : Option NetPacketQueue32 :=
  (NetPacketBuffer.create ulClientSeq iSockFd iProtoNo iBufferSize pchBuffer
    now).map fun packet =>
      ⟨queue.iPacketNum + 1, queue.vecPacketPool ++ [packet]⟩

/-- `ReleaseAllPackets`: the counter stays. -/
def releaseAllPackets (queue : NetPacketQueue32) : NetPacketQueue32 :=
  { queue with vecPacketPool := [] }

/-- The queue with an unbounded counter; a negative one counts nothing. -/
def toNetPacketQueue (queue : NetPacketQueue32) : NetPacketQueue :=
  ⟨queue.iPacketNum.toNatClampNeg, queue.vecPacketPool⟩

@[simp] theorem vecPacketPool_toNetPacketQueue (queue : NetPacketQueue32) :
    queue.toNetPacketQueue.vecPacketPool = queue.vecPacketPool := rfl

@[simp] theorem toNetPacketQueue_init : init.toNetPacketQueue = NetPacketQueue.init := rfl

/-- Fewer than `2^31` packets can be counted. -/
theorem toNetPacketQueue_ofVec {vec : List NetPacketBuffer} (hfew : vec.length < 2 ^ 31) :
    (ofVec vec).toNetPacketQueue = ⟨vec.length, vec⟩ := by
  rw [ofVec, toNetPacketQueue, Int32.toNatClampNeg_ofNat_of_lt hfew]

/-- A positive counter is one that counts something. -/
theorem iPacketNum_pos_iff (queue : NetPacketQueue32) :
    queue.iPacketNum > 0 ↔ queue.toNetPacketQueue.iPacketNum > 0 := by
  rw [gt_iff_lt, Int32.lt_iff_toInt_lt]
  show 0 < queue.iPacketNum.toInt ↔ 0 < queue.iPacketNum.toInt.toNat
  omega

variable {queue source : NetPacketQueue32}

/-- `CopyFrom` is that of the unbounded queue. -/
theorem toNetPacketQueue_copyFrom
    (hfew : queue.vecPacketPool.length + source.vecPacketPool.length < 2 ^ 31) :
    (queue.copyFrom source).1.toNetPacketQueue =
      (queue.toNetPacketQueue.copyFrom source.toNetPacketQueue).1 := by
  rw [copyFrom, NetPacketQueue.copyFrom]
  simp only [iPacketNum_pos_iff]
  split_ifs with hpos
  · rw [← List.length_append] at hfew
    exact toNetPacketQueue_ofVec hfew
  · exact toNetPacketQueue_ofVec (by omega)

/-- Whatever branch is taken, the source is initialised. -/
@[simp] theorem snd_copyFrom (queue source : NetPacketQueue32) :
    (queue.copyFrom source).2 = init := by
  unfold copyFrom
  split <;> rfl

/-- `AddPacket` counts the packet, if it can. -/
theorem addPacket_toNetPacketQueue {after : NetPacketQueue32} (hnonneg : 0 ≤ queue.iPacketNum.toInt)
    (hfew : queue.iPacketNum.toInt + 1 < 2 ^ 31) {ulClientSeq : UInt64}
    {iSockFd iProtoNo : Int} {iBufferSize : Nat} {pchBuffer : List Byte}
    {now : UInt64}
    (h : queue.addPacket ulClientSeq iSockFd iProtoNo iBufferSize pchBuffer now = some after) :
    queue.toNetPacketQueue.addPacket ulClientSeq iSockFd iProtoNo iBufferSize
        pchBuffer now = some after.toNetPacketQueue ∧
      after.iPacketNum.toInt = queue.iPacketNum.toInt + 1 := by
  obtain ⟨packet, hcreate, rfl⟩ := Option.map_eq_some_iff.mp h
  have hsucc : (queue.iPacketNum + 1).toInt = queue.iPacketNum.toInt + 1 := by
    rw [Int32.toInt_add]
    show (queue.iPacketNum.toInt + 1).bmod (2 ^ 32) = _
    exact Int.bmod_eq_of_le (by omega) (by omega)
  refine ⟨?_, hsucc⟩
  rw [NetPacketQueue.addPacket, hcreate, Option.map_some, Option.some.injEq,
    toNetPacketQueue, toNetPacketQueue, NetPacketQueue.mk.injEq]
  refine ⟨?_, rfl⟩
  show queue.iPacketNum.toInt.toNat + 1 = (queue.iPacketNum + 1).toInt.toNat
  rw [hsucc]
  omega

/-- How far the counter of a queue can be trusted; `released` says whether
`ReleaseAllPackets` has been called since the last `Init`. -/
structure Trusted (queue : NetPacketQueue32) (released : Bool) : Prop where
  nonneg : 0 ≤ queue.iPacketNum.toInt
  noneHidden : queue.toNetPacketQueue.NoneHidden
  counted : released = false → queue.toNetPacketQueue.Counted

/-- A queue in step. -/
theorem Trusted.of_counted (released : Bool) (hnonneg : 0 ≤ queue.iPacketNum.toInt)
    (hcounted : queue.toNetPacketQueue.Counted) : queue.Trusted released :=
  ⟨hnonneg, hcounted.noneHidden, fun _ => hcounted⟩

theorem trusted_init (released : Bool) : init.Trusted released :=
  .of_counted released (by decide) NetPacketQueue.counted_init

/-- In a queue in step the counter is the length. -/
theorem toInt_of_counted (hnonneg : 0 ≤ queue.iPacketNum.toInt)
    (hcounted : queue.toNetPacketQueue.Counted) :
    queue.iPacketNum.toInt = queue.vecPacketPool.length := by
  have hnat : queue.iPacketNum.toInt.toNat = queue.vecPacketPool.length :=
    hcounted
  omega

/-- The counter that `CopyFrom` leaves, whatever it was before. -/
theorem nonneg_copyFrom (hfew : queue.vecPacketPool.length + source.vecPacketPool.length < 2 ^ 31) :
    0 ≤ (queue.copyFrom source).1.iPacketNum.toInt := by
  unfold copyFrom
  split_ifs with hpos
  · rw [← List.length_append] at hfew
    show 0 ≤ (Int32.ofNat _).toInt
    rw [Int32.toInt_ofNat_of_lt hfew]
    exact Int.natCast_nonneg _
  · show 0 ≤ (Int32.ofNat _).toInt
    rw [Int32.toInt_ofNat_of_lt (by omega)]
    exact Int.natCast_nonneg _

theorem counted_copyFrom
    (hfew : queue.vecPacketPool.length + source.vecPacketPool.length < 2 ^ 31) :
    (queue.copyFrom source).1.toNetPacketQueue.Counted := by
  rw [toNetPacketQueue_copyFrom hfew]
  exact NetPacketQueue.counted_copyFrom _ _

theorem Trusted.releaseAllPackets {released : Bool} (h : queue.Trusted released) :
    queue.releaseAllPackets.Trusted true where
  nonneg := h.nonneg
  noneHidden :=
    NetPacketQueue.noneHidden_releaseAllPackets queue.toNetPacketQueue
  counted := nofun

/-- Nothing hides behind a counter that is not positive, so the swap brings
nothing to the source that would be dropped. -/
theorem Trusted.vecPacketPool_eq_nil {released : Bool}
    (h : queue.Trusted released) (hswap : ¬ queue.iPacketNum > 0) : queue.vecPacketPool = [] := by
  rw [iPacketNum_pos_iff] at hswap
  exact h.noneHidden (Nat.eq_zero_of_not_pos hswap)

/-- The fast path is the slow path. -/
theorem Trusted.copyFrom_eq {released : Bool} (h : queue.Trusted released)
    (source : NetPacketQueue32) :
    queue.copyFrom source = queue.insertFrom source := by
  unfold copyFrom
  split_ifs with hpos
  · rfl
  · rw [swapFrom, insertFrom, h.vecPacketPool_eq_nil hpos, List.nil_append]

end NetPacketQueue32

/-! ## Runs of several queues -/

/-- Queues with names of any type, and which of them have been released since
their last `Init`. -/
structure PacketQueues (ι : Type*) where
  queue : ι → NetPacketQueue32
  released : ι → Bool

namespace PacketQueues

variable {ι : Type*}

/-- New queues; the constructor calls `Init`. -/
def construct : PacketQueues ι := ⟨fun _ => .init, fun _ => false⟩

/-- The calls. -/
inductive Action (ι : Type*) where
  | init (i : ι)
  /-- `CopyFrom` of two different queues. -/
  | copyFrom (i source : ι)
  | addPacket (i : ι) (ulClientSeq : UInt64) (iSockFd iProtoNo : Int)
      (iBufferSize : Nat) (pchBuffer : List Byte) (now : UInt64)
  | releaseAllPackets (i : ι)

/-- What holds in every run. -/
def Inv (s : PacketQueues ι) : Prop :=
  ∀ i, (s.queue i).Trusted (s.released i)

theorem inv_construct : (construct : PacketQueues ι).Inv :=
  fun _ => NetPacketQueue32.trusted_init false

/-- No queue gets `2^31` packets. -/
def Few (s : PacketQueues ι) : Action ι → Prop
  | .copyFrom i source =>
    (s.queue i).vecPacketPool.length +
      (s.queue source).vecPacketPool.length < 2 ^ 31
  | .addPacket i _ _ _ _ _ _ => (s.queue i).vecPacketPool.length + 1 < 2 ^ 31
  | _ => True

instance decidableFew (s : PacketQueues ι) : DecidablePred s.Few
  | .init _ => .isTrue trivial
  | .copyFrom _ _ => inferInstanceAs (Decidable (_ < _))
  | .addPacket _ _ _ _ _ _ _ => inferInstanceAs (Decidable (_ < _))
  | .releaseAllPackets _ => .isTrue trivial

variable [DecidableEq ι]

/-- One call; `none` if the contexts do not make it. -/
def step (s : PacketQueues ι) : Action ι → Option (PacketQueues ι)
  | .init i => some
      ⟨Function.update s.queue i .init, Function.update s.released i false⟩
  | .copyFrom i source =>
    if i = source then
      none
    else
      let both := (s.queue i).copyFrom (s.queue source)
      some ⟨Function.update (Function.update s.queue source both.2) i both.1,
        Function.update s.released source false⟩
  | .addPacket i ulClientSeq iSockFd iProtoNo iBufferSize pchBuffer now =>
    if s.released i then
      none
    else
      ((s.queue i).addPacket ulClientSeq iSockFd iProtoNo iBufferSize
        pchBuffer now).map fun queue' =>
          { s with queue := Function.update s.queue i queue' }
  | .releaseAllPackets i => some
      ⟨Function.update s.queue i (s.queue i).releaseAllPackets,
        Function.update s.released i true⟩

/-- One queue and its mark are replaced. -/
theorem Inv.update {queue : ι → NetPacketQueue32} {released : ι → Bool}
    (h : ∀ j, (queue j).Trusted (released j)) (i : ι)
    {queue' : NetPacketQueue32} {released' : Bool}
    (hnew : queue'.Trusted released') (j : ι) :
    (Function.update queue i queue' j).Trusted (Function.update released i released' j) := by
  by_cases hj : j = i
  · subst hj
    rw [Function.update_self, Function.update_self]
    exact hnew
  · rw [Function.update_of_ne hj, Function.update_of_ne hj]
    exact h j

theorem inv_step (s : PacketQueues ι) (a : Action ι) (s' : PacketQueues ι)
    (h : s.Inv) (hfew : s.Few a) (hstep : s.step a = some s') : s'.Inv := by
  cases a with
  | init i =>
    cases hstep
    exact Inv.update h i (NetPacketQueue32.trusted_init false)
  | copyFrom i source =>
    rw [step] at hstep
    by_cases hsame : i = source
    · rw [if_pos hsame] at hstep
      cases hstep
    · rw [if_neg hsame] at hstep
      cases hstep
      have hsource := Inv.update h source (NetPacketQueue32.trusted_init false)
      have hcounted := NetPacketQueue32.counted_copyFrom hfew
      have hnonneg := NetPacketQueue32.nonneg_copyFrom hfew
      -- the mark of the destination is as it was
      have hboth := Inv.update hsource i (.of_counted
        (Function.update s.released source false i) hnonneg hcounted)
      rw [Function.update_eq_self] at hboth
      intro j
      simp only [NetPacketQueue32.snd_copyFrom]
      exact hboth j
  | addPacket i ulClientSeq iSockFd iProtoNo iBufferSize pchBuffer now =>
    rw [step] at hstep
    cases hreleased : s.released i with
    | true =>
      rw [hreleased] at hstep
      cases hstep
    | false =>
      rw [hreleased] at hstep
      obtain ⟨queue', hadd, rfl⟩ := Option.map_eq_some_iff.mp hstep
      have hcounted := (h i).counted hreleased
      have hlength :=
        NetPacketQueue32.toInt_of_counted (h i).nonneg hcounted
      have hroom : (s.queue i).vecPacketPool.length + 1 < 2 ^ 31 := hfew
      obtain ⟨hunbounded, hsucc⟩ :=
        NetPacketQueue32.addPacket_toNetPacketQueue (h i).nonneg (by omega) hadd
      have hadded := NetPacketQueue.counted_addPacket hcounted hunbounded
      have hnonneg : 0 ≤ queue'.iPacketNum.toInt := by omega
      have hnew := Inv.update h i (.of_counted (s.released i) hnonneg hadded)
      rw [Function.update_eq_self] at hnew
      exact hnew
  | releaseAllPackets i =>
    cases hstep
    exact Inv.update h i (h i).releaseAllPackets

/-- `CopyFrom` appends, whichever branch it takes. -/
theorem copyFrom_appends {actions : List (Action ι)} {s : PacketQueues ι}
    (hfew : RunMeets step Few construct actions)
    (hrun : runSteps step construct actions = some s) {i source : ι}
    (hne : i ≠ source)
    (htotal : (s.queue i).vecPacketPool.length + (s.queue source).vecPacketPool.length < 2 ^ 31) :
    (s.queue i).copyFrom (s.queue source) = (s.queue i).insertFrom (s.queue source) ∧
    (¬ (s.queue i).iPacketNum > 0 → (s.queue i).vecPacketPool = []) ∧
    ∃ s', s.step (.copyFrom i source) = some s' ∧ (s'.queue i).vecPacketPool =
        (s.queue i).vecPacketPool ++ (s.queue source).vecPacketPool ∧
      (s'.queue source).vecPacketPool = [] ∧
      (s'.queue i).iPacketNum.toInt = (s'.queue i).vecPacketPool.length ∧
      (s'.queue source).iPacketNum.toInt = (s'.queue source).vecPacketPool.length := by
  have hinv : s.Inv :=
    runSteps_invariant_of_meets inv_step inv_construct hfew hrun
  have heq := (hinv i).copyFrom_eq (s.queue source)
  refine ⟨heq, (hinv i).vecPacketPool_eq_nil, _, if_neg hne, ?_⟩
  dsimp only
  rw [Function.update_self, Function.update_of_ne (Ne.symm hne),
    Function.update_self, NetPacketQueue32.snd_copyFrom]
  refine ⟨?_, rfl, ?_, rfl⟩
  · rw [heq]
    rfl
  · exact NetPacketQueue32.toInt_of_counted (NetPacketQueue32.nonneg_copyFrom htotal)
      (NetPacketQueue32.counted_copyFrom htotal)

/-- The destination has been released and says that it has a packet, although
it has none; the source has one. -/
theorem copyFrom_appends_released :
    ∃ s s' : PacketQueues Bool, runSteps step construct
        [.addPacket false 1 5 7 1 [65] 9, .copyFrom true false,
          .releaseAllPackets true, .addPacket false 2 5 7 1 [66] 9] = some s ∧
      (s.queue true).iPacketNum = 1 ∧ (s.queue true).vecPacketPool = [] ∧
      s.step (.copyFrom true false) = some s' ∧
      (s'.queue true).vecPacketPool =
        (s.queue true).vecPacketPool ++ (s.queue false).vecPacketPool ∧
      (s'.queue true).iPacketNum.toInt = (s'.queue true).vecPacketPool.length := by
  obtain ⟨s, hrun⟩ : ∃ s : PacketQueues Bool, runSteps step construct
      [.addPacket false 1 5 7 1 [65] 9, .copyFrom true false,
        .releaseAllPackets true, .addPacket false 2 5 7 1 [66] 9] = some s :=
    ⟨_, rfl⟩
  have hfew : RunMeets step Few (construct : PacketQueues Bool)
      [.addPacket false 1 5 7 1 [65] 9, .copyFrom true false,
        .releaseAllPackets true, .addPacket false 2 5 7 1 [66] 9] := by
    decide
  have happends := copyFrom_appends hfew hrun (Bool.noConfusion : true ≠ false)
  cases hrun
  obtain ⟨-, -, s', hstep, hvec, -, hcount, -⟩ := happends (by decide)
  exact ⟨_, s', rfl, rfl, rfl, hstep, hvec, hcount⟩

end PacketQueues

end Network
end GameServer
