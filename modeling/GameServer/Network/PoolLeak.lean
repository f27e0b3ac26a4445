import GameServer.Network.PoolOwnership

/-!
# Slots that are never given back

`ReleasePacketMemory` is the only way for a slot to become free again, and
`NetPacketQueue` drops packets without calling it in three places: `Init`, the
swap of `CopyFrom`, and the destructor.  The swap drops nothing, because a
queue with a zero counter is empty.  The other two lose the slots of whatever
the queue still holds, and a slot lost once is lost for good.  A destructor
also loses the slot of a thread that is inside `AddPacket` on the context.

`noneLost_iff` says when the pool keeps all its slots, for every run in which
the queues are locked.
-/

namespace GameServer
namespace Network

open Lib

/-- The thread is inside `AddPacket` on a queue of the context, with a slot. -/
def PoolPc.AddsSlotTo {χ : Type*} (pc : PoolPc χ) (ctx : χ) : Prop :=
  match pc with
  | .adding queue _ pstMemory =>
    queue.1 = ctx ∧ ∃ iIndex, pstMemory = .slot iIndex
  | .counting queue packet =>
    queue.1 = ctx ∧ ∃ iIndex, packet.pstMemory = .slot iIndex
  | _ => False

theorem PoolPc.AddsSlotTo.exists_queue {χ : Type*} {pc : PoolPc χ} {ctx : χ}
    (h : pc.AddsSlotTo ctx) : ∃ kind, pc.queue = some (ctx, kind) := by
  cases pc with
  | adding queue | counting queue =>
    obtain ⟨rfl, -⟩ := h
    exact ⟨queue.2, rfl⟩
  | idle | releasing | givingBack => cases h

namespace PoolState

variable {τ χ : Type*}

/-- Every slot of the pool is free, or belongs to a packet in a queue of a
context that exists, or is in the hands of a thread inside `AddPacket` on such
a context or inside `ReleasePacketMemory`. -/
def NoneLost (s : PoolState τ χ) : Prop :=
  ∀ iIndex < maxPacketMemoryPoolSize,
    iIndex ∈ s.pool.packetIndexFreeQueue ∨
      (∃ queue position packet, s.alive queue.1 = true ∧
        s.Queued queue position packet ∧ packet.pstMemory = .slot iIndex) ∨
      ∃ thread, (s.threads thread).memory s.alive = some (.slot iIndex)

/-- No packet in the queue occupies a slot of the pool. -/
def NoSlotIn (s : PoolState τ χ) (queue : χ × QueueKind) : Prop :=
  ∀ position packet iIndex, s.Queued queue position packet →
    packet.pstMemory ≠ .slot iIndex

/-- A context is destroyed only when its queues occupy no slots and no thread is
adding a packet with one, and `CopyPacketsFromNetToLogic` initialises only a
queue that occupies none. -/
def DropsNoSlot (s : PoolState τ χ) : PoolAction τ χ → Prop
  | .destroy ctx => (∀ kind, s.NoSlotIn (ctx, kind)) ∧
      ∀ thread, ¬ (s.threads thread).AddsSlotTo ctx
  | .initCopyFrom _ queue _ => s.NoSlotIn queue
  | _ => True

/-- What holds as long as nothing has been lost. -/
structure Kept (s : PoolState τ χ) : Prop where
  inv : s.Inv
  inRange : s.pool.InRange
  covered : ∀ iIndex < maxPacketMemoryPoolSize,
    ∃ o, s.holds o = some (.slot iIndex)
  dead : ∀ queue, s.alive queue.1 = false →
    (s.queues queue).vecPacketPool = []
  noneHidden : ∀ queue, (s.queues queue).NoneHidden

variable {s : PoolState τ χ}

theorem kept_fresh : (fresh : PoolState τ χ).Kept where
  inv := inv_fresh
  inRange := PacketMemoryPool.inRange_construct
  covered := by
    intro iIndex hlt
    refine ⟨.free iIndex, holds_free_eq_some_iff.mpr ⟨?_, rfl⟩⟩
    rw [pool_fresh, PacketMemoryPool.packetIndexFreeQueue_construct]
    exact List.mem_range.mpr hlt
  dead := fun _ _ => rfl
  noneHidden := fun _ => PooledQueue.noneHidden_init

/-- A packet in a queue is in a queue of a context that exists. -/
theorem Kept.alive_of_queued (h : s.Kept) {queue : χ × QueueKind}
    {position : Nat} {packet : PooledPacket}
    (hqueued : s.Queued queue position packet) : s.alive queue.1 = true := by
  by_contra hdead
  have hempty := h.dead queue (by simpa using hdead)
  have hpacket := hqueued.2
  rw [hempty] at hpacket
  cases hpacket

/-- Who can hold a slot. -/
theorem exists_holds_slot_iff {iIndex : Nat} :
    (∃ o, s.holds o = some (.slot iIndex)) ↔
      iIndex ∈ s.pool.packetIndexFreeQueue ∨
        (∃ queue position packet, s.Queued queue position packet ∧
          packet.pstMemory = .slot iIndex) ∨
        ∃ thread, (s.threads thread).memory s.alive = some (.slot iIndex) := by
  constructor
  · rintro ⟨o, ho⟩
    cases o with
    | free iIndex' =>
      obtain ⟨hmem, heq⟩ := holds_free_eq_some_iff.mp ho
      cases heq
      exact .inl hmem
    | queued queue position =>
      obtain ⟨packet, hpacket⟩ := holds_queued_eq_some_iff.mp ho
      exact .inr (.inl ⟨queue, position, packet, hpacket⟩)
    | thread thread => exact .inr (.inr ⟨thread, ho⟩)
  · rintro (hmem | ⟨queue, position, packet, hpacket⟩ | ⟨thread, hthread⟩)
    · exact ⟨_, holds_free_eq_some_iff.mpr ⟨hmem, rfl⟩⟩
    · exact ⟨_, holds_queued_eq_some_iff.mpr ⟨packet, hpacket⟩⟩
    · exact ⟨.thread thread, hthread⟩

theorem Kept.noneLost (h : s.Kept) : s.NoneLost := by
  intro iIndex hlt
  rcases exists_holds_slot_iff.mp (h.covered iIndex hlt) with
    hmem | ⟨queue, position, packet, hqueued, hslot⟩ | hthread
  · exact .inl hmem
  · exact .inr (.inl ⟨queue, position, packet, h.alive_of_queued hqueued, hqueued, hslot⟩)
  · exact .inr (.inr hthread)

/-- Where nothing is lost, every slot has a holder. -/
theorem NoneLost.exists_holder (h : s.NoneLost) {iIndex : Nat}
    (hlt : iIndex < maxPacketMemoryPoolSize) :
    ∃ o, s.holds o = some (.slot iIndex) := by
  rw [exists_holds_slot_iff]
  obtain hmem | ⟨queue, position, packet, -, hpacket⟩ | hthread := h iIndex hlt
  · exact .inl hmem
  · exact .inr (.inl ⟨queue, position, packet, hpacket⟩)
  · exact .inr (.inr hthread)

/-! ## When a slot is lost -/

/-- A slot is lost when its holder goes and nobody else gets it. -/
theorem Kept.not_noneLost (h : s.Kept) {s' : PoolState τ χ} {o : Holder τ χ}
    {iIndex : Nat} (hholds : s.holds o = some (.slot iIndex))
    (hsub : ∀ o' ref, s'.holds o' = some ref → ∃ o'', o'' ≠ o ∧ s.holds o'' = some ref) :
    ¬ s'.NoneLost := by
  intro hnone
  obtain ⟨block, hblock, -⟩ := h.inv.sound.content _ _ hholds
  have hlt : iIndex < maxPacketMemoryPoolSize := by
    apply h.inRange
    rw [hblock]
    simp
  obtain ⟨o', ho'⟩ := hnone.exists_holder hlt
  obtain ⟨o'', hne, ho''⟩ := hsub o' _ ho'
  exact hne (h.inv.sound.exclusive ho'' hholds)

section Step

variable [DecidableEq τ] [DecidableEq χ]

omit [DecidableEq τ] in
theorem queued_dropQueues_iff {ctx : χ} {created alive : χ → Bool}
    {behind : χ × QueueKind → List PooledPacket} {queue : χ × QueueKind}
    {position : Nat} {packet : PooledPacket} :
    { s with
      created := created
      alive := alive
      queues := s.dropQueues ctx
      behind := behind : PoolState τ χ }.Queued queue position packet ↔
      queue.1 ≠ ctx ∧ s.Queued queue position packet := by
  unfold Queued
  by_cases hctx : queue.1 = ctx
  · simp [hctx, s.dropQueues_of_eq hctx]
  · simp [hctx, s.dropQueues_of_ne hctx]

omit [DecidableEq τ] in
/-- What there is after a context was deleted was there before, and not with
its queues or the threads that add to them. -/
theorem holds_destroy {ctx : χ} {o : Holder τ χ} {ref : MemoryRef}
    (ho : { s with
      alive := Function.update s.alive ctx false
      queues := s.dropQueues ctx
      behind := s.dropBehind ctx : PoolState τ χ }.holds o = some ref) :
    s.holds o = some ref ∧
      (∀ kind position, o ≠ .queued (ctx, kind) position) ∧
      ∀ thread, (s.threads thread).AddsSlotTo ctx → o ≠ .thread thread := by
  cases o with
  | free iIndex => exact ⟨ho, by simp, by simp⟩
  | queued queue position =>
    obtain ⟨packet, hqueued, rfl⟩ := holds_queued_eq_some_iff.mp ho
    obtain ⟨hne, hold⟩ := queued_dropQueues_iff.mp hqueued
    refine ⟨holds_queued hold, ?_, by simp⟩
    rintro kind position' ⟨⟩
    exact hne rfl
  | thread thread =>
    refine ⟨memory_destroy ho, by simp, ?_⟩
    rintro thread' hadds ⟨⟩
    have hnone : (s.threads thread).memory
        (Function.update s.alive ctx false) = none := by
      cases hpc : s.threads thread with
      | adding queue args pstMemory =>
        rw [hpc] at hadds
        simp [PoolPc.memory, hadds.1]
      | counting queue packet =>
        rw [hpc] at hadds
        simp [PoolPc.memory, hadds.1]
      | idle | releasing | givingBack =>
        rw [hpc] at hadds
        cases hadds
    have ho' : (s.threads thread).memory
        (Function.update s.alive ctx false) = some ref := ho
    rw [hnone] at ho'
    cases ho'

omit [DecidableEq τ] [DecidableEq χ] in
/-- The slot of a thread that adds a packet to a context that exists. -/
theorem exists_slot_of_addsSlotTo {ctx : χ} {thread : τ}
    (halive : s.alive ctx = true)
    (hadds : (s.threads thread).AddsSlotTo ctx) :
    ∃ iIndex, s.holds (.thread thread) = some (.slot iIndex) := by
  rw [holds_thread]
  cases hpc : s.threads thread with
  | adding queue args pstMemory =>
    rw [hpc] at hadds
    obtain ⟨rfl, iIndex, rfl⟩ := hadds
    exact ⟨iIndex, if_pos halive⟩
  | counting queue packet =>
    rw [hpc] at hadds
    obtain ⟨rfl, iIndex, hslot⟩ := hadds
    exact ⟨iIndex, hslot ▸ if_pos halive⟩
  | idle | releasing | givingBack =>
    rw [hpc] at hadds
    cases hadds

/-- Losing nothing in a step requires the condition. -/
theorem Kept.dropsNoSlot (h : s.Kept) {a : PoolAction τ χ}
    {s' : PoolState τ χ} (hlocks : s.LocksQueues a)
    (hstep : s.step a = some s') (hnone : s'.NoneLost) : s.DropsNoSlot a := by
  cases transition_of_step hstep with
  | @destroy ctx halive =>
    refine ⟨fun kind position packet iIndex hqueued hslot => ?_, fun thread hadds => ?_⟩
    · refine h.not_noneLost (hslot ▸ holds_queued hqueued) (fun o' ref ho' => ?_) hnone
      obtain ⟨hold, hne, -⟩ := holds_destroy ho'
      exact ⟨o', hne kind position, hold⟩
    · obtain ⟨iIndex, hholds⟩ := exists_slot_of_addsSlotTo halive hadds
      refine h.not_noneLost hholds (fun o' ref ho' => ?_) hnone
      obtain ⟨hold, -, hne⟩ := holds_destroy ho'
      exact ⟨o', hne thread hadds, hold⟩
  | @initCopyFrom thread queue source hidle hne hqueue hsource =>
    intro position packet iIndex hqueued hslot
    refine h.not_noneLost (hslot ▸ holds_queued hqueued) (fun o' ref ho' => ?_) hnone
    cases o' with
    | free iIndex' => exact ⟨.free iIndex', by simp, ho'⟩
    | thread thread' => exact ⟨.thread thread', by simp, ho'⟩
    | queued queue' position' =>
      obtain ⟨packet', ⟨hleft, hpacket'⟩, rfl⟩ :=
        holds_queued_eq_some_iff.mp ho'
      by_cases hq : queue' = queue
      · -- what the queue holds now comes from the source
        subst hq
        simp only [s.copied_self _ hne, PooledQueue.vecPacketPool_init_copyFrom] at hpacket'
        refine ⟨.queued source position', ?_,
          holds_queued ⟨hlocks.2.not_passed position', hpacket'⟩⟩
        rintro ⟨⟩
        exact hne rfl
      · have hs : queue' ≠ source := by
          rintro rfl
          simp [s.copied_source] at hpacket'
        simp only [s.copied_of_ne _ hq hs] at hpacket'
        refine ⟨.queued queue' position', ?_, holds_queued ⟨hleft, hpacket'⟩⟩
        rintro ⟨⟩
        exact hq rfl
  | _ => trivial

/-! ## When none is lost -/

theorem inRange_step (s : PoolState τ χ) (a : PoolAction τ χ)
    (s' : PoolState τ χ) (h : s.pool.InRange) (hstep : s.step a = some s') :
    s'.pool.InRange := by
  cases transition_of_step hstep with
  | getFree hidle halive hget =>
    obtain ⟨-, rfl, -, rfl⟩ | ⟨iIndex, rest, block, -, rfl, hblock, rfl⟩ :=
      PacketMemoryPool.getFreePacketMemory_cases hget
    · apply h.update
      rintro iIndex ⟨⟩
    · apply h.update
      intro _ _
      simp [hblock]
  | emplace hpc halive hinit =>
    obtain ⟨block, after, hblock, -, rfl⟩ :=
      PacketMemoryPool.initMemory_eq_some_iff.mp hinit
    apply h.update
    intro _ _
    simp [hblock]
  | release hpc halive hpacket hrelease =>
    obtain ⟨block, hblock, -, rfl⟩ :=
      PacketMemoryPool.releaseMemory_eq_some_iff.mp hrelease
    apply h.update
    intro _ _
    simp [hblock]
  | @giveBack thread queue position pstMemory iIndex pool hpc hgive =>
    simp only [PacketMemoryPool.giveBack] at hgive
    split_ifs at hgive
    · cases pstMemory with
      | slot slot => cases hgive
      | heap address =>
        cases hgive
        apply h.update
        rintro iIndex ⟨⟩
    · cases hgive
      exact h
  | _ => exact h

/-- A context that does not exist has no packets. -/
theorem Kept.dead_step (h : s.Kept) {a : PoolAction τ χ}
    {s' : PoolState τ χ} (hstep : s.step a = some s')
    (queue : χ × QueueKind) (hdead : s'.alive queue.1 = false) :
    (s'.queues queue).vecPacketPool = [] := by
  have hold := h.dead queue
  -- creating and destroying change `alive`, at the context that is emptied
  have hdrop : ∀ ctx b, Function.update s.alive ctx b queue.1 = false →
      (s.dropQueues ctx queue).vecPacketPool = [] := by
    intro ctx b halive
    by_cases heq : queue.1 = ctx
    · rw [s.dropQueues_of_eq heq, PooledQueue.vecPacketPool_init]
    · rw [Function.update_of_ne heq] at halive
      rw [s.dropQueues_of_ne heq]
      exact hold halive
  have hcopied : ∀ queue' before source, s.alive queue.1 = false →
      s.alive queue'.1 = true → s.alive source.1 = true →
        (s.copied queue' before source queue).vecPacketPool = [] := by
    intro queue' before source halive hqueue hsource
    rw [s.copied_of_ne]
    · exact hold halive
    · rintro rfl
      exact Bool.false_ne_true (halive.symm.trans hqueue)
    · rintro rfl
      exact Bool.false_ne_true (halive.symm.trans hsource)
  cases transition_of_step hstep with
  | create hnew => exact hdrop _ _ hdead
  | destroy halive => exact hdrop _ _ hdead
  | @count thread queue' placed packet rest hpc halive hbehind =>
    have hne : queue ≠ queue' := by
      rintro rfl
      exact Bool.false_ne_true (hdead.symm.trans halive)
    simp only [Function.update_of_ne hne]
    exact hold hdead
  | @clear thread queue' position hpc halive hend =>
    simp only [Function.update_apply]
    split_ifs
    · rfl
    · exact hold hdead
  | copyFrom hidle hne hqueue hsource =>
    exact hcopied _ _ _ hdead hqueue hsource
  | initCopyFrom hidle hne hqueue hsource =>
    exact hcopied _ _ _ hdead hqueue hsource
  | getFree | emplace | releaseAll | release | giveBack => exact hold hdead

omit [DecidableEq τ] in
theorem noneHidden_dropQueues (h : ∀ queue, (s.queues queue).NoneHidden)
    (ctx : χ) (queue : χ × QueueKind) :
    (s.dropQueues ctx queue).NoneHidden := by
  by_cases heq : queue.1 = ctx
  · rw [s.dropQueues_of_eq heq]
    exact PooledQueue.noneHidden_init
  · rw [s.dropQueues_of_ne heq]
    exact h queue

omit [DecidableEq τ] in
theorem noneHidden_copied (h : ∀ queue, (s.queues queue).NoneHidden)
    (queue source : χ × QueueKind) (before : PooledQueue)
    (queue' : χ × QueueKind) :
    (s.copied queue before source queue').NoneHidden := by
  by_cases hs : queue' = source
  · subst hs
    rw [s.copied_source]
    exact PooledQueue.noneHidden_init
  · by_cases hq : queue' = queue
    · subst hq
      rw [s.copied_self before hs]
      exact PooledQueue.noneHidden_copyFrom before _
    · rw [s.copied_of_ne before hq hs]
      exact h queue'

theorem noneHidden_step (s : PoolState τ χ) (a : PoolAction τ χ)
    (s' : PoolState τ χ) (h : ∀ queue, (s.queues queue).NoneHidden)
    (hstep : s.step a = some s') (queue : χ × QueueKind) :
    (s'.queues queue).NoneHidden := by
  cases transition_of_step hstep with
  | create hnew => exact noneHidden_dropQueues h _ queue
  | destroy halive => exact noneHidden_dropQueues h _ queue
  | count hpc halive hbehind =>
    simp only [Function.update_apply]
    split_ifs
    · exact PooledQueue.noneHidden_emplaceBack _ _
    · exact h queue
  | clear hpc halive hend =>
    simp only [Function.update_apply]
    split_ifs
    · exact PooledQueue.noneHidden_clear _
    · exact h queue
  | copyFrom hidle hne hqueue hsource => exact noneHidden_copied h _ _ _ queue
  | initCopyFrom hidle hne hqueue hsource =>
    exact noneHidden_copied h _ _ _ queue
  | getFree | emplace | releaseAll | release | giveBack => exact h queue

section Covered

variable {iIndex position : Nat} {thread : τ} {pc : PoolPc χ}
  {queue : χ × QueueKind} {pool : PacketMemoryPool}
  {behind : χ × QueueKind → List PooledPacket} {packet : PooledPacket}
  {pstMemory : MemoryRef}

omit [DecidableEq χ] in
/-- A step of a thread that has nothing in its hands takes nothing from the
other threads. -/
theorem memory_update_of_none {thread' : τ} {ref : MemoryRef}
    (hnone : (s.threads thread).memory s.alive = none)
    (ho : (s.threads thread').memory s.alive = some ref) :
    (Function.update s.threads thread pc thread').memory s.alive =
      some ref := by
  rw [Function.update_of_ne, ho]
  rintro rfl
  rw [hnone] at ho
  cases ho

omit [DecidableEq χ] in
/-- Nor does a step of a thread that keeps what it has. -/
theorem memory_update_of_some {thread' : τ} {ref : MemoryRef}
    (hkeep : pc.memory s.alive = (s.threads thread).memory s.alive)
    (ho : (s.threads thread').memory s.alive = some ref) :
    (Function.update s.threads thread pc thread').memory s.alive =
      some ref := by
  by_cases heq : thread' = thread
  · subst heq
    rw [Function.update_self, hkeep, ho]
  · rw [Function.update_of_ne heq, ho]

omit [DecidableEq χ] in
/-- Threads pass no more packets when one of them does not. -/
theorem not_passed_update (hpc : pc.Passed queue position →
      (s.threads thread).Passed queue position)
    (h : ∀ thread', ¬ (s.threads thread').Passed queue position) (thread' : τ) :
    ¬ (Function.update s.threads thread pc thread').Passed queue position := by
  intro hpassed
  by_cases heq : thread' = thread
  · subst heq
    rw [Function.update_self] at hpassed
    exact h thread' (hpc hpassed)
  · rw [Function.update_of_ne heq] at hpassed
    exact h thread' hpassed

omit [DecidableEq χ] in
/-- A packet stays queued when a thread goes on without passing it. -/
theorem queued_update (hpc : pc.Passed queue position →
      (s.threads thread).Passed queue position)
    (h : s.Queued queue position packet) :
    { s with
      pool := pool
      behind := behind
      threads := Function.update s.threads thread pc :
        PoolState τ χ }.Queued queue position packet :=
  ⟨not_passed_update hpc h.1, h.2⟩

omit [DecidableEq τ] in
/-- Emptying the queues of a context that hold no slot. -/
theorem covered_dropQueues {ctx : χ} {created alive : χ → Bool}
    (hslot : ∃ o, s.holds o = some (.slot iIndex))
    (hother : ∀ queue position packet, s.Queued queue position packet →
      packet.pstMemory = .slot iIndex → queue.1 ≠ ctx)
    (hthreads : ∀ thread, (s.threads thread).memory s.alive =
      some (.slot iIndex) →
        (s.threads thread).memory alive = some (.slot iIndex)) :
    ∃ o, { s with
      created := created
      alive := alive
      queues := s.dropQueues ctx
      behind := behind : PoolState τ χ }.holds o = some (.slot iIndex) := by
  rw [exists_holds_slot_iff] at hslot ⊢
  rcases hslot with
    hmem | ⟨queue, position, packet, hqueued, hmemory⟩ | ⟨thread, hthread⟩
  · exact .inl hmem
  · exact .inr (.inl ⟨queue, position, packet, queued_dropQueues_iff.mpr
      ⟨hother queue position packet hqueued hmemory, hqueued⟩, hmemory⟩)
  · exact .inr (.inr ⟨thread, hthreads thread hthread⟩)

omit [DecidableEq τ] in
/-- `CopyFrom` leaves every slot with a holder when what it keeps of the
destination includes the packets with slots. -/
theorem covered_copied {source : χ × QueueKind} (hne : queue ≠ source)
    (hunused : s.Unused queue) {before : PooledQueue} {kept : List PooledPacket}
    (hvec : (before.copyFrom (s.queues source)).1.vecPacketPool =
      kept ++ (s.queues source).vecPacketPool)
    (hslot : ∃ o, s.holds o = some (.slot iIndex))
    (hkept : ∀ position packet, s.Queued queue position packet →
      packet.pstMemory = .slot iIndex → kept[position]? = some packet) :
    ∃ o, { s with
      queues := s.copied queue before source
      behind := behind : PoolState τ χ }.holds o = some (.slot iIndex) := by
  rw [← s.copied_self before hne] at hvec
  rw [exists_holds_slot_iff] at hslot ⊢
  rcases hslot with
    hmem | ⟨queue', position, packet, ⟨hleft, hpacket⟩, hmemory⟩ | hthread
  · exact .inl hmem
  · right; left
    by_cases hs : queue' = source
    · -- behind what is kept
      subst hs
      refine ⟨queue, kept.length + position, packet,
        ⟨hunused.not_passed _, ?_⟩, hmemory⟩
      simp only [hvec]
      rw [List.getElem?_append_right (by omega), Nat.add_sub_cancel_left]
      exact hpacket
    · refine ⟨queue', position, packet, ⟨hleft, ?_⟩, hmemory⟩
      by_cases hq : queue' = queue
      · subst hq
        have hget := hkept position packet ⟨hleft, hpacket⟩ hmemory
        simp only [hvec]
        rw [List.getElem?_append_left (List.getElem?_eq_some_iff.mp hget).1]
        exact hget
      · simp only [s.copied_of_ne before hq hs]
        exact hpacket
  · exact .inr (.inr hthread)

omit [DecidableEq χ] in
/-- The slot a thread gets from the free queue is in its hands. -/
theorem covered_getFree {args : AddPacketArgs} {address : Nat}
    (hidle : s.threads thread = .idle) (halive : s.alive queue.1 = true)
    (hget : s.pool.getFreePacketMemory address = some (pstMemory, pool))
    (hslot : ∃ o, s.holds o = some (.slot iIndex)) :
    ∃ o, { s with
      pool := pool
      threads := Function.update s.threads thread
        (.adding queue args pstMemory) }.holds o = some (.slot iIndex) := by
  rw [exists_holds_slot_iff] at hslot ⊢
  rcases hslot with
    hmem | ⟨queue', position, packet, hqueued, hmemory⟩ | ⟨thread', hthread⟩
  · obtain ⟨hnil, -, -, -⟩ | ⟨slot, rest, block, hfirst, rfl, -, rfl⟩ :=
      PacketMemoryPool.getFreePacketMemory_cases hget
    · rw [hnil] at hmem
      cases hmem
    · rw [hfirst] at hmem
      rcases List.mem_cons.mp hmem with rfl | hrest
      · refine .inr (.inr ⟨thread, ?_⟩)
        simp only [Function.update_self]
        exact if_pos halive
      · exact .inl hrest
  · exact .inr (.inl ⟨queue', position, packet,
      queued_update (by rintro ⟨⟩) hqueued, hmemory⟩)
  · exact .inr (.inr ⟨thread', memory_update_of_none (by rw [hidle]; rfl)
      hthread⟩)

omit [DecidableEq χ] in
/-- The slot that a thread fills stays in its hands. -/
theorem covered_emplace {args : AddPacketArgs} {now : UInt64}
    (hpc : s.threads thread = .adding queue args pstMemory)
    (hpool : pool.packetIndexFreeQueue = s.pool.packetIndexFreeQueue)
    (hslot : ∃ o, s.holds o = some (.slot iIndex)) :
    ∃ o, { s with
      pool := pool
      behind := behind
      threads := Function.update s.threads thread
        (.counting queue (args.packet now pstMemory)) :
          PoolState τ χ }.holds o = some (.slot iIndex) := by
  rw [exists_holds_slot_iff] at hslot ⊢
  rcases hslot with
    hmem | ⟨queue', position, packet, hqueued, hmemory⟩ | ⟨thread', hthread⟩
  · exact .inl (hpool ▸ hmem)
  · exact .inr (.inl ⟨queue', position, packet,
      queued_update (by rintro ⟨⟩) hqueued, hmemory⟩)
  · exact .inr (.inr ⟨thread', memory_update_of_some (by rw [hpc]; rfl)
      hthread⟩)

/-- The slot of a thread that appends a packet is that of the packet. -/
theorem Kept.covered_count (h : s.Kept) (hpc : s.threads thread = .counting queue packet)
    (hslot : ∃ o, s.holds o = some (.slot iIndex)) :
    ∃ o, { s with
      queues := Function.update s.queues queue ((s.queues queue).emplaceBack packet)
      behind := behind
      threads := Function.update s.threads thread .idle :
        PoolState τ χ }.holds o = some (.slot iIndex) := by
  rw [exists_holds_slot_iff] at hslot ⊢
  rcases hslot with
    hmem | ⟨queue', position, packet', hqueued, hmemory⟩ | ⟨thread', hthread⟩
  · exact .inl hmem
  · refine .inr (.inl ⟨queue', position, packet', ⟨?_, ?_⟩, hmemory⟩)
    · exact not_passed_update (by rintro ⟨⟩) hqueued.1
    · simp only [Function.update_apply]
      split_ifs with heq
      · subst heq
        exact List.getElem?_append_left
          (List.getElem?_eq_some_iff.mp hqueued.2).1 |>.trans hqueued.2
      · exact hqueued.2
  · by_cases heq : thread' = thread
    · subst heq
      rw [hpc, PoolPc.memory] at hthread
      split_ifs at hthread
      refine .inr (.inl ⟨queue, (s.queues queue).vecPacketPool.length, packet,
        ⟨?_, ?_⟩, Option.some.inj hthread⟩)
      · refine not_passed_update (by rintro ⟨⟩) ?_
        refine h.inv.orderly.not_passed (by rw [hpc]; rfl) ?_
        rw [hpc]
        rintro ⟨⟩
      · simp only [Function.update_self]
        exact List.getElem?_concat_length
    · refine .inr (.inr ⟨thread', ?_⟩)
      simp only [Function.update_of_ne heq]
      exact hthread

omit [DecidableEq χ] in
/-- The slot of the packet that `ReleaseAllPackets` comes to is in the hands
of its thread. -/
theorem covered_release {index : Int}
    (hpc : s.threads thread = .releasing queue position)
    (hpacket : (s.queues queue).vecPacketPool[position]? = some packet)
    (hpool : pool.packetIndexFreeQueue = s.pool.packetIndexFreeQueue)
    (hslot : ∃ o, s.holds o = some (.slot iIndex)) :
    ∃ o, { s with
      pool := pool
      threads := Function.update s.threads thread
        (.givingBack queue position packet.pstMemory index) }.holds o =
          some (.slot iIndex) := by
  rw [exists_holds_slot_iff] at hslot ⊢
  rcases hslot with
    hmem | ⟨queue', position', packet', hqueued, hmemory⟩ | ⟨thread', hthread⟩
  · exact .inl (hpool ▸ hmem)
  · by_cases hhere : queue' = queue ∧ position' = position
    · obtain ⟨rfl, rfl⟩ := hhere
      obtain rfl := Option.some.inj (hpacket.symm.trans hqueued.2)
      refine .inr (.inr ⟨thread, ?_⟩)
      simp only [Function.update_self]
      exact congrArg some hmemory
    · refine .inr (.inl ⟨queue', position', packet', queued_update ?_ hqueued,
        hmemory⟩)
      rintro ⟨rfl, hle⟩
      rw [hpc]
      exact ⟨rfl, lt_of_le_of_ne hle fun heq => hhere ⟨rfl, heq⟩⟩
  · exact .inr (.inr ⟨thread', memory_update_of_none (by rw [hpc]; rfl)
      hthread⟩)

omit [DecidableEq χ] in
/-- The slot that `ReleasePacketMemory` gives back is free. -/
theorem Kept.covered_giveBack (h : s.Kept) {index : Int}
    (hpc : s.threads thread = .givingBack queue position pstMemory index)
    (hgive : s.pool.giveBack pstMemory index = some pool)
    (hslot : ∃ o, s.holds o = some (.slot iIndex)) :
    ∃ o, { s with
      pool := pool
      threads := Function.update s.threads thread
        (.releasing queue (position + 1)) }.holds o =
        some (.slot iIndex) := by
  cases h.inv.index_of_givingBack hpc
  rw [exists_holds_slot_iff] at hslot ⊢
  rcases hslot with
    hmem | ⟨queue', position', packet, hqueued, hmemory⟩ | ⟨thread', hthread⟩
  · left
    obtain ⟨address, rfl, rfl⟩ | ⟨slot, rfl, rfl⟩ :=
      PacketMemoryPool.giveBack_cases hgive
    · exact hmem
    · exact List.mem_append_left _ hmem
  · refine .inr (.inl ⟨queue', position', packet, queued_update ?_ hqueued,
      hmemory⟩)
    rintro ⟨rfl, hlt⟩
    rw [hpc]
    exact ⟨rfl, Nat.le_of_lt_succ hlt⟩
  · by_cases heq : thread' = thread
    · subst heq
      rw [hpc] at hthread
      obtain rfl : pstMemory = .slot iIndex := Option.some.inj hthread
      obtain ⟨address, hheap, -⟩ | ⟨slot, hself, rfl⟩ :=
        PacketMemoryPool.giveBack_cases hgive
      · cases hheap
      · cases hself
        exact .inl (List.mem_append_right _ (List.mem_singleton_self _))
    · refine .inr (.inr ⟨thread', ?_⟩)
      simp only [Function.update_of_ne heq]
      exact hthread

/-- When the loop of `ReleaseAllPackets` is through, no packet of the queue
has a slot any more. -/
theorem covered_clear (hpc : s.threads thread = .releasing queue position)
    (hend : (s.queues queue).vecPacketPool.length = position)
    (hslot : ∃ o, s.holds o = some (.slot iIndex)) :
    ∃ o, { s with
      queues := Function.update s.queues queue (s.queues queue).clear
      behind := behind
      threads := Function.update s.threads thread .idle :
        PoolState τ χ }.holds o = some (.slot iIndex) := by
  rw [exists_holds_slot_iff] at hslot ⊢
  rcases hslot with
    hmem | ⟨queue', position', packet, hqueued, hmemory⟩ | ⟨thread', hthread⟩
  · exact .inl hmem
  · have hne : queue' ≠ queue := by
      rintro rfl
      have hlt := (List.getElem?_eq_some_iff.mp hqueued.2).1
      apply hqueued.1 thread
      rw [hpc]
      exact ⟨rfl, by omega⟩
    refine .inr (.inl ⟨queue', position', packet, ⟨?_, ?_⟩, hmemory⟩)
    · exact not_passed_update (by rintro ⟨⟩) hqueued.1
    · simp only [Function.update_of_ne hne]
      exact hqueued.2
  · exact .inr (.inr ⟨thread', memory_update_of_none (by rw [hpc]; rfl) hthread⟩)

omit [DecidableEq τ] in
/-- A thread that adds no packet to the context keeps its slot when that is
deleted. -/
theorem memory_of_not_addsSlotTo {ctx : χ} (hadds : ¬ pc.AddsSlotTo ctx)
    (hmemory : pc.memory s.alive = some (.slot iIndex)) :
    pc.memory (Function.update s.alive ctx false) = some (.slot iIndex) := by
  have hif : ∀ (queue : χ × QueueKind) (ref : MemoryRef),
      ¬ (queue.1 = ctx ∧ ∃ iIndex, ref = .slot iIndex) →
      (if s.alive queue.1 then some ref else none) = some (.slot iIndex) →
      (if Function.update s.alive ctx false queue.1 then some ref else none) =
        some (.slot iIndex) := by
    intro queue ref hnot hsome
    have href : ref = .slot iIndex := by
      split_ifs at hsome
      exact Option.some.inj hsome
    rwa [Function.update_of_ne fun hctx => hnot ⟨hctx, iIndex, href⟩]
  cases pc with
  | adding queue args pstMemory => exact hif queue pstMemory hadds hmemory
  | counting queue packet => exact hif queue packet.pstMemory hadds hmemory
  | idle | releasing | givingBack => exact hmemory

/-- A step that meets the condition leaves every slot with a holder. -/
theorem Kept.covered_step (h : s.Kept) {a : PoolAction τ χ}
    {s' : PoolState τ χ} (hlocks : s.LocksQueues a) (hcond : s.DropsNoSlot a)
    (hstep : s.step a = some s') (iIndex : Nat)
    (hlt : iIndex < maxPacketMemoryPoolSize) :
    ∃ o, s'.holds o = some (.slot iIndex) := by
  have hslot := h.covered iIndex hlt
  cases transition_of_step hstep with
  | create hnew =>
    refine covered_dropQueues hslot ?_ fun thread hthread => ?_
    · rintro queue position packet hqueued - rfl
      have hcreated := h.inv.orderly.created _ (h.alive_of_queued hqueued)
      exact Bool.false_ne_true (hnew.symm.trans hcreated)
    · rwa [h.inv.orderly.memory_create hnew]
  | destroy halive =>
    refine covered_dropQueues hslot ?_ fun thread hthread => ?_
    · rintro queue position packet hqueued hmemory rfl
      exact hcond.1 queue.2 position packet iIndex hqueued hmemory
    · exact memory_of_not_addsSlotTo (hcond.2 thread) hthread
  | getFree hidle halive hget => exact covered_getFree hidle halive hget hslot
  | emplace hpc halive hinit =>
    obtain ⟨block, after, -, -, rfl⟩ :=
      PacketMemoryPool.initMemory_eq_some_iff.mp hinit
    exact covered_emplace hpc rfl hslot
  | count hpc halive hbehind =>
    cases h.inv.orderly.placed_eq hpc halive hbehind
    exact h.covered_count hpc hslot
  | @copyFrom thread queue source hidle hne hqueue hsource =>
    exact covered_copied hne hlocks.1
      (PooledQueue.vecPacketPool_copyFrom (h.noneHidden queue) _) hslot
      fun position packet hqueued _ => hqueued.2
  | @initCopyFrom thread queue source hidle hne hqueue hsource =>
    have hvec : (PooledQueue.init.copyFrom (s.queues source)).1.vecPacketPool
        = [] ++ (s.queues source).vecPacketPool :=
      PooledQueue.vecPacketPool_init_copyFrom _
    apply covered_copied hne hlocks.1 hvec hslot
    intro position packet hqueued hmemory
    exact absurd hmemory (hcond position packet iIndex hqueued)
  | releaseAll hidle halive =>
    rw [exists_holds_slot_iff] at hslot ⊢
    rcases hslot with
      hmem | ⟨queue', position, packet, hqueued, hmemory⟩ | ⟨thread', hthread⟩
    · exact .inl hmem
    · refine .inr (.inl ⟨queue', position, packet, queued_update ?_ hqueued, hmemory⟩)
      rintro ⟨-, hlt⟩
      cases hlt
    · exact .inr (.inr ⟨thread', memory_update_of_none (by rw [hidle]; rfl) hthread⟩)
  | release hpc halive hpacket hrelease =>
    obtain ⟨block, -, rfl, rfl⟩ :=
      PacketMemoryPool.releaseMemory_eq_some_iff.mp hrelease
    exact covered_release hpc hpacket rfl hslot
  | giveBack hpc hgive => exact h.covered_giveBack hpc hgive hslot
  | clear hpc halive hend => exact covered_clear hpc hend hslot

end Covered

theorem kept_step (s : PoolState τ χ) (a : PoolAction τ χ) (s' : PoolState τ χ) (h : s.Kept)
    (hcond : s.LocksQueues a ∧ s.DropsNoSlot a) (hstep : s.step a = some s') :
    s'.Kept where
  inv := inv_step s a s' h.inv hcond.1 hstep
  inRange := inRange_step s a s' h.inRange hstep
  covered := h.covered_step hcond.1 hcond.2 hstep
  dead := h.dead_step hstep
  noneHidden := noneHidden_step s a s' h.noneHidden hstep

/-- **When the packet pool does not leak.**  In every state that a run with
locked queues passes through, each slot is free, or referenced by a packet in a
queue of a context that exists (or in the hands of a thread that comes back to
it), exactly when no step of the run drops a slot: no context is destroyed
whose queues hold one or to which a thread is adding a packet with one, and no
queue that holds one is initialised by `CopyPacketsFromNetToLogic`. -/
theorem noneLost_iff (actions : List (PoolAction τ χ)) (t : PoolState τ χ)
    (hlocks : RunMeets step LocksQueues fresh actions)
    (hrun : runSteps step fresh actions = some t) :
    (∀ first rest s, actions = first ++ rest → runSteps step fresh first = some s → s.NoneLost) ↔
      RunMeets step DropsNoSlot fresh actions :=
  forall_reached_iff_runMeets_of_meets kept_step
    (fun _ _ _ h hlocks hstep hnone => h.dropsNoSlot hlocks hstep hnone)
    (fun _ h => h.noneLost) kept_fresh hlocks hrun

/-- A packet is produced for a connector and waits in the send queue of its
context. -/
def waitingRun : List (PoolAction Bool Nat) :=
  [.create 0,
    .getFree false (0, .sendPrepareQueue) ⟨7, 3, 1, 2, [8, 9]⟩ 0,
    .emplace false 100, .count false,
    .copyFrom false (0, .sendQueue) (0, .sendPrepareQueue)]

/-- A thread has taken a slot for a packet to a connector. -/
def addingRun : List (PoolAction Bool Nat) :=
  [.create 0, .getFree false (0, .sendPrepareQueue) ⟨7, 3, 1, 2, [8, 9]⟩ 0]

/-- A state without losses that a run with locked queues reaches. -/
theorem kept_of_run {actions : List (PoolAction τ χ)} {t : PoolState τ χ}
    (hlocks : RunMeets step LocksQueues fresh actions)
    (hdrops : ∀ a ∈ actions, ∀ s : PoolState τ χ, s.DropsNoSlot a)
    (hrun : runSteps step fresh actions = some t) : t.Kept := by
  have hmeets : RunMeets step (fun s a => LocksQueues s a ∧ DropsNoSlot s a)
      fresh actions := runMeets_and hlocks (runMeets_of_forall hdrops fresh)
  exact runSteps_invariant_of_meets kept_step kept_fresh hmeets hrun

/-- **The connector closes.**  Its context is destroyed while a packet waits in
its send queue, or while a thread is inside `AddPacket`: the slot of the packet
is in no queue any more. -/
theorem noneLost_fails_of_destroy :
    (∃ t : PoolState Bool Nat,
      runSteps step fresh (waitingRun ++ [.destroy 0]) = some t ∧ ¬ t.NoneLost) ∧
    ∃ t : PoolState Bool Nat, runSteps step fresh (addingRun ++ [.destroy 0]) = some t ∧
        ¬ t.NoneLost := by
  constructor
  · have hview : ((runSteps step fresh waitingRun).map fun s =>
        ((decide (s.Unused (0, .sendQueue)), (s.queues (0, .sendQueue)).vecPacketPool[0]?),
          (s.step (.destroy 0)).isSome)) =
        some ((true, some ⟨7, 3, 1, 2, 100, .slot 0, [8, 9]⟩), true) := by
      decide +kernel
    obtain ⟨s, hrun, hpair⟩ := Option.map_eq_some_iff.mp hview
    simp only [Prod.mk.injEq] at hpair
    obtain ⟨⟨hunused, hpacket⟩, hsome⟩ := hpair
    obtain ⟨t, hstep⟩ := Option.isSome_iff_exists.mp hsome
    refine ⟨t, ?_, fun hnone => ?_⟩
    · rw [runSteps_append, hrun, Option.bind_some]
      exact runSteps_cons_eq_some_iff.mpr ⟨t, hstep, rfl⟩
    · have hkept : s.Kept := kept_of_run (by decide +kernel)
        (by simp [waitingRun, DropsNoSlot]) hrun
      have hdrops := hkept.dropsNoSlot (a := .destroy 0) trivial hstep hnone
      exact hdrops.1 .sendQueue 0 _ 0 ⟨(of_decide_eq_true hunused).not_passed 0, hpacket⟩ rfl
  · have hview : ((runSteps step fresh addingRun).map fun s =>
        (s.threads false, (s.step (.destroy 0)).isSome)) =
        some (.adding (0, .sendPrepareQueue) ⟨7, 3, 1, 2, [8, 9]⟩ (.slot 0), true) := by
      decide +kernel
    obtain ⟨s, hrun, hpair⟩ := Option.map_eq_some_iff.mp hview
    simp only [Prod.mk.injEq] at hpair
    obtain ⟨hpc, hsome⟩ := hpair
    obtain ⟨t, hstep⟩ := Option.isSome_iff_exists.mp hsome
    refine ⟨t, ?_, fun hnone => ?_⟩
    · rw [runSteps_append, hrun, Option.bind_some]
      exact runSteps_cons_eq_some_iff.mpr ⟨t, hstep, rfl⟩
    · have hkept : s.Kept := kept_of_run (by decide +kernel) (by simp [addingRun, DropsNoSlot]) hrun
      apply (hkept.dropsNoSlot (a := .destroy 0) trivial hstep hnone).2 false
      rw [hpc]
      exact ⟨rfl, 0, rfl⟩

/-- The packet is sent and released. -/
def sentRun : List (PoolAction Bool Nat) :=
  waitingRun ++
    [.copyFrom true (0, .sendCache) (0, .sendQueue),
      .releaseAll true (0, .sendCache), .release true, .giveBack true,
      .clear true]

/-- A connector that closes after that loses nothing. -/
theorem noneLost_iff_sent :
    ∃ t : PoolState Bool Nat,
      runSteps step fresh (sentRun ++ [.destroy 0]) = some t ∧
        RunMeets step LocksQueues fresh (sentRun ++ [.destroy 0]) ∧
        ∀ first rest s, sentRun ++ [.destroy 0] = first ++ rest →
          runSteps step fresh first = some s → s.NoneLost := by
  have hview : ((runSteps step fresh sentRun).map fun s =>
      ((QueueKind.all.all fun kind =>
        (s.queues (0, kind)).vecPacketPool.isEmpty,
        (s.step (.destroy 0)).isSome),
        QueueKind.all.all fun kind => decide (s.Unused (0, kind)))) =
      some ((true, true), true) := by
    decide +kernel
  obtain ⟨s, hrun, htriple⟩ := Option.map_eq_some_iff.mp hview
  simp only [Prod.mk.injEq] at htriple
  obtain ⟨⟨hempty, hsome⟩, hunused⟩ := htriple
  obtain ⟨t, hstep⟩ := Option.isSome_iff_exists.mp hsome
  have hall : runSteps step fresh (sentRun ++ [.destroy 0]) = some t := by
    rw [runSteps_append, hrun, Option.bind_some]
    exact runSteps_cons_eq_some_iff.mpr ⟨t, hstep, rfl⟩
  have hlocks : RunMeets step LocksQueues (fresh : PoolState Bool Nat)
      (sentRun ++ [.destroy 0]) := by
    decide +kernel
  refine ⟨t, hall, hlocks, (noneLost_iff _ t hlocks hall).mpr ?_⟩
  refine runMeets_append.mpr ⟨runMeets_of_forall
    (by simp [sentRun, waitingRun, DropsNoSlot]) fresh, ?_⟩
  intro s' hrun'
  obtain rfl := Option.some.inj (hrun.symm.trans hrun')
  refine ⟨⟨?_, ?_⟩, fun _ _ => trivial⟩
  · intro kind position packet iIndex hqueued
    have hnil : (s.queues (0, kind)).vecPacketPool = [] := by
      have hkind := List.all_eq_true.mp hempty kind kind.mem_all
      simpa using hkind
    have hpacket := hqueued.2
    rw [hnil] at hpacket
    cases hpacket
  · intro thread hadds
    obtain ⟨kind, hqueue⟩ := hadds.exists_queue
    have hkind := List.all_eq_true.mp hunused kind kind.mem_all
    exact of_decide_eq_true hkind thread hqueue

end Step

end PoolState

end Network
end GameServer
