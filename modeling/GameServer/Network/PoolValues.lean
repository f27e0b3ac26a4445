import GameServer.Network.PoolOwnership

/-!
# The packet queues by value

The rest of the network layer is modelled with packets that carry their bytes
by value.  This module shows that the queues with pointers into the memory pool
do the same to their packets as those queues: each operation of a run, at the
step that completes it, is the operation of `NetPacketQueue` on the packets by
value, as long as the queues are locked.  By the invariant of `PoolOwnership`,
the bytes by value are the ones `GetBuffer()` shows.
-/

namespace GameServer
namespace Network

open Lib

namespace PoolState

variable {τ χ : Type*} [DecidableEq τ] [DecidableEq χ]

/-- What the operations of a run do to the queues. -/
inductive QueueEvent (χ : Type*) where
  | dropAll (ctx : χ)
  | addPacket (queue : χ × QueueKind) (packet : PooledPacket)
  | copyFrom (queue source : χ × QueueKind)
  | initCopyFrom (queue source : χ × QueueKind)
  | releaseAllPackets (queue : χ × QueueKind)

/-- The same on queues that carry their packets by value. -/
def valueStep (queues : χ × QueueKind → NetPacketQueue) :
    QueueEvent χ → Option (χ × QueueKind → NetPacketQueue)
  | .dropAll ctx =>
    some fun queue => if queue.1 = ctx then .init else queues queue
  | .addPacket queue packet =>
    ((queues queue).addPacket packet.ulClientSeq packet.iSockFd
      packet.iProtoNo packet.iBufferSize packet.added
      packet.dwCreateTime).map (Function.update queues queue)
  | .copyFrom queue source =>
    let result := (queues queue).copyFrom (queues source)
    some (Function.update (Function.update queues queue result.1) source
      result.2)
  | .initCopyFrom queue source =>
    let result := NetPacketQueue.init.copyFrom (queues source)
    some (Function.update (Function.update queues queue result.1) source
      result.2)
  | .releaseAllPackets queue =>
    some (Function.update queues queue (queues queue).releaseAllPackets)

/-- The operation a step completes. -/
def events (s : PoolState τ χ) : PoolAction τ χ → List (QueueEvent χ)
  | .create ctx => [.dropAll ctx]
  | .destroy ctx => [.dropAll ctx]
  | .count thread =>
    match s.threads thread with
    | .counting queue packet => [.addPacket queue packet]
    | _ => []
  | .copyFrom _ queue source => [.copyFrom queue source]
  | .initCopyFrom _ queue source => [.initCopyFrom queue source]
  | .clear thread =>
    match s.threads thread with
    | .releasing queue _ => [.releaseAllPackets queue]
    | _ => []
  | _ => []

/-- All queues with their packets by value. -/
def values (s : PoolState τ χ) : χ × QueueKind → NetPacketQueue :=
  fun queue => (s.queues queue).value

omit [DecidableEq τ] in
theorem values_update (s : PoolState τ χ) (queue : χ × QueueKind) (after : PooledQueue) :
    (fun queue' => (Function.update s.queues queue after queue').value) =
      Function.update s.values queue after.value := by
  funext queue'
  rw [Function.update_apply, Function.update_apply]
  split_ifs
  · rfl
  · rfl

omit [DecidableEq τ] in
theorem values_dropQueues (s : PoolState τ χ) (ctx : χ) :
    (fun queue => (s.dropQueues ctx queue).value) =
      fun queue => if queue.1 = ctx then .init else s.values queue := by
  funext queue
  simp only [dropQueues]
  split_ifs
  · rfl
  · rfl

omit [DecidableEq τ] in
theorem values_copied (s : PoolState τ χ) (queue source : χ × QueueKind) (before : PooledQueue) :
    (fun queue' => (s.copied queue before source queue').value) = Function.update
        (Function.update s.values queue
          (before.value.copyFrom (s.values source)).1) source .init := by
  funext queue'
  simp only [copied, Function.update_apply]
  split_ifs
  · rw [PooledQueue.copyFrom_snd, PooledQueue.value_init]
  · exact PooledQueue.value_copyFrom before (s.queues source)
  · rfl

/-- One step does to the queues what the operation it completes does by
value. -/
theorem values_step (s : PoolState τ χ) (a : PoolAction τ χ)
    (s' : PoolState τ χ) (h : s.Orderly) (hstep : s.step a = some s') :
    runSteps valueStep s.values (s.events a) = some s'.values := by
  cases transition_of_step hstep with
  | create hnew =>
    simp only [events, runSteps, valueStep, Option.bind_some, ← values_dropQueues]
    rfl
  | destroy halive =>
    simp only [events, runSteps, valueStep, Option.bind_some, ← values_dropQueues]
    rfl
  | @count thread queue placed packet rest hpc halive hbehind =>
    obtain rfl := h.placed_eq hpc halive hbehind
    obtain ⟨-, hmax, hlength⟩ := h.placed thread queue packet hpc halive
    have hadd : (s.values queue).addPacket packet.ulClientSeq packet.iSockFd
        packet.iProtoNo packet.iBufferSize packet.added packet.dwCreateTime =
          some ((s.queues queue).emplaceBack packet).value := by
      refine NetPacketQueue.addPacket_eq_some_iff.mpr ⟨hmax, ?_⟩
      simp [PooledQueue.value, PooledQueue.emplaceBack, PooledPacket.value,
        values, List.take_of_length_le hlength]
    simp only [events, hpc, runSteps, valueStep, hadd, Option.map_some,
      Option.bind_some, ← values_update]
    rfl
  | copyFrom hidle hne hqueue hsource =>
    simp only [events, runSteps, valueStep, Option.bind_some, NetPacketQueue.copyFrom_snd]
    exact congrArg some (values_copied s _ _ _).symm
  | @initCopyFrom thread queue source hidle hne hqueue hsource =>
    simp only [events, runSteps, valueStep, Option.bind_some, NetPacketQueue.copyFrom_snd]
    exact congrArg some (values_copied s queue source .init).symm
  | getFree | emplace | releaseAll | release | giveBack => rfl
  | @clear thread queue position hpc halive hend =>
    have hclear := values_update s queue (s.queues queue).clear
    rw [PooledQueue.value_clear] at hclear
    simp only [events, hpc, runSteps, valueStep, Option.bind_some]
    exact congrArg some hclear.symm

/-- **The pool is invisible behind the queues.**  Every run in which the queues
are locked does to the packets what the operations it completes do, in the same
order, to queues that carry their packets by value. -/
theorem refines_valueQueues (actions : List (PoolAction τ χ))
    (s : PoolState τ χ) (hlocks : RunMeets step LocksQueues fresh actions)
    (hrun : runSteps step fresh actions = some s) :
    runSteps valueStep (fun _ => NetPacketQueue.init)
        (traceOf step events fresh actions) = some s.values := by
  have hmatch : ∀ (s : PoolState τ χ) a s' values,
      values = s.values ∧ s.Orderly → s.LocksQueues a → s.step a = some s' →
        ∃ values', runSteps valueStep values (s.events a) = some values' ∧
          values' = s'.values ∧ s'.Orderly := by
    rintro s a s' _ ⟨rfl, horderly⟩ hlocks hstep
    exact ⟨_, values_step s a s' horderly hstep, rfl, orderly_step s a s' horderly hlocks hstep⟩
  obtain ⟨_, htrace, rfl, -⟩ :=
    runSteps_simulates_of_meets hmatch ⟨rfl, orderly_fresh⟩ hlocks hrun
  exact htrace

end PoolState

end Network
end GameServer
