import GameServer.Network.PoolThreads

/-!
# The threads on the packet queues

As long as the queues are locked, threads keep out of each other's way: no two
of them work on one queue, the packet that `emplace_back` has constructed is
the one that the vector gets, and the loop of `ReleaseAllPackets` stays inside
its vector.  Contexts may be deleted meanwhile.
-/

namespace GameServer
namespace Network

open Lib

namespace PoolState

variable {τ χ : Type*}

/-- Threads work on queues of contexts that have been created, each on its own;
a packet that `emplace_back` has constructed is behind the last one; and what a
loop has passed is in the vector. -/
structure Orderly (s : PoolState τ χ) : Prop where
  created : ∀ ctx, s.alive ctx = true → s.created ctx = true
  working : ∀ thread queue, (s.threads thread).queue = some queue →
    s.created queue.1 = true
  alone : ∀ thread thread' queue, (s.threads thread).queue = some queue →
    (s.threads thread').queue = some queue → thread = thread'
  placed : ∀ thread queue packet, s.threads thread = .counting queue packet →
    s.alive queue.1 = true →
      (s.behind queue).head? = some packet ∧ packet.WellSized
  within : ∀ thread queue position, (s.threads thread).Passed queue position →
    s.alive queue.1 = true →
      position < (s.queues queue).vecPacketPool.length

variable {s : PoolState τ χ}

theorem orderly_fresh : (fresh : PoolState τ χ).Orderly where
  created := fun _ h => h
  working := by
    intro thread queue h
    cases h
  alone := by
    intro thread thread' queue h
    cases h
  placed := by
    intro thread queue packet h
    cases h
  within := by
    intro thread queue position h
    cases h

/-- Queues that nobody works on change. -/
theorem Orderly.frame (h : s.Orderly)
    {queues : χ × QueueKind → PooledQueue}
    {behind : χ × QueueKind → List PooledPacket}
    (hsame : ∀ thread queue, (s.threads thread).queue = some queue →
      queues queue = s.queues queue ∧ behind queue = s.behind queue) :
    { s with queues := queues, behind := behind }.Orderly where
  created := h.created
  working := h.working
  alone := h.alone
  placed := by
    intro thread queue packet hpc halive
    have hqueue : (s.threads thread).queue = some queue := by
      rw [show s.threads thread = _ from hpc]
      rfl
    dsimp only
    rw [(hsame thread queue hqueue).2]
    exact h.placed thread queue packet hpc halive
  within := by
    intro thread queue position hpassed halive
    dsimp only
    rw [(hsame thread queue hpassed.queue_eq).1]
    exact h.within thread queue position hpassed halive

section Threads

variable [DecidableEq τ]

/-- A thread goes on, and changes nothing of what the others work on. -/
theorem Orderly.update (h : s.Orderly) {thread : τ} {pc : PoolPc χ}
    {pool : PacketMemoryPool} {queues : χ × QueueKind → PooledQueue}
    {behind : χ × QueueKind → List PooledPacket}
    (hsame : ∀ thread' queue, thread' ≠ thread → (s.threads thread').queue = some queue →
        queues queue = s.queues queue ∧ behind queue = s.behind queue)
    (hworking : ∀ queue, pc.queue = some queue → s.created queue.1 = true ∧
        ∀ thread', thread' ≠ thread → (s.threads thread').queue ≠ some queue)
    (hplaced : ∀ queue packet, pc = .counting queue packet →
      (behind queue).head? = some packet ∧ packet.WellSized)
    (hwithin : ∀ queue position, pc.Passed queue position → s.alive queue.1 = true →
        position < (queues queue).vecPacketPool.length) :
    { s with
      pool := pool
      queues := queues
      behind := behind
      threads := Function.update s.threads thread pc : PoolState τ χ }.Orderly where
  created := h.created
  working := by
    intro thread' queue hqueue
    by_cases heq : thread' = thread
    · subst heq
      simp only [Function.update_self] at hqueue
      exact (hworking queue hqueue).1
    · simp only [Function.update_of_ne heq] at hqueue
      exact h.working thread' queue hqueue
  alone := by
    intro t t' queue ht ht'
    -- the thread that has gone on may be neither, one or both of them
    by_cases heq : t = thread
    · by_cases heq' : t' = thread
      · rw [heq, heq']
      · subst heq
        simp only [Function.update_self, Function.update_of_ne heq'] at ht ht'
        exact absurd ht' ((hworking queue ht).2 t' heq')
    · by_cases heq' : t' = thread
      · subst heq'
        simp only [Function.update_self, Function.update_of_ne heq] at ht ht'
        exact absurd ht ((hworking queue ht').2 t heq)
      · simp only [Function.update_of_ne heq, Function.update_of_ne heq'] at ht ht'
        exact h.alone t t' queue ht ht'
  placed := by
    intro thread' queue packet hpc halive
    by_cases heq : thread' = thread
    · subst heq
      simp only [Function.update_self] at hpc
      exact hplaced queue packet hpc
    · simp only [Function.update_of_ne heq] at hpc
      have hqueue : (s.threads thread').queue = some queue := by
        rw [hpc]
        rfl
      dsimp only
      rw [(hsame thread' queue heq hqueue).2]
      exact h.placed thread' queue packet hpc halive
  within := by
    intro thread' queue position hpassed halive
    by_cases heq : thread' = thread
    · subst heq
      simp only [Function.update_self] at hpassed
      exact hwithin queue position hpassed halive
    · simp only [Function.update_of_ne heq] at hpassed
      dsimp only
      rw [(hsame thread' queue heq hpassed.queue_eq).1]
      exact h.within thread' queue position hpassed halive

omit [DecidableEq τ] in
/-- What other threads work on is not the queue of this one. -/
theorem Orderly.queue_ne (h : s.Orderly) {thread thread' : τ}
    {queue queue' : χ × QueueKind}
    (hqueue : (s.threads thread).queue = some queue) (hne : thread' ≠ thread)
    (hqueue' : (s.threads thread').queue = some queue') : queue' ≠ queue := by
  rintro rfl
  exact hne (h.alone thread' thread queue' hqueue' hqueue)

variable [DecidableEq χ]

omit [DecidableEq τ] in
/-- A context is created or deleted. -/
theorem Orderly.drop (h : s.Orderly) {ctx : χ} {created alive : χ → Bool}
    (hcreated : ∀ ctx', s.created ctx' = true → created ctx' = true)
    (halive : ∀ ctx', alive ctx' = true → created ctx' = true)
    (hother : ∀ thread queue, (s.threads thread).queue = some queue →
      alive queue.1 = true → queue.1 ≠ ctx ∧ s.alive queue.1 = true) :
    { s with
      created := created
      alive := alive
      queues := s.dropQueues ctx
      behind := s.dropBehind ctx }.Orderly where
  created := halive
  working := fun thread queue hqueue =>
    hcreated _ (h.working thread queue hqueue)
  alone := h.alone
  placed := by
    intro thread queue packet hpc hqueue
    obtain ⟨hne, hold⟩ := hother thread queue
      (by rw [show s.threads thread = _ from hpc]; rfl) hqueue
    dsimp only
    rw [s.dropBehind_of_ne hne]
    exact h.placed thread queue packet hpc hold
  within := by
    intro thread queue position hpassed hqueue
    obtain ⟨hne, hold⟩ := hother thread queue hpassed.queue_eq hqueue
    dsimp only
    rw [s.dropQueues_of_ne hne]
    exact h.within thread queue position hpassed hold

omit [DecidableEq τ] in
theorem Orderly.create (h : s.Orderly) {ctx : χ} (hnew : s.created ctx = false) :
    { s with
      created := Function.update s.created ctx true
      alive := Function.update s.alive ctx true
      queues := s.dropQueues ctx
      behind := s.dropBehind ctx }.Orderly := by
  refine h.drop (fun ctx' hctx => ?_) (fun ctx' hctx => ?_) ?_
  · rw [Function.update_apply, hctx]
    exact ite_self _
  · by_cases heq : ctx' = ctx
    · rw [heq, Function.update_self]
    · rw [Function.update_of_ne heq] at hctx ⊢
      exact h.created ctx' hctx
  · intro thread queue hqueue halive
    have hne : queue.1 ≠ ctx := by
      rintro rfl
      exact Bool.false_ne_true (hnew.symm.trans (h.working thread queue hqueue))
    rw [Function.update_of_ne hne] at halive
    exact ⟨hne, halive⟩

omit [DecidableEq τ] in
theorem Orderly.destroy (h : s.Orderly) (ctx : χ) :
    { s with
      alive := Function.update s.alive ctx false
      queues := s.dropQueues ctx
      behind := s.dropBehind ctx }.Orderly := by
  have hold : ∀ ctx', Function.update s.alive ctx false ctx' = true →
      ctx' ≠ ctx ∧ s.alive ctx' = true := by
    intro ctx' hctx
    rw [Function.update_apply] at hctx
    split_ifs at hctx with heq
    exact ⟨heq, hctx⟩
  exact h.drop (fun _ => id) (fun ctx' hctx => h.created ctx' (hold ctx' hctx).2)
    fun _ queue _ hqueue => hold queue.1 hqueue

omit [DecidableEq τ] in
/-- A copy between two queues that nobody works on. -/
theorem Orderly.copied (h : s.Orderly) {queue source : χ × QueueKind}
    (hqueue : s.Unused queue) (hsource : s.Unused source) (before : PooledQueue)
    (behind : List PooledPacket) :
    { s with
      queues := s.copied queue before source
      behind := s.copiedBehind queue before behind source }.Orderly := by
  refine h.frame fun thread queue' hqueue' => ?_
  have hq := hqueue.ne_of_queue hqueue'
  have hs := hsource.ne_of_queue hqueue'
  exact ⟨s.copied_of_ne _ hq hs, s.copiedBehind_of_ne _ _ hq hs⟩

section Inside

variable {thread : τ} {queue : χ × QueueKind}

omit [DecidableEq τ] [DecidableEq χ] in
/-- A thread inside an operation has its queue to itself. -/
theorem Orderly.alone_on (h : s.Orderly)
    (hqueue : (s.threads thread).queue = some queue) :
    s.created queue.1 = true ∧
      ∀ thread', thread' ≠ thread → (s.threads thread').queue ≠ some queue :=
  ⟨h.working thread queue hqueue,
    fun _ hne hqueue' => h.queue_ne hqueue hne hqueue' rfl⟩

omit [DecidableEq τ] in
/-- What it does to its queue is not seen at the queues of the others. -/
theorem Orderly.update_other (h : s.Orderly)
    (hqueue : (s.threads thread).queue = some queue) {thread' : τ}
    {queue' : χ × QueueKind} (hne : thread' ≠ thread)
    (hqueue' : (s.threads thread').queue = some queue') {α : Type*}
    (f : χ × QueueKind → α) (a : α) :
    Function.update f queue a queue' = f queue' :=
  Function.update_of_ne (h.queue_ne hqueue hne hqueue') ..

/-- It ends its operation with a change to its queue. -/
theorem Orderly.finish (h : s.Orderly)
    (hqueue : (s.threads thread).queue = some queue) (after : PooledQueue)
    (behind : List PooledPacket) :
    { s with
      queues := Function.update s.queues queue after
      behind := Function.update s.behind queue behind
      threads := Function.update s.threads thread .idle : PoolState τ χ }.Orderly :=
  h.update (fun _ _ hne hqueue' => ⟨h.update_other hqueue hne hqueue' _ _,
    h.update_other hqueue hne hqueue' _ _⟩) (by rintro _ ⟨⟩) (by rintro _ _ ⟨⟩)
    (by rintro _ _ ⟨⟩)

end Inside

/-- Every step that locks its queues keeps the threads apart. -/
theorem orderly_step (s : PoolState τ χ) (a : PoolAction τ χ)
    (s' : PoolState τ χ) (h : s.Orderly) (hlocks : s.LocksQueues a)
    (hstep : s.step a = some s') : s'.Orderly := by
  cases transition_of_step hstep with
  | create hnew => exact h.create hnew
  | destroy => exact h.destroy _
  | copyFrom => exact h.copied hlocks.1 hlocks.2 _ _
  | initCopyFrom => exact h.copied hlocks.1 hlocks.2 _ _
  | getFree hidle halive hget =>
    refine h.update (fun _ _ _ _ => ⟨rfl, rfl⟩) ?_ (by rintro _ _ ⟨⟩) (by rintro _ _ ⟨⟩)
    rintro _ ⟨⟩
    exact ⟨h.created _ halive, fun thread' _ => hlocks thread'⟩
  | releaseAll hidle halive =>
    refine h.update (fun _ _ _ _ => ⟨rfl, rfl⟩) ?_ (by rintro _ _ ⟨⟩) ?_
    · rintro _ ⟨⟩
      exact ⟨h.created _ halive, fun thread' _ => hlocks thread'⟩
    · rintro _ _ ⟨-, hlt⟩
      cases hlt
  | @emplace thread now queue args pstMemory pool hpc halive hinit =>
    have hqueue : (s.threads thread).queue = some queue := by
      rw [hpc]
      rfl
    refine h.update (fun _ _ hne hqueue' => ⟨rfl, h.update_other hqueue hne hqueue' _ _⟩)
      ?_ ?_ (by rintro _ _ ⟨⟩)
    · rintro _ ⟨⟩
      exact h.alone_on hqueue
    · -- what `emplace_back` constructs is at the end of its vector
      rintro _ _ ⟨⟩
      obtain ⟨block, after, -, hafter, -⟩ :=
        PacketMemoryPool.initMemory_eq_some_iff.mp hinit
      rw [Function.update_self]
      exact ⟨rfl, (PacketMemory.init_spec hafter).1, List.length_take_le ..⟩
  | @count thread queue placed packet rest hpc halive hbehind =>
    exact h.finish (by rw [hpc]; rfl) _ _
  | @release thread queue position packet iIndex pool hpc halive hpacket hrelease =>
    refine h.update (fun _ _ _ _ => ⟨rfl, rfl⟩) ?_ (by rintro _ _ ⟨⟩) ?_
    · rintro _ ⟨⟩
      exact h.alone_on (by rw [hpc]; rfl)
    · rintro _ position' ⟨rfl, hle⟩ -
      exact lt_of_le_of_lt hle (List.getElem?_eq_some_iff.mp hpacket).1
  | @giveBack thread queue position pstMemory iIndex pool hpc hgive =>
    refine h.update (fun _ _ _ _ => ⟨rfl, rfl⟩) ?_ (by rintro _ _ ⟨⟩) ?_
    · rintro _ ⟨⟩
      exact h.alone_on (by rw [hpc]; rfl)
    · -- the loop goes on to the packet behind the one it has given back
      rintro _ position' ⟨rfl, hlt⟩
      refine h.within thread _ position' ?_
      rw [hpc]
      exact ⟨rfl, Nat.le_of_lt_succ hlt⟩
  | @clear thread queue position hpc halive hend =>
    exact h.finish (by rw [hpc]; rfl) _ _

end Threads

end PoolState

end Network
end GameServer
