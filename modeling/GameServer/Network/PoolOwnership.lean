import GameServer.Network.PoolOrder

/-!
# Every packet has its memory for itself

The ownership invariant of the packet memory pool: how each step moves blocks
between their holders, and what follows for every run in which the queues are
locked as `queue.h` demands.

`Connector::HeartBeat` does not lock them.  The last section has a run in which
it adds a packet while the logic thread copies the queue, and two packets get
the same block.
-/

namespace GameServer
namespace Network

open Lib

namespace PoolState

variable {τ χ : Type*}

/-! ## The invariant -/

/-- Blocks have one holder, which finds in them what it relies on; no index is
free twice; and the threads keep out of each other's way. -/
structure Inv (s : PoolState τ χ) : Prop where
  sound : Sound s.holds s.pool.memory s.fits
  nodup : s.pool.packetIndexFreeQueue.Nodup
  orderly : s.Orderly

variable {s : PoolState τ χ} {ref : MemoryRef} {position : Nat}
  {queue : χ × QueueKind} {thread : τ}

theorem holds_free_eq_some_iff {iIndex : Nat} :
    s.holds (.free iIndex) = some ref ↔
      iIndex ∈ s.pool.packetIndexFreeQueue ∧ ref = .slot iIndex := by
  simp only [holds]
  split_ifs with h
  · simp [h, eq_comm]
  · simp [h]

theorem holds_queued_eq_some_iff :
    s.holds (.queued queue position) = some ref ↔
      ∃ packet, s.Queued queue position packet ∧ packet.pstMemory = ref := by
  simp only [holds, Queued]
  split_ifs with h
  · simp [h]
  · simp [h]

theorem holds_queued {packet : PooledPacket}
    (h : s.Queued queue position packet) :
    s.holds (.queued queue position) = some packet.pstMemory :=
  holds_queued_eq_some_iff.mpr ⟨packet, h, rfl⟩

@[simp] theorem holds_thread (thread : τ) :
    s.holds (.thread thread) = (s.threads thread).memory s.alive := rfl

theorem pool_fresh : (fresh : PoolState τ χ).pool = .construct := rfl

theorem inv_fresh : (fresh : PoolState τ χ).Inv where
  sound := by
    have hfree : ∀ (o : Holder τ χ) ref, (fresh : PoolState τ χ).holds o =
        some ref → ∃ iIndex, o = .free iIndex ∧ ref = .slot iIndex ∧
          iIndex < maxPacketMemoryPoolSize := by
      intro o ref h
      cases o with
      | free iIndex =>
        obtain ⟨hmem, rfl⟩ := holds_free_eq_some_iff.mp h
        rw [pool_fresh, PacketMemoryPool.packetIndexFreeQueue_construct] at hmem
        exact ⟨iIndex, rfl, rfl, List.mem_range.mp hmem⟩
      | queued queue position =>
        obtain ⟨packet, hqueued, -⟩ := holds_queued_eq_some_iff.mp h
        cases hqueued.2
      | thread thread => cases h
    constructor
    · intro o o' ref ho ho'
      obtain ⟨iIndex, rfl, rfl, -⟩ := hfree o ref ho
      obtain ⟨iIndex', rfl, heq, -⟩ := hfree o' _ ho'
      cases heq
      rfl
    · intro o ref ho
      obtain ⟨iIndex, rfl, rfl, hlt⟩ := hfree o ref ho
      refine ⟨_, PacketMemoryPool.memory_construct_slot hlt, ?_⟩
      exact (PacketMemory.blank_setIndex _ _).mpr PacketMemory.blank_construct
  nodup := by
    rw [pool_fresh, PacketMemoryPool.packetIndexFreeQueue_construct]
    exact List.nodup_range
  orderly := orderly_fresh

/-- Nobody has released anything in a queue that nobody works on. -/
theorem Unused.not_passed (h : s.Unused queue) (position : Nat) (thread : τ) :
    ¬ (s.threads thread).Passed queue position :=
  fun hpassed => h thread hpassed.queue_eq

/-- A thread inside a call on a queue knows who has passed its packets. -/
theorem Orderly.not_passed (h : s.Orderly)
    (hqueue : (s.threads thread).queue = some queue)
    (hown : ¬ (s.threads thread).Passed queue position) (thread' : τ) :
    ¬ (s.threads thread').Passed queue position := by
  intro hpassed
  obtain rfl := h.alone thread' thread queue hpassed.queue_eq hqueue
  exact hown hpassed

/-- The packet that `ReleaseAllPackets` comes to has not been released. -/
theorem Orderly.not_passed_releasing (h : s.Orderly)
    (hpc : s.threads thread = .releasing queue position) :
    ∀ thread', ¬ (s.threads thread').Passed queue position := by
  refine h.not_passed (by rw [hpc]; rfl) ?_
  rw [hpc]
  rintro ⟨-, hlt⟩
  exact lt_irrefl _ hlt

/-- What a thread finds in the block it has in its hands. -/
theorem Inv.content_of_thread (h : s.Inv)
    (hmemory : (s.threads thread).memory s.alive = some ref) :
    ∃ block, s.pool.memory ref = some block ∧ (s.threads thread).fits ref block :=
  h.sound.content (.thread thread) ref hmemory

/-- `ReleasePacketMemory` has read the index of the block it has cleared. -/
theorem Inv.index_of_givingBack (h : s.Inv) {pstMemory : MemoryRef}
    {iIndex : Int}
    (hpc : s.threads thread = .givingBack queue position pstMemory iIndex) :
    iIndex = pstMemory.index := by
  obtain ⟨block, -, hfits⟩ := h.content_of_thread (by rw [hpc]; rfl)
  rw [hpc] at hfits
  exact hfits.2

/-! ## How the steps move blocks -/

theorem getElem?_concat_of_ne {α : Type*} {l : List α} {a : α} {i : Nat}
    (h : i ≠ l.length) : (l ++ [a])[i]? = l[i]? := by
  grind

/-- A thread that stays where it is keeps its block and what it relies on. -/
theorem thread_frame (s : PoolState τ χ) {s' : PoolState τ χ}
    (hthread : s'.threads thread = s.threads thread)
    (halive : s'.alive = s.alive) (ho : s'.holds (.thread thread) = some ref) :
    s.holds (.thread thread) = some ref ∧ ∀ block, s.fits (.thread thread) ref block →
        s'.fits (.thread thread) ref block := by
  constructor
  · rw [holds_thread, ← hthread, ← halive]
    exact ho
  · intro block hfits
    show (s'.threads thread).fits ref block
    rw [hthread]
    exact hfits

/-- A packet that was somewhere in a queue before the step keeps its block and
what it relies on. -/
theorem queued_frame (s : PoolState τ χ) (queue' : χ × QueueKind)
    (position' : Nat) {s' : PoolState τ χ}
    (ho : s'.holds (.queued queue position) = some ref)
    (hpassed : (∀ thread, ¬ (s'.threads thread).Passed queue position) →
      ∀ thread, ¬ (s.threads thread).Passed queue' position')
    (hvec : ∀ packet, (s'.queues queue).vecPacketPool[position]? = some packet →
      (s.queues queue').vecPacketPool[position']? = some packet) :
    s.holds (.queued queue' position') = some ref ∧
      ∀ block, s.fits (.queued queue' position') ref block →
        s'.fits (.queued queue position) ref block := by
  obtain ⟨packet, ⟨hleft, hpacket⟩, rfl⟩ := holds_queued_eq_some_iff.mp ho
  refine ⟨holds_queued ⟨hpassed hleft, hvec packet hpacket⟩, ?_⟩
  rintro block ⟨hindex, hcontent⟩
  refine ⟨hindex, fun packet' hpacket' => ?_⟩
  exact hcontent packet' (hvec packet' hpacket')

section Preservation

variable [DecidableEq τ] [DecidableEq χ] {source : χ × QueueKind}
  {behind : χ × QueueKind → List PooledPacket} {pool : PacketMemoryPool}
  {pstMemory : MemoryRef} {packet : PooledPacket} {iIndex : Int}

omit [DecidableEq χ] in
/-- Threads pass no fewer packets when one of them does not. -/
theorem not_passed_of_update {pc : PoolPc χ}
    (hpc : (s.threads thread).Passed queue position → pc.Passed queue position)
    (h : ∀ thread', ¬ (Function.update s.threads thread pc thread').Passed queue
      position) (thread' : τ) :
    ¬ (s.threads thread').Passed queue position := by
  intro hpassed
  apply h thread'
  by_cases heq : thread' = thread
  · subst heq
    rw [Function.update_self]
    exact hpc hpassed
  · rw [Function.update_of_ne heq]
    exact hpassed

section Update

variable {thread' : τ} {pc : PoolPc χ}

omit [DecidableEq χ] in
/-- What the thread has that has gone on. -/
theorem holds_thread_update {s' : PoolState τ χ}
    (hthreads : s'.threads = Function.update s.threads thread pc) :
    s'.holds (.thread thread) = pc.memory s'.alive := by
  rw [holds_thread, hthreads, Function.update_self]

omit [DecidableEq χ] in
theorem fits_thread_update {s' : PoolState τ χ}
    (hthreads : s'.threads = Function.update s.threads thread pc)
    {ref : MemoryRef} {block : PacketMemory} (hfits : pc.fits ref block) :
    s'.fits (.thread thread) ref block := by
  rw [fits, hthreads, Function.update_self]
  exact hfits

omit [DecidableEq χ] in
/-- The other threads have what they had. -/
theorem other_thread_frame (s : PoolState τ χ) {s' : PoolState τ χ}
    (hthreads : s'.threads = Function.update s.threads thread pc)
    (halive : s'.alive = s.alive)
    (hne : (.thread thread' : Holder τ χ) ≠ .thread thread) {ref : MemoryRef}
    (ho : s'.holds (.thread thread') = some ref) :
    s.holds (.thread thread') = some ref ∧
      ∀ block, s.fits (.thread thread') ref block →
        s'.fits (.thread thread') ref block := by
  refine s.thread_frame ?_ halive ho
  rw [hthreads, Function.update_of_ne]
  rintro rfl
  exact hne rfl

omit [DecidableEq χ] in
/-- A thread goes where it has nothing in its hands: what threads have then is
with the other ones, as before. -/
theorem thread_frame_of_update (s : PoolState τ χ) {s' : PoolState τ χ}
    (hthreads : s'.threads = Function.update s.threads thread pc)
    (halive : s'.alive = s.alive) (hnone : pc.memory s'.alive = none)
    {ref : MemoryRef} (ho : s'.holds (.thread thread') = some ref) :
    (.thread thread' : Holder τ χ) ≠ .thread thread ∧
      s.holds (.thread thread') = some ref ∧
      ∀ block, s.fits (.thread thread') ref block →
        s'.fits (.thread thread') ref block := by
  have hne : (.thread thread' : Holder τ χ) ≠ .thread thread := by
    rintro ⟨⟩
    rw [holds_thread_update hthreads, hnone] at ho
    cases ho
  exact ⟨hne, s.other_thread_frame hthreads halive hne ho⟩

end Update

omit [DecidableEq τ] in
/-- A context that is constructed or destroyed: nobody gets a block. -/
theorem Inv.sound_drop (h : s.Inv) {ctx : χ} {created alive : χ → Bool}
    (hthreads : ∀ thread ref, (s.threads thread).memory alive = some ref →
      (s.threads thread).memory s.alive = some ref) :
    let s' : PoolState τ χ := { s with
      created := created
      alive := alive
      queues := s.dropQueues ctx
      behind := s.dropBehind ctx }
    Sound s'.holds s'.pool.memory s'.fits := by
  intro s'
  apply h.sound.keep
  intro o ref ho
  cases o with
  | free iIndex => exact ⟨ho, rfl, fun _ hfits => hfits⟩
  | thread thread =>
    exact ⟨hthreads thread ref ho, rfl, fun _ hfits => hfits⟩
  | queued queue position =>
    obtain ⟨hold, hfits⟩ := s.queued_frame _ _ ho id fun packet hpacket => by
      by_cases hctx : queue.1 = ctx
      · simp only [s', s.dropQueues_of_eq hctx] at hpacket
        cases hpacket
      · simpa only [s', s.dropQueues_of_ne hctx] using hpacket
    exact ⟨hold, rfl, hfits⟩

omit [DecidableEq τ] in
/-- Threads on contexts that have not been created have nothing yet. -/
theorem Orderly.memory_create (h : s.Orderly) {ctx : χ}
    (hnew : s.created ctx = false) (thread : τ) :
    (s.threads thread).memory (Function.update s.alive ctx true) =
      (s.threads thread).memory s.alive := by
  have hne : ∀ queue, (s.threads thread).queue = some queue →
      queue.1 ≠ ctx := by
    rintro queue hqueue rfl
    exact Bool.false_ne_true (hnew.symm.trans (h.working thread queue hqueue))
  cases hpc : s.threads thread with
  | adding queue args pstMemory =>
    have hctx := hne queue (by rw [hpc]; rfl)
    simp only [PoolPc.memory, Function.update_of_ne hctx]
  | counting queue packet =>
    have hctx := hne queue (by rw [hpc]; rfl)
    simp only [PoolPc.memory, Function.update_of_ne hctx]
  | idle | releasing | givingBack => rfl

omit [DecidableEq τ] in
/-- Threads on a context that is deleted keep a block at most. -/
theorem memory_destroy {ctx : χ} {pc : PoolPc χ} {ref : MemoryRef}
    (hmemory : pc.memory (Function.update s.alive ctx false) = some ref) :
    pc.memory s.alive = some ref := by
  have hif : ∀ (queue : χ × QueueKind) (x : MemoryRef),
      (if Function.update s.alive ctx false queue.1 then some x else none) =
        some ref →
      (if s.alive queue.1 then some x else none) = some ref := by
    intro queue x h
    by_cases hctx : queue.1 = ctx
    · rw [hctx, Function.update_self] at h
      cases h
    · rwa [Function.update_of_ne hctx] at h
  cases pc with
  | adding queue args pstMemory => exact hif queue pstMemory hmemory
  | counting queue packet => exact hif queue packet.pstMemory hmemory
  | idle | releasing | givingBack => exact hmemory

omit [DecidableEq τ] in
/-- Which holder had the block before `CopyFrom`, when the first `kept` packets
of the destination are its own ones. -/
def origin (queue source : χ × QueueKind) (kept : Nat) :
    Holder τ χ → Holder τ χ
  | .queued queue' position =>
    if queue' = queue then
      if position < kept then .queued queue position
      else .queued source (position - kept)
    else .queued queue' position
  | o => o

omit [DecidableEq τ] in
/-- Different holders had different ones, the emptied source apart. -/
theorem origin_injOn {kept : Nat} {o o' : Holder τ χ}
    (ho : ∀ position, o ≠ .queued source position)
    (ho' : ∀ position, o' ≠ .queued source position)
    (h : origin queue source kept o = origin queue source kept o') :
    o = o' := by
  cases o <;> cases o' <;> grind [origin]

omit [DecidableEq τ] in
/-- The packets of the destination of a copy: its own, unless it has been
initialised or swapped, and those of the source. -/
theorem exists_kept_copied (s : PoolState τ χ) (hne : queue ≠ source)
    {before : PooledQueue} (hbefore : before = s.queues queue ∨ before = .init) :
    ∃ kept, (s.copied queue before source queue).vecPacketPool =
        kept ++ (s.queues source).vecPacketPool ∧
      (kept = (s.queues queue).vecPacketPool ∨ kept = []) := by
  obtain ⟨kept, hvec, hkept⟩ :=
    PooledQueue.copyFrom_fst_vec before (s.queues source)
  refine ⟨kept, ?_, ?_⟩
  · rw [s.copied_self before hne, hvec]
  · rcases hkept with rfl | ⟨rfl, -⟩
    · exact hbefore.imp (congrArg _) (congrArg _)
    · exact .inr rfl

omit [DecidableEq τ] in
/-- `CopyFrom` between two queues, the destination being as it was or just
initialised: where a packet of the destination comes from tells whose block it
has. -/
theorem Inv.sound_copied (h : s.Inv) (hne : queue ≠ source)
    (hqueue : s.Unused queue) (hsource : s.Unused source) {before : PooledQueue}
    (hbefore : before = s.queues queue ∨ before = .init) :
    let s' : PoolState τ χ := { s with
      queues := s.copied queue before source
      behind := behind }
    Sound s'.holds s'.pool.memory s'.fits := by
  intro s'
  obtain ⟨kept, hvec, hkept⟩ := s.exists_kept_copied hne hbefore
  have hempty : (s.copied queue before source source).vecPacketPool = [] := by
    rw [s.copied_source, PooledQueue.vecPacketPool_init]
  refine h.sound.reindex (origin queue source kept.length) ?_ ?_
  · intro o ref ho
    cases o with
    | free iIndex => exact ⟨ho, rfl, fun _ hfits => hfits⟩
    | thread thread => exact ⟨ho, rfl, fun _ hfits => hfits⟩
    | queued queue' position =>
      by_cases hq : queue' = queue
      · subst hq
        simp only [origin, if_true]
        split_ifs with hlt
        · obtain rfl : kept = (s.queues queue').vecPacketPool := by
            rcases hkept with hkept | rfl
            · exact hkept
            · cases hlt
          obtain ⟨hold, hfits⟩ := s.queued_frame _ _ ho id
            fun packet hpacket => by
              simpa only [s', hvec, List.getElem?_append_left hlt]
                using hpacket
          exact ⟨hold, rfl, hfits⟩
        · have hle : kept.length ≤ position := Nat.le_of_not_lt hlt
          obtain ⟨hold, hfits⟩ := s.queued_frame source
            (position - kept.length) ho (fun _ => hsource.not_passed _)
            fun packet hpacket => by
              simpa only [s', hvec, List.getElem?_append_right hle]
                using hpacket
          exact ⟨hold, rfl, hfits⟩
      · have hs : queue' ≠ source := by
          rintro rfl
          obtain ⟨packet, ⟨-, hpacket⟩, -⟩ := holds_queued_eq_some_iff.mp ho
          simp [s', hempty] at hpacket
        obtain ⟨hold, hfits⟩ := s.queued_frame _ _ ho id fun packet hpacket =>
          by simpa only [s', s.copied_of_ne before hq hs] using hpacket
        simp only [origin, if_neg hq]
        exact ⟨hold, rfl, hfits⟩
  · have hnotSource : ∀ o ref, s'.holds o = some ref →
        ∀ position, o ≠ .queued source position := by
      rintro _ ref ho position rfl
      obtain ⟨packet, ⟨-, hpacket⟩, -⟩ := holds_queued_eq_some_iff.mp ho
      simp [s', hempty] at hpacket
    intro o o' ref ho ho'
    exact origin_injOn (hnotSource o ref ho) (hnotSource o' ref ho')

omit [DecidableEq χ] in
/-- `AddPacket` takes a block from the pool. -/
theorem Inv.sound_getFree (h : s.Inv) {args : AddPacketArgs} {address : Nat}
    (hidle : s.threads thread = .idle)
    (hget : s.pool.getFreePacketMemory address = some (pstMemory, pool)) :
    let s' : PoolState τ χ := { s with
      pool := pool
      threads := Function.update s.threads thread
        (.adding queue args pstMemory) }
    Sound s'.holds s'.pool.memory s'.fits ∧
      s'.pool.packetIndexFreeQueue.Nodup := by
  intro s'
  have hthreads : s'.threads = Function.update s.threads thread
      (.adding queue args pstMemory) := rfl
  -- the thread is the only holder that gets something
  have hmine : ∀ ref, s'.holds (.thread thread) = some ref →
      ref = pstMemory := by
    intro ref ho
    rw [holds_thread_update hthreads, PoolPc.memory] at ho
    split_ifs at ho
    exact (Option.some.inj ho).symm
  have hfits : ∀ block : PacketMemory, block.Blank →
      block.iIndex = pstMemory.index →
        s'.fits (.thread thread) pstMemory block := by
    intro block hblank hindex
    exact fits_thread_update hthreads ⟨hblank, hindex⟩
  have hqueued : ∀ (queue : χ × QueueKind) position ref,
      s'.holds (.queued queue position) = some ref →
        s.holds (.queued queue position) = some ref ∧
          ∀ block, s.fits (.queued queue position) ref block →
            s'.fits (.queued queue position) ref block := by
    intro queue position ref ho
    refine s.queued_frame _ _ ho (not_passed_of_update ?_) fun _ => id
    rw [hidle]
    rintro ⟨⟩
  obtain ⟨hempty, rfl, hnone, rfl⟩ |
      ⟨iIndex, rest, block, hfirst, rfl, hblock, rfl⟩ :=
    PacketMemoryPool.getFreePacketMemory_cases hget
  · refine ⟨h.sound.fresh (b := .thread thread) hnone ?_ ?_
      fun ref hne => Function.update_of_ne hne .., h.nodup⟩
    · intro ref ho
      exact ⟨hmine ref ho, _, Function.update_self .., hfits _ rfl rfl⟩
    · intro o ref hne ho
      cases o with
      | free iIndex => exact ⟨ho, fun _ hfits => hfits⟩
      | queued queue position => exact hqueued queue position ref ho
      | thread thread' => exact s.other_thread_frame hthreads rfl hne ho
  · have hholds : s.holds (.free iIndex) = some (.slot iIndex) := by
      rw [holds_free_eq_some_iff, hfirst]
      exact ⟨List.mem_cons_self, rfl⟩
    have hblank : block.Blank := h.sound.fits_of_store hholds hblock
    have hnodup := h.nodup
    rw [hfirst] at hnodup
    refine ⟨h.sound.move (b := .thread thread) hholds ?_ ?_
      fun ref hne => Function.update_of_ne hne ..,
      (List.nodup_cons.mp hnodup).2⟩
    · intro ref ho
      refine ⟨hmine ref ho, _, Function.update_self .., hfits _ ?_ rfl⟩
      exact (PacketMemory.blank_setIndex _ _).mpr hblank
    · intro o ref hne ho
      cases o with
      | free iIndex' =>
        obtain ⟨hmem, rfl⟩ := holds_free_eq_some_iff.mp ho
        refine ⟨?_, ?_, fun _ hfits => hfits⟩
        · rintro ⟨⟩
          exact (List.nodup_cons.mp hnodup).1 hmem
        · rw [holds_free_eq_some_iff, hfirst]
          exact ⟨List.mem_cons_of_mem _ hmem, rfl⟩
      | queued queue position =>
        exact ⟨by simp, hqueued queue position ref ho⟩
      | thread thread' =>
        exact ⟨by simp, s.other_thread_frame hthreads rfl hne ho⟩

omit [DecidableEq χ] in
/-- `emplace_back` fills the block of its thread. -/
theorem Inv.sound_emplace (h : s.Inv) {args : AddPacketArgs} {now : UInt64}
    (hpc : s.threads thread = .adding queue args pstMemory)
    (halive : s.alive queue.1 = true)
    (hinit : s.pool.initMemory pstMemory args.iBufferSize args.pchBuffer =
      some pool) :
    let s' : PoolState τ χ := { s with
      pool := pool
      behind := behind
      threads := Function.update s.threads thread
        (.counting queue (args.packet now pstMemory)) }
    Sound s'.holds s'.pool.memory s'.fits ∧
      s'.pool.packetIndexFreeQueue.Nodup := by
  intro s'
  have hthreads : s'.threads = Function.update s.threads thread
      (.counting queue (args.packet now pstMemory)) := rfl
  obtain ⟨block, after, hblock, hafter, rfl⟩ :=
    PacketMemoryPool.initMemory_eq_some_iff.mp hinit
  have hholds : s.holds (.thread thread) = some pstMemory := by
    rw [holds_thread, hpc]
    exact if_pos halive
  obtain ⟨hblank, hindex⟩ : block.Blank ∧
      block.iIndex = pstMemory.index := by
    have hfits : (s.threads thread).fits pstMemory block :=
      h.sound.fits_of_store hholds hblock
    rw [hpc] at hfits
    exact hfits
  obtain ⟨-, hkept, hcontent⟩ := PacketMemory.init_spec hafter
  refine ⟨h.sound.move (b := .thread thread) hholds ?_ ?_
    fun ref hne => Function.update_of_ne hne .., h.nodup⟩
  · intro ref ho
    rw [holds_thread_update hthreads] at ho
    have hsame : some pstMemory = some ref := (if_pos halive).symm.trans ho
    refine ⟨(Option.some.inj hsame).symm, after, Function.update_self .., ?_⟩
    exact fits_thread_update hthreads ⟨hkept.trans hindex, hcontent hblank⟩
  · intro o ref hne ho
    cases o with
    | free iIndex => exact ⟨by simp, ho, fun _ hfits => hfits⟩
    | thread thread' => exact ⟨hne, s.other_thread_frame hthreads rfl hne ho⟩
    | queued queue' position =>
      refine ⟨by simp, s.queued_frame _ _ ho (not_passed_of_update ?_)
        fun _ => id⟩
      rw [hpc]
      rintro ⟨⟩

/-- The vector grows by the packet with the block of the thread. -/
theorem Inv.sound_count (h : s.Inv)
    (hpc : s.threads thread = .counting queue packet)
    (halive : s.alive queue.1 = true) :
    let s' : PoolState τ χ := { s with
      queues := Function.update s.queues queue ((s.queues queue).emplaceBack packet)
      behind := behind
      threads := Function.update s.threads thread .idle }
    Sound s'.holds s'.pool.memory s'.fits := by
  intro s'
  have hthreads : s'.threads = Function.update s.threads thread .idle := rfl
  have hholds : s.holds (.thread thread) = some packet.pstMemory := by
    rw [holds_thread, hpc]
    exact if_pos halive
  obtain ⟨block, hblock, hfits⟩ := h.content_of_thread hholds
  rw [hpc] at hfits
  have hself : s'.queues queue = (s.queues queue).emplaceBack packet :=
    Function.update_self ..
  have hlast : (s'.queues queue).vecPacketPool[
      (s.queues queue).vecPacketPool.length]? = some packet := by
    rw [hself]
    exact List.getElem?_concat_length
  refine h.sound.move (b := .queued queue (s.queues queue).vecPacketPool.length) hholds ?_ ?_
    fun _ _ => rfl
  · intro ref ho
    obtain ⟨packet', ⟨-, hpacket'⟩, rfl⟩ := holds_queued_eq_some_iff.mp ho
    obtain rfl := Option.some.inj (hlast.symm.trans hpacket')
    refine ⟨rfl, block, hblock, hfits.1, ?_⟩
    intro packet' hpacket'
    obtain rfl := Option.some.inj (hlast.symm.trans hpacket')
    exact hfits.2
  · intro o ref hne ho
    cases o with
    | free iIndex => exact ⟨by simp, ho, fun _ hfits => hfits⟩
    | thread thread' => exact s.thread_frame_of_update hthreads rfl rfl ho
    | queued queue' position =>
      refine ⟨by simp, s.queued_frame _ _ ho (not_passed_of_update ?_) fun packet' hpacket' => ?_⟩
      · rw [hpc]
        rintro ⟨⟩
      · rw [← hpacket']
        by_cases hqueue : queue' = queue
        · subst hqueue
          have hposition : position ≠ (s.queues queue').vecPacketPool.length := by
            rintro rfl
            exact hne rfl
          rw [hself]
          exact (getElem?_concat_of_ne hposition).symm
        · rw [show s'.queues queue' = s.queues queue' from
            Function.update_of_ne hqueue ..]

omit [DecidableEq χ] in
/-- `ReleaseAllPackets` starts. -/
theorem Inv.sound_releaseAll (h : s.Inv) (hidle : s.threads thread = .idle) :
    let s' : PoolState τ χ := { s with
      threads := Function.update s.threads thread (.releasing queue 0) }
    Sound s'.holds s'.pool.memory s'.fits := by
  intro s'
  have hthreads : s'.threads = Function.update s.threads thread
      (.releasing queue 0) := rfl
  apply h.sound.keep
  intro o ref ho
  cases o with
  | free iIndex => exact ⟨ho, rfl, fun _ hfits => hfits⟩
  | queued queue position =>
    obtain ⟨hold, hfits⟩ := s.queued_frame _ _ ho
      (not_passed_of_update (by rw [hidle]; rintro ⟨⟩)) fun _ => id
    exact ⟨hold, rfl, hfits⟩
  | thread thread' =>
    obtain ⟨-, hold, hfits⟩ := s.thread_frame_of_update hthreads rfl rfl ho
    exact ⟨hold, rfl, hfits⟩

omit [DecidableEq χ] in
/-- `ReleaseAllPackets` clears the block of its next packet. -/
theorem Inv.sound_release (h : s.Inv)
    (hpc : s.threads thread = .releasing queue position)
    (hpacket : (s.queues queue).vecPacketPool[position]? = some packet)
    (hrelease : s.pool.releaseMemory packet.pstMemory = some (iIndex, pool)) :
    let s' : PoolState τ χ := { s with
      pool := pool
      threads := Function.update s.threads thread
        (.givingBack queue position packet.pstMemory iIndex) }
    Sound s'.holds s'.pool.memory s'.fits ∧
      s'.pool.packetIndexFreeQueue.Nodup := by
  intro s'
  have hthreads : s'.threads = Function.update s.threads thread
      (.givingBack queue position packet.pstMemory iIndex) := rfl
  obtain ⟨block, hblock, rfl, rfl⟩ :=
    PacketMemoryPool.releaseMemory_eq_some_iff.mp hrelease
  have hholds : s.holds (.queued queue position) = some packet.pstMemory :=
    holds_queued ⟨h.orderly.not_passed_releasing hpc, hpacket⟩
  have hindex : block.iIndex = packet.pstMemory.index :=
    (h.sound.fits_of_store hholds hblock).1
  refine ⟨h.sound.move (b := .thread thread) hholds ?_ ?_
    fun ref hne => Function.update_of_ne hne .., h.nodup⟩
  · intro ref ho
    rw [holds_thread_update hthreads] at ho
    have hmine : some packet.pstMemory = some ref := ho
    refine ⟨(Option.some.inj hmine).symm, _, Function.update_self .., ?_⟩
    exact fits_thread_update hthreads
      ⟨PacketMemory.blank_release block, hindex⟩
  · intro o ref hne ho
    cases o with
    | free iIndex => exact ⟨by simp, ho, fun _ hfits => hfits⟩
    | thread thread' =>
      exact ⟨by simp, s.other_thread_frame hthreads rfl hne ho⟩
    | queued queue' position' =>
      refine ⟨?_, s.queued_frame _ _ ho (not_passed_of_update ?_) fun _ => id⟩
      · -- the loop has gone past the packet that is released
        rintro ⟨⟩
        obtain ⟨packet', ⟨hleft', -⟩, -⟩ := holds_queued_eq_some_iff.mp ho
        apply hleft' thread
        simp only [s', Function.update_self]
        exact ⟨rfl, le_rfl⟩
      · rw [hpc]
        rintro ⟨rfl, hlt⟩
        exact ⟨rfl, Nat.le_of_lt hlt⟩

omit [DecidableEq χ] in
/-- A thread back in the loop of `ReleaseAllPackets` has passed the same
packets. -/
theorem not_passed_of_giveBack
    (hpc : s.threads thread = .givingBack queue position pstMemory iIndex)
    {queue' : χ × QueueKind} {position' : Nat}
    (h : ∀ thread', ¬ (Function.update s.threads thread
      (.releasing queue (position + 1)) thread').Passed queue' position') :
    ∀ thread', ¬ (s.threads thread').Passed queue' position' := by
  refine not_passed_of_update ?_ h
  rw [hpc]
  rintro ⟨rfl, hle⟩
  exact ⟨rfl, Nat.lt_succ_of_le hle⟩

omit [DecidableEq χ] in
/-- `ReleasePacketMemory` deletes a block that came from `new`. -/
theorem Inv.sound_giveBack_heap (h : s.Inv) {address : Nat}
    (hpc : s.threads thread =
      .givingBack queue position (.heap address) iIndex) :
    let s' : PoolState τ χ := { s with
      pool := { s.pool with
        memory := Function.update s.pool.memory (.heap address) none }
      threads := Function.update s.threads thread
        (.releasing queue (position + 1)) }
    Sound s'.holds s'.pool.memory s'.fits := by
  intro s'
  have hthreads : s'.threads = Function.update s.threads thread
      (.releasing queue (position + 1)) := rfl
  have hholds : s.holds (.thread thread) = some (.heap address) := by
    rw [holds_thread, hpc]
    rfl
  apply h.sound.keep
  intro o ref ho
  have hkept : o ≠ .thread thread ∧ s.holds o = some ref ∧
      ∀ block, s.fits o ref block → s'.fits o ref block := by
    cases o with
    | free iIndex => exact ⟨by simp, ho, fun _ hfits => hfits⟩
    | queued queue position =>
      exact ⟨by simp, s.queued_frame _ _ ho (not_passed_of_giveBack hpc)
        fun _ => id⟩
    | thread thread' => exact s.thread_frame_of_update hthreads rfl rfl ho
  obtain ⟨hne, hold, hfits⟩ := hkept
  refine ⟨hold, Function.update_of_ne ?_ .., hfits⟩
  rintro rfl
  exact hne (h.sound.exclusive hold hholds)

omit [DecidableEq χ] in
/-- `ReleasePacketMemory` pushes the index of a slot. -/
theorem Inv.sound_giveBack_slot (h : s.Inv) {slot : Nat}
    (hpc : s.threads thread = .givingBack queue position (.slot slot) iIndex) :
    let s' : PoolState τ χ := { s with
      pool := { s.pool with
        packetIndexFreeQueue := s.pool.packetIndexFreeQueue ++ [slot] }
      threads := Function.update s.threads thread
        (.releasing queue (position + 1)) }
    Sound s'.holds s'.pool.memory s'.fits := by
  intro s'
  have hthreads : s'.threads = Function.update s.threads thread
      (.releasing queue (position + 1)) := rfl
  have hholds : s.holds (.thread thread) = some (.slot slot) := by
    rw [holds_thread, hpc]
    rfl
  obtain ⟨block, hblock, hfits⟩ := h.content_of_thread hholds
  rw [hpc] at hfits
  refine h.sound.move (b := .free slot) hholds ?_ ?_ fun _ _ => rfl
  · intro ref ho
    obtain ⟨-, rfl⟩ := holds_free_eq_some_iff.mp ho
    exact ⟨rfl, block, hblock, hfits.1⟩
  · intro o ref hne ho
    cases o with
    | free slot' =>
      obtain ⟨hmem, rfl⟩ := holds_free_eq_some_iff.mp ho
      refine ⟨by simp, ?_, fun _ hfits => hfits⟩
      rw [holds_free_eq_some_iff]
      rcases List.mem_append.mp hmem with hmem | hmem
      · exact ⟨hmem, rfl⟩
      · rw [List.mem_singleton] at hmem
        exact (hne (by rw [hmem])).elim
    | queued queue position =>
      exact ⟨by simp, s.queued_frame _ _ ho (not_passed_of_giveBack hpc)
        fun _ => id⟩
    | thread thread' => exact s.thread_frame_of_update hthreads rfl rfl ho

omit [DecidableEq χ] in
/-- `ReleasePacketMemory` deletes the block or makes its index free. -/
theorem Inv.sound_giveBack (h : s.Inv)
    (hpc : s.threads thread = .givingBack queue position pstMemory iIndex)
    (hgive : s.pool.giveBack pstMemory iIndex = some pool) :
    let s' : PoolState τ χ := { s with
      pool := pool
      threads := Function.update s.threads thread
        (.releasing queue (position + 1)) }
    Sound s'.holds s'.pool.memory s'.fits ∧
      s'.pool.packetIndexFreeQueue.Nodup := by
  obtain rfl := h.index_of_givingBack hpc
  obtain ⟨address, rfl, rfl⟩ | ⟨slot, rfl, rfl⟩ :=
    PacketMemoryPool.giveBack_cases hgive
  · exact ⟨h.sound_giveBack_heap hpc, h.nodup⟩
  · refine ⟨h.sound_giveBack_slot hpc, ?_⟩
    show (s.pool.packetIndexFreeQueue ++ [slot]).Nodup
    rw [← List.concat_eq_append]
    apply h.nodup.concat
    -- the free queue would be a second holder
    intro hmem
    have hholds : s.holds (.thread thread) = some (.slot slot) := by
      rw [holds_thread, hpc]
      rfl
    have heq := h.sound.exclusive
      (holds_free_eq_some_iff.mpr ⟨hmem, rfl⟩) hholds
    cases heq

/-- `ReleaseAllPackets` ends. -/
theorem Inv.sound_clear (h : s.Inv)
    (hpc : s.threads thread = .releasing queue position) :
    let s' : PoolState τ χ := { s with
      queues := Function.update s.queues queue (s.queues queue).clear
      behind := behind
      threads := Function.update s.threads thread .idle }
    Sound s'.holds s'.pool.memory s'.fits := by
  intro s'
  have hthreads : s'.threads = Function.update s.threads thread .idle := rfl
  apply h.sound.keep
  intro o ref ho
  cases o with
  | free iIndex => exact ⟨ho, rfl, fun _ hfits => hfits⟩
  | queued queue' position' =>
    have hqueue : queue' ≠ queue := by
      rintro rfl
      obtain ⟨packet, ⟨-, hpacket⟩, -⟩ := holds_queued_eq_some_iff.mp ho
      simp only [s', Function.update_self, PooledQueue.clear] at hpacket
      cases hpacket
    obtain ⟨hold, hfits⟩ := s.queued_frame queue' position' ho (not_passed_of_update (by
        rw [hpc]
        rintro ⟨rfl, -⟩
        exact (hqueue rfl).elim))
      (by simp only [s', Function.update_of_ne hqueue]; exact fun _ => id)
    exact ⟨hold, rfl, hfits⟩
  | thread thread' =>
    obtain ⟨-, hold, hfits⟩ := s.thread_frame_of_update hthreads rfl rfl ho
    exact ⟨hold, rfl, hfits⟩

omit [DecidableEq τ] [DecidableEq χ] in
/-- The packet that the vector gets is the one that was constructed. -/
theorem Orderly.placed_eq (h : s.Orderly) {placed : PooledPacket}
    {rest : List PooledPacket} (hpc : s.threads thread = .counting queue placed)
    (halive : s.alive queue.1 = true)
    (hbehind : s.behind queue = packet :: rest) : packet = placed := by
  have hhead := (h.placed thread queue placed hpc halive).1
  rw [hbehind] at hhead
  exact Option.some.inj hhead

/-- Every step that locks its queues keeps the invariant. -/
theorem inv_step (s : PoolState τ χ) (a : PoolAction τ χ)
    (s' : PoolState τ χ) (h : s.Inv) (hlocks : s.LocksQueues a)
    (hstep : s.step a = some s') : s'.Inv := by
  have horderly := orderly_step s a s' h.orderly hlocks hstep
  cases transition_of_step hstep with
  | create hnew =>
    refine ⟨h.sound_drop fun thread ref hmemory => ?_, h.nodup, horderly⟩
    rwa [h.orderly.memory_create hnew] at hmemory
  | destroy halive =>
    exact ⟨h.sound_drop fun _ _ => memory_destroy, h.nodup, horderly⟩
  | getFree hidle halive hget =>
    obtain ⟨hsound, hnodup⟩ := h.sound_getFree hidle hget
    exact ⟨hsound, hnodup, horderly⟩
  | emplace hpc halive hinit =>
    obtain ⟨hsound, hnodup⟩ := h.sound_emplace hpc halive hinit
    exact ⟨hsound, hnodup, horderly⟩
  | count hpc halive hbehind =>
    cases h.orderly.placed_eq hpc halive hbehind
    exact ⟨h.sound_count hpc halive, h.nodup, horderly⟩
  | copyFrom hidle hne hqueue hsource =>
    exact ⟨h.sound_copied hne hlocks.1 hlocks.2 (.inl rfl), h.nodup, horderly⟩
  | initCopyFrom hidle hne hqueue hsource =>
    exact ⟨h.sound_copied hne hlocks.1 hlocks.2 (.inr rfl), h.nodup, horderly⟩
  | releaseAll hidle halive =>
    exact ⟨h.sound_releaseAll hidle, h.nodup, horderly⟩
  | release hpc halive hpacket hrelease =>
    obtain ⟨hsound, hnodup⟩ := h.sound_release hpc hpacket hrelease
    exact ⟨hsound, hnodup, horderly⟩
  | giveBack hpc hgive =>
    obtain ⟨hsound, hnodup⟩ := h.sound_giveBack hpc hgive
    exact ⟨hsound, hnodup, horderly⟩
  | clear hpc halive hend => exact ⟨h.sound_clear hpc, h.nodup, horderly⟩

/-! ## What follows for every run -/

/-- A thread in the middle of a call finds the memory it reaches for, unless
its context has been deleted. -/
theorem Inv.exists_step (h : s.Inv) (thread : τ) :
    (∀ queue args pstMemory now,
      s.threads thread = .adding queue args pstMemory →
      s.alive queue.1 = true →
      args.iBufferSize ≤ networkPacketBufferMaxSize →
      args.iBufferSize ≤ args.pchBuffer.length → ∃ s', s.step (.emplace thread now) = some s') ∧
      (∀ queue packet, s.threads thread = .counting queue packet →
        s.alive queue.1 = true → ∃ s', s.step (.count thread) = some s') ∧
      (∀ queue position, s.threads thread = .releasing queue position → s.alive queue.1 = true →
          (∃ s', s.step (.release thread) = some s') ∨ ∃ s', s.step (.clear thread) = some s') ∧
      ∀ queue position pstMemory iIndex,
        s.threads thread = .givingBack queue position pstMemory iIndex →
          ∃ s', s.step (.giveBack thread) = some s' := by
  refine ⟨?_, ?_, ?_, ?_⟩
  · intro queue args pstMemory now hpc halive hmax hread
    obtain ⟨block, hblock, -⟩ := h.content_of_thread (by rw [hpc]; exact if_pos halive)
    obtain ⟨after, hafter⟩ := block.exists_init hmax hread
    simp only [step, hpc, halive, PacketMemoryPool.initMemory, hblock,
      Option.bind_some, hafter, Option.map_some]
    exact ⟨_, rfl⟩
  · intro queue packet hpc halive
    have hhead := (h.orderly.placed thread queue packet hpc halive).1
    simp only [step, hpc, halive]
    cases hbehind : s.behind queue with
    | nil =>
      rw [hbehind] at hhead
      cases hhead
    | cons packet rest => exact ⟨_, rfl⟩
  · intro queue position hpc halive
    cases hpacket : (s.queues queue).vecPacketPool[position]? with
    | none =>
      right
      -- the loop has come to the end of the vector, and not behind it
      have hend : (s.queues queue).vecPacketPool.length = position := by
        refine le_antisymm (List.getElem?_eq_none_iff.mp hpacket) ?_
        by_contra hlt
        have hwithin := h.orderly.within thread queue (s.queues queue).vecPacketPool.length
          (by rw [hpc]; exact ⟨rfl, Nat.lt_of_not_le hlt⟩) halive
        exact lt_irrefl _ hwithin
      simp only [step, hpc, halive, hend, true_and]
      exact ⟨_, rfl⟩
    | some packet =>
      obtain ⟨block, hblock, -⟩ := h.sound.content _ _
        (holds_queued ⟨h.orderly.not_passed_releasing hpc, hpacket⟩)
      simp only [step, hpc, halive, hpacket, PacketMemoryPool.releaseMemory,
        hblock, Option.map_some]
      exact .inl ⟨_, rfl⟩
  · intro queue position pstMemory iIndex hpc
    simp only [step, hpc, h.index_of_givingBack hpc, PacketMemoryPool.giveBack]
    cases pstMemory with
    | slot slot =>
      rw [if_neg (by simp only [MemoryRef.index]; omega)]
      exact ⟨_, rfl⟩
    | heap address =>
      rw [if_pos (by simp only [MemoryRef.index]; omega)]
      exact ⟨_, rfl⟩

/-- **Packets never share or corrupt each other's storage, if the queues are
locked.**  In every state of every run in which no operation starts on a queue
that another one works on, and contexts are deleted at any moment: no index is
free twice; the block of a queued packet is not in the free queue, has not been
deleted and shows, through `GetBuffer()`, the bytes the packet was added with;
two queued packets have different blocks; and no thread is stopped in a call by
memory that is not there, unless its context is gone. -/
theorem queued_packets_own_memory (actions : List (PoolAction τ χ))
    (s : PoolState τ χ) (hlocks : RunMeets step LocksQueues fresh actions)
    (hrun : runSteps step fresh actions = some s) :
    s.pool.packetIndexFreeQueue.Nodup ∧ (∀ queue position packet, s.Queued queue position packet →
        (∀ iIndex ∈ s.pool.packetIndexFreeQueue, packet.pstMemory ≠ .slot iIndex) ∧
        ∃ block, s.pool.memory packet.pstMemory = some block ∧
          block.getBuffer.take packet.iBufferSize = packet.added) ∧
      (∀ queue position packet queue' position' packet',
        s.Queued queue position packet → s.Queued queue' position' packet' →
        packet.pstMemory = packet'.pstMemory → queue = queue' ∧ position = position') ∧
      ∀ thread, (∀ queue args pstMemory now, s.threads thread = .adding queue args pstMemory →
          s.alive queue.1 = true →
          args.iBufferSize ≤ networkPacketBufferMaxSize →
          args.iBufferSize ≤ args.pchBuffer.length → ∃ s', s.step (.emplace thread now) = some s') ∧
        (∀ queue packet, s.threads thread = .counting queue packet →
          s.alive queue.1 = true → ∃ s', s.step (.count thread) = some s') ∧
        (∀ queue position, s.threads thread = .releasing queue position → s.alive queue.1 = true →
            (∃ s', s.step (.release thread) = some s') ∨ ∃ s', s.step (.clear thread) = some s') ∧
        ∀ queue position pstMemory iIndex,
          s.threads thread = .givingBack queue position pstMemory iIndex →
            ∃ s', s.step (.giveBack thread) = some s' := by
  have hinv : s.Inv :=
    runSteps_invariant_of_meets inv_step inv_fresh hlocks hrun
  refine ⟨hinv.nodup, ?_, ?_, hinv.exists_step⟩
  · intro queue position packet hqueued
    have hholds := holds_queued hqueued
    constructor
    · intro iIndex hmem heq
      rw [heq] at hholds
      have hsame := hinv.sound.exclusive (holds_free_eq_some_iff.mpr ⟨hmem, rfl⟩) hholds
      cases hsame
    · obtain ⟨block, hblock, -, hcontent⟩ := hinv.sound.content _ _ hholds
      exact ⟨block, hblock, hcontent packet hqueued.2⟩
  · intro queue position packet queue' position' packet' hqueued hqueued' heq
    have hholds := holds_queued hqueued
    rw [heq] at hholds
    cases hinv.sound.exclusive hholds (holds_queued hqueued')
    exact ⟨rfl, rfl⟩

/-- A long packet is added, copied and released, and a short one gets the next
block before the first one has been given back. -/
def reuseRun : List (PoolAction Bool Nat) :=
  [.create 0,
    .getFree false (0, .recvPrepareQueue)
      ⟨7, 3, 1, 300, List.replicate 300 5⟩ 0,
    .emplace false 100, .count false,
    .copyFrom false (0, .recvQueue) (0, .recvPrepareQueue),
    .releaseAll true (0, .recvQueue),
    .release true,
    .getFree false (0, .recvPrepareQueue) ⟨7, 3, 1, 2, [8, 9]⟩ 0,
    .giveBack true,
    .emplace false 101, .count false]

theorem queued_packets_own_memory_reuse :
    ∃ s : PoolState Bool Nat, runSteps step fresh reuseRun = some s ∧
      RunMeets step LocksQueues fresh reuseRun ∧
      s.Queued (0, .recvPrepareQueue) 0 ⟨7, 3, 1, 2, 101, .slot 1, [8, 9]⟩ ∧
      ∃ block, s.pool.memory (.slot 1) = some block ∧ block.getBuffer.take 2 = [8, 9] := by
  have hlocks : RunMeets step LocksQueues (fresh : PoolState Bool Nat)
      reuseRun := by
    decide +kernel
  have hview : ((runSteps step fresh reuseRun).map fun s =>
      (decide (s.Unused (0, .recvPrepareQueue)),
        (s.queues (0, .recvPrepareQueue)).vecPacketPool[0]?)) =
      some (true, some ⟨7, 3, 1, 2, 101, .slot 1, [8, 9]⟩) := by
    decide +kernel
  obtain ⟨s, hrun, hpair⟩ := Option.map_eq_some_iff.mp hview
  rw [Prod.mk.injEq] at hpair
  have hqueued : s.Queued (0, .recvPrepareQueue) 0 ⟨7, 3, 1, 2, 101, .slot 1, [8, 9]⟩ :=
    ⟨(of_decide_eq_true hpair.1).not_passed 0, hpair.2⟩
  obtain ⟨-, hmemory, -⟩ := queued_packets_own_memory _ s hlocks hrun
  exact ⟨s, hrun, hlocks, hqueued, (hmemory _ _ _ hqueued).2⟩

/-! ## A queue that is not locked -/

/-- The logic thread (`false`) has a packet in the send queue of a connector and
has answered another one.  The thread of the connector (`true`) is in
`HeartBeat` and has constructed its packet behind the answer, when the logic
thread calls `PacketSendPrepare`. -/
def heartBeatRun : List (PoolAction Bool Nat) :=
  [.create 0,
    .getFree false (0, .sendPrepareQueue) ⟨7, 3, 1, 1, [4]⟩ 0,
    .emplace false 100, .count false,
    .copyFrom false (0, .sendQueue) (0, .sendPrepareQueue),
    .getFree false (0, .sendPrepareQueue) ⟨7, 3, 1, 1, [5]⟩ 0,
    .emplace false 101, .count false,
    .getFree true (0, .sendPrepareQueue) ⟨7, 3, 2, 1, [6]⟩ 0,
    .emplace true 102,
    .copyFrom false (0, .sendQueue) (0, .sendPrepareQueue),
    .count true]

/-- `HeartBeat` calls `PacketSendPrepare` too, and the packets are sent. -/
def sendTwiceRun : List (PoolAction Bool Nat) :=
  [.copyFrom true (0, .sendQueue) (0, .sendPrepareQueue),
    .copyFrom true (0, .sendCache) (0, .sendQueue),
    .releaseAll true (0, .sendCache), .release true, .giveBack true,
    .release true, .giveBack true, .release true, .giveBack true, .clear true]

/-- **Two packets with one block.**  The vector was cleared before it gets longer
by one, so that it gets its first cell back, with the answer, and not the packet
of the heartbeat.  The answer is in two queues, and when it has been sent from
both, an index is free twice. -/
theorem memory_shared_by_heartBeat :
    ∃ s t : PoolState Bool Nat, runSteps step fresh heartBeatRun = some s ∧
      s.Queued (0, .sendQueue) 1 ⟨7, 3, 1, 1, 101, .slot 1, [5]⟩ ∧
      s.Queued (0, .sendPrepareQueue) 0 ⟨7, 3, 1, 1, 101, .slot 1, [5]⟩ ∧
      runSteps step s sendTwiceRun = some t ∧
      ¬ t.pool.packetIndexFreeQueue.Nodup := by
  have hview : ((runSteps step fresh heartBeatRun).map fun s =>
      ((decide (s.Unused (0, .sendQueue)), (s.queues (0, .sendQueue)).vecPacketPool[1]?),
        (decide (s.Unused (0, .sendPrepareQueue)),
          (s.queues (0, .sendPrepareQueue)).vecPacketPool[0]?),
        (runSteps step s sendTwiceRun).map fun t =>
          t.pool.packetIndexFreeQueue.drop 4093)) =
      some ((true, some ⟨7, 3, 1, 1, 101, .slot 1, [5]⟩),
        (true, some ⟨7, 3, 1, 1, 101, .slot 1, [5]⟩), some [0, 1, 0]) := by
    decide +kernel
  obtain ⟨s, hrun, htriple⟩ := Option.map_eq_some_iff.mp hview
  simp only [Prod.mk.injEq] at htriple
  obtain ⟨⟨hsend, hlast⟩, ⟨hprepare, hfirst⟩, hfree⟩ := htriple
  obtain ⟨t, hsent, hdrop⟩ := Option.map_eq_some_iff.mp hfree
  refine ⟨s, t, hrun, ⟨(of_decide_eq_true hsend).not_passed 1, hlast⟩,
    ⟨(of_decide_eq_true hprepare).not_passed 0, hfirst⟩, hsent, ?_⟩
  intro hnodup
  have htwice := hnodup.sublist (List.drop_sublist 4093 _)
  rw [hdrop] at htwice
  exact absurd htwice (by decide)

end Preservation

end PoolState

end Network
end GameServer
