import GameServer.Timer.GameTimer

/-!
# Timers that are cancelled

`RemoveTimer` and an `AddTimer` with the same key delete the context of a
timer.  That stops a timer in the wheel and in a detached list, because
`TimerTimeout` looks its handle up.  A timer that has timed out is beyond
reach: `TimerTimeout` has put a copy of its context into a queue, and
`_ProcessTimerCallback` of the logic thread executes what it finds there.

The state below adds that queue and the position of the logic thread to
`GameTimer`.  A callback can itself add and remove timers, so any call may come
between two callbacks of one round.  `neverRuns_iff` says which calls cancel:
those made while no timer of the key waits to be executed.
-/

namespace GameServer
namespace Gametimer

open Lib

/-! ## The maps and the heap -/

namespace GameTimer

variable {κ ρ : Type*} {s s' : GameTimer κ ρ} {address address' : Address}
  {ctx : TimerContext κ ρ} {handle : UInt32} {key : TimerKey}

/-- The maps lead to the contexts on the heap and to nothing else. -/
structure Linked (s : GameTimer κ ρ) : Prop where
  registered : ∀ handle address, s.contextMap handle = some address →
    ∃ ctx, s.heap address = some ctx ∧ ctx.dwHandle = handle
  live : ∀ address ctx, s.heap address = some ctx →
    s.contextMap ctx.dwHandle = some address
  keys : ∀ key handle, s.timerKeyMap key = some handle ↔
    ∃ address ctx, s.heap address = some ctx ∧ ctx.dwHandle = handle ∧
      ctx.timerKey = key

theorem linked_construct : (construct : GameTimer κ ρ).Linked where
  registered := by
    intro handle address h
    cases h
  live := by
    intro address ctx h
    cases h
  keys := by
    intro key handle
    constructor
    · intro h
      cases h
    · rintro ⟨address, ctx, h, -⟩
      cases h

/-- A live context is known by its handle. -/
theorem Linked.eq_of_handle (h : s.Linked) {ctx' : TimerContext κ ρ}
    (hctx : s.heap address = some ctx) (hctx' : s.heap address' = some ctx')
    (hhandle : ctx.dwHandle = ctx'.dwHandle) : address = address' ∧ ctx = ctx' := by
  have hmap := h.live address ctx hctx
  rw [hhandle, h.live address' ctx' hctx'] at hmap
  cases hmap
  rw [hctx'] at hctx
  cases hctx
  exact ⟨rfl, rfl⟩

/-- A live context is known by its key. -/
theorem Linked.handle_eq_of_key (h : s.Linked) {ctx' : TimerContext κ ρ}
    (hctx : s.heap address = some ctx) (hctx' : s.heap address' = some ctx')
    (hkey : ctx.timerKey = ctx'.timerKey) : ctx.dwHandle = ctx'.dwHandle := by
  have h₁ := (h.keys ctx'.timerKey ctx.dwHandle).mpr ⟨address, ctx, hctx, rfl, hkey⟩
  have h₂ := (h.keys ctx'.timerKey ctx'.dwHandle).mpr ⟨address', ctx', hctx', rfl, rfl⟩
  exact Option.some.inj (h₁.symm.trans h₂)

/-- What lies on the heap after a context has been deleted. -/
theorem Linked.heap_dropHandle (h : s.Linked) (hctx : s.heap address = some ctx)
    (address' : Address) (ctx' : TimerContext κ ρ) :
    (s.dropHandle ctx.dwHandle address ctx.timerKey).heap address' = some ctx' ↔
      s.heap address' = some ctx' ∧ ctx'.dwHandle ≠ ctx.dwHandle := by
  show Function.update s.heap address none address' = some ctx' ↔ _
  rw [update_none_eq_some_iff]
  constructor
  · rintro ⟨hne, hctx'⟩
    exact ⟨hctx', fun hsame => hne (h.eq_of_handle hctx' hctx hsame).1⟩
  · rintro ⟨hctx', hne⟩
    refine ⟨?_, hctx'⟩
    rintro rfl
    rw [hctx] at hctx'
    cases hctx'
    exact hne rfl

theorem Linked.dropHandle (h : s.Linked) (hctx : s.heap address = some ctx) :
    (s.dropHandle ctx.dwHandle address ctx.timerKey).Linked := by
  have hheap := h.heap_dropHandle hctx
  refine ⟨?_, ?_, ?_⟩
  · intro handle' address' hmap'
    obtain ⟨hne, hmap'⟩ := update_none_eq_some_iff.mp hmap'
    obtain ⟨ctx', hctx', rfl⟩ := h.registered handle' address' hmap'
    exact ⟨ctx', (hheap address' ctx').mpr ⟨hctx', hne⟩, rfl⟩
  · intro address' ctx' hctx'
    obtain ⟨hctx', hne⟩ := (hheap address' ctx').mp hctx'
    exact update_none_eq_some_iff.mpr ⟨hne, h.live address' ctx' hctx'⟩
  · intro key handle'
    show Function.update s.timerKeyMap ctx.timerKey none key = some handle' ↔ _
    simp only [hheap]
    rw [update_none_eq_some_iff, h.keys]
    constructor
    · rintro ⟨hne, address', ctx', hctx', hhandle', hkey'⟩
      refine ⟨address', ctx', ⟨hctx', fun hsame => hne ?_⟩, hhandle', hkey'⟩
      rw [← hkey', (h.eq_of_handle hctx' hctx hsame).2]
    · -- the deleted context was the only one with its key
      rintro ⟨address', ctx', ⟨hctx', hne⟩, hhandle', rfl⟩
      exact ⟨fun hkey => hne (h.handle_eq_of_key hctx' hctx hkey), address',
        ctx', hctx', hhandle', rfl⟩

/-- `_RemoveTimerHandle` deletes the context of the handle. -/
theorem Linked.removeTimerHandle (h : s.Linked) (hremove : s.removeTimerHandle handle = some s') :
    s'.Linked ∧ ∀ address ctx, s'.heap address = some ctx ↔
      s.heap address = some ctx ∧ ctx.dwHandle ≠ handle := by
  obtain ⟨hmap, rfl⟩ | ⟨address, ctx, hmap, hctx, rfl⟩ :=
    removeTimerHandle_cases hremove
  · refine ⟨h, fun address ctx => ⟨fun hctx => ⟨hctx, ?_⟩, And.left⟩⟩
    rintro rfl
    rw [h.live address ctx hctx] at hmap
    cases hmap
  · obtain ⟨ctx', hctx', rfl⟩ := h.registered handle address hmap
    rw [hctx] at hctx'
    cases hctx'
    exact ⟨h.dropHandle hctx, h.heap_dropHandle hctx⟩

/-- Removing the timer of a key deletes the context with that key. -/
theorem Linked.removeKey (h : s.Linked) (hremove : s.removeKey key = some s') :
    s'.Linked ∧ ∀ address ctx, s'.heap address = some ctx ↔
      s.heap address = some ctx ∧ ctx.timerKey ≠ key := by
  unfold GameTimer.removeKey at hremove
  split at hremove
  · next handle hkey =>
    obtain ⟨address₀, ctx₀, hctx₀, rfl, rfl⟩ := (h.keys key handle).mp hkey
    obtain ⟨hlinked, hheap⟩ := h.removeTimerHandle hremove
    refine ⟨hlinked, fun address ctx => ?_⟩
    rw [hheap]
    refine and_congr_right fun hctx => not_congr ⟨fun hsame => ?_, ?_⟩
    · rw [(h.eq_of_handle hctx hctx₀ hsame).2]
    · exact h.handle_eq_of_key hctx hctx₀
  · next hkey =>
    cases hremove
    refine ⟨h, fun address ctx => ⟨fun hctx => ⟨hctx, ?_⟩, And.left⟩⟩
    rintro rfl
    rw [(h.keys ctx.timerKey ctx.dwHandle).mpr ⟨address, ctx, hctx, rfl, rfl⟩] at hkey
    cases hkey

/-- A new context under a free address, handle and key. -/
theorem Linked.insert (h : s.Linked) (hhandle : s.contextMap ctx.dwHandle = none)
    (haddress : s.heap address = none)
    (hkey : s.timerKeyMap ctx.timerKey = none) (dwCounter : UInt32) :
    { s with
      dwCounter := dwCounter
      heap := Function.update s.heap address (some ctx)
      contextMap := mapInsert s.contextMap ctx.dwHandle address
      timerKeyMap := mapInsert s.timerKeyMap ctx.timerKey ctx.dwHandle }.Linked
    := by
  rw [mapInsert_of_none hhandle, mapInsert_of_none hkey]
  -- an old context lies at another address and has another handle
  have hold : ∀ {address' : Address} {ctx' : TimerContext κ ρ}, s.heap address' = some ctx' →
        address' ≠ address ∧ ctx'.dwHandle ≠ ctx.dwHandle := by
    intro address' ctx' hctx'
    constructor
    · rintro rfl
      rw [haddress] at hctx'
      cases hctx'
    · intro hsame
      have hmap := h.live address' ctx' hctx'
      rw [hsame, hhandle] at hmap
      cases hmap
  refine ⟨?_, ?_, ?_⟩
  · intro handle' address' hmap'
    obtain ⟨rfl, rfl⟩ | ⟨-, hmap'⟩ := update_some_eq_some_iff.mp hmap'
    · exact ⟨ctx, Function.update_self _ _ _, rfl⟩
    · obtain ⟨ctx', hctx', rfl⟩ := h.registered handle' address' hmap'
      exact ⟨ctx', update_some_eq_some_iff.mpr (.inr ⟨(hold hctx').1, hctx'⟩), rfl⟩
  · intro address' ctx' hctx'
    obtain ⟨rfl, rfl⟩ | ⟨-, hctx'⟩ := update_some_eq_some_iff.mp hctx'
    · exact Function.update_self _ _ _
    · exact update_some_eq_some_iff.mpr (.inr ⟨(hold hctx').2, h.live address' ctx' hctx'⟩)
  · intro key handle'
    show Function.update s.timerKeyMap ctx.timerKey (some ctx.dwHandle) key =
        some handle' ↔ ∃ address' ctx', Function.update s.heap address
          (some ctx) address' = some ctx' ∧ _
    simp only [update_some_eq_some_iff]
    constructor
    · rintro (⟨rfl, rfl⟩ | ⟨-, hold'⟩)
      · exact ⟨address, ctx, .inl ⟨rfl, rfl⟩, rfl, rfl⟩
      · obtain ⟨address', ctx', hctx', hrest⟩ := (h.keys key handle').mp hold'
        exact ⟨address', ctx', .inr ⟨(hold hctx').1, hctx'⟩, hrest⟩
    · rintro ⟨address', ctx', ⟨rfl, rfl⟩ | ⟨-, hctx'⟩, hhandle', rfl⟩
      · exact .inl ⟨rfl, hhandle'⟩
      · have hmap := (h.keys ctx'.timerKey handle').mpr ⟨address', ctx', hctx', hhandle', rfl⟩
        refine .inr ⟨fun hsame => ?_, hmap⟩
        rw [hsame, hkey] at hmap
        cases hmap

/-- After the timer of a key has been removed the key is free. -/
theorem Linked.timerKeyMap_removeKey (h : s.Linked)
    (hremove : s.removeKey key = some s') : s'.timerKeyMap key = none := by
  obtain ⟨hlinked, hheap⟩ := h.removeKey hremove
  cases hkey : s'.timerKeyMap key with
  | none => rfl
  | some handle =>
    obtain ⟨address, ctx, hctx, -, hsame⟩ := (hlinked.keys key handle).mp hkey
    exact (((hheap address ctx).mp hctx).2 hsame).elim

theorem Linked.registerTimer (h : s.Linked) {callback : κ} {queue : ρ}
    (hnul : (0 : UInt8) ∉ key) (hlength : key.length ≤ gametimerMaxTimerKeyLen)
    (hregister : s.registerTimer key callback queue address = some (s', handle)) :
    s'.Linked := by
  obtain ⟨s₁, hremove, hhandle, haddress, rfl⟩ := registerTimer_cases hregister
  let ctx : TimerContext κ ρ :=
    ⟨handle, strncpy gametimerMaxTimerKeyLenExtra key, callback, queue⟩
  have hkey : ctx.timerKey = key := by
    apply cString_strncpy hnul
    rw [gametimerMaxTimerKeyLen] at hlength
    rw [gametimerMaxTimerKeyLenExtra]
    omega
  have hfree : s₁.timerKeyMap ctx.timerKey = none := by
    rw [hkey]
    exact h.timerKeyMap_removeKey hremove
  have hnew : s₁.contextMap ctx.dwHandle = none :=
    generateHandleLoop_free hhandle
  have hlinked := (h.removeKey hremove).1.insert hnew haddress hfree handle
  rwa [hkey] at hlinked

/-- After a timer has been registered, a live context with its key is the new
one. -/
theorem Linked.callback_of_registerTimer (h : s.Linked) {callback : κ}
    {queue : ρ} (hregister : s.registerTimer key callback queue address = some (s', handle))
    (hctx : s'.heap address' = some ctx) (hkey : ctx.timerKey = key) :
    ctx.stCallback = callback := by
  obtain ⟨s₁, hremove, -, -, rfl⟩ := registerTimer_cases hregister
  obtain ⟨-, rfl⟩ | ⟨-, hctx⟩ := update_some_eq_some_iff.mp hctx
  · rfl
  · exact ((((h.removeKey hremove).2 address' ctx).mp hctx).2 hkey).elim

/-! ## What can come onto the heap -/

theorem heap_of_removeTimerHandle (h : s.removeTimerHandle handle = some s')
    (hctx : s'.heap address = some ctx) : s.heap address = some ctx := by
  obtain ⟨-, rfl⟩ | ⟨_, _, -, -, rfl⟩ := removeTimerHandle_cases h
  · exact hctx
  · exact (update_none_eq_some_iff.mp hctx).2

theorem heap_of_removeKey (h : s.removeKey key = some s')
    (hctx : s'.heap address = some ctx) : s.heap address = some ctx := by
  unfold GameTimer.removeKey at h
  split at h
  · exact heap_of_removeTimerHandle h hctx
  · cases h
    exact hctx

theorem heap_of_registerTimer {callback : κ} {queue : ρ}
    (h : s.registerTimer key callback queue address = some (s', handle))
    (hctx : s'.heap address' = some ctx) :
    s.heap address' = some ctx ∨ ctx.stCallback = callback := by
  obtain ⟨s₁, hremove, -, -, rfl⟩ := registerTimer_cases h
  obtain ⟨-, rfl⟩ | ⟨-, hctx⟩ := update_some_eq_some_iff.mp hctx
  · exact .inr rfl
  · exact .inl (heap_of_removeKey hremove hctx)

/-- What the dispatching of a node does to everything but the wheel. -/
theorem timeout_cases (h : s.step .timeout = some s') :
    ∃ shifted node rest s₁ wheel,
      s.wheel.pc = .dispatching shifted (node :: rest) ∧
        s.timerTimeout node.event = some s₁ ∧ s' = { s₁ with wheel := wheel }
    := by
  simp only [step] at h
  split at h
  · next shifted node rest hpc =>
    obtain ⟨s₁, htimeout, h⟩ := Option.bind_eq_some_iff.mp h
    obtain ⟨wheel, -, rfl⟩ := Option.map_eq_some_iff.mp h
    exact ⟨shifted, node, rest, s₁, wheel, hpc, htimeout, rfl⟩
  · cases h

theorem heap_of_mem_timedOut {event : TimerEvent} (h : ctx ∈ s.timedOut event) :
    ∃ address, s.heap address = some ctx := by
  unfold timedOut at h
  split at h
  · exact ⟨event.ctx, Option.mem_toList.mp h⟩
  · cases h

end GameTimer

/-! ## The logic thread -/

/-- The number of the call of `AddTimer` that registered a callback. -/
def TimerContext.serial {κ ρ : Type*} (ctx : TimerContext (Nat × κ) ρ) : Nat :=
  ctx.stCallback.1

/-- Where the logic thread stands: `executing` is inside the loop of
`_ProcessTimerCallback`, with the contexts left in `m_stTimerExecuteQueue`. -/
inductive LogicPc (κ ρ : Type*) where
  | idle
  | executing (rest : List (TimerContext κ ρ))

/-- The timer with its queues and the logic thread.  The calls of `AddTimer`
are numbered, and a callback carries the number of its call.  `executed` is the
history of `_ProcessTimerCallback`. -/
structure LogicTimers (κ ρ : Type*) where
  game : GameTimer (Nat × κ) ρ
  calls : Nat
  queues : ρ → List (TimerContext (Nat × κ) ρ)
  logic : LogicPc (Nat × κ) ρ
  executed : List (TimerContext (Nat × κ) ρ)

namespace LogicTimers

/-- The actions of the timer thread and of the logic thread. -/
inductive Action (κ ρ : Type*) where
  | addTimer (key : TimerKey) (time : Int32) (callback : κ) (queue : ρ)
      (address : Address)
  | removeTimer (key : TimerKey)
  | update
  | timeout
  | relock
  /-- `PrepareExecute` at the start of `_ProcessTimerCallback`. -/
  | prepareExecute
  /-- `Callback` of the next context. -/
  | callback
  /-- `Init` of the execute queue after the loop. -/
  | finish

variable {κ ρ : Type*}

def init : LogicTimers κ ρ where
  game := .construct
  calls := 0
  queues := fun _ => []
  logic := .idle
  executed := []

/-- The contexts that the next `TimerTimeout` pushes. -/
def nextTimedOut (s : LogicTimers κ ρ) : List (TimerContext (Nat × κ) ρ) :=
  match s.game.wheel.pc with
  | .dispatching _ (node :: _) => s.game.timedOut node.event
  | _ => []

/-- One action; `wait` is `m_stTimerWaitQueue`. -/
def step [DecidableEq ρ] (wait : ρ) (s : LogicTimers κ ρ) :
    Action κ ρ → Option (LogicTimers κ ρ)
  | .addTimer key time callback queue address =>
    (s.game.addTimer key time (s.calls, callback) queue address).map
      fun r => { s with game := r.1, calls := s.calls + 1 }
  | .removeTimer key =>
    (s.game.removeTimer key).map fun r => { s with game := r.1 }
  | .update => (s.game.step .update).map fun game => { s with game := game }
  | .timeout => (s.game.step .timeout).map fun game =>
    { s with
      game := game
      queues := fun queue => s.queues queue ++
        s.nextTimedOut.filter fun ctx => ctx.rstQueue = queue }
  | .relock => (s.game.step .relock).map fun game => { s with game := game }
  | .prepareExecute =>
    match s.logic with
    | .idle => some { s with
        logic := .executing (s.queues wait)
        queues := Function.update s.queues wait [] }
    | .executing _ => none
  | .callback =>
    match s.logic with
    | .executing (ctx :: rest) => some { s with
        logic := .executing rest
        executed := s.executed ++ [ctx] }
    | _ => none
  | .finish =>
    match s.logic with
    | .executing [] => some { s with logic := .idle }
    | _ => none

/-- The contexts left in the execute queue. -/
def rest (s : LogicTimers κ ρ) : List (TimerContext (Nat × κ) ρ) :=
  match s.logic with
  | .idle => []
  | .executing rest => rest

/-- The contexts that `_ProcessTimerCallback` will execute without a further
timeout: the rest of the execute queue and the wait queue. -/
def pending (wait : ρ) (s : LogicTimers κ ρ) :
    List (TimerContext (Nat × κ) ρ) :=
  s.rest ++ s.queues wait

/-- What a step can do: a new context on the heap is that of a new call, a new
pending context was on the heap, and only pending contexts are executed. -/
structure Moves (wait : ρ) (s s' : LogicTimers κ ρ) : Prop where
  calls : s.calls ≤ s'.calls
  heap : ∀ address ctx, s'.game.heap address = some ctx →
    s.game.heap address = some ctx ∨
      ctx.serial = s.calls ∧ s.calls < s'.calls
  pending : ∀ ctx ∈ s'.pending wait, ctx ∈ s.pending wait ∨
    ∃ address, s.game.heap address = some ctx
  executed : ∃ new, s'.executed = s.executed ++ new ∧
    ∀ ctx ∈ new, ctx ∈ s.pending wait

section Step

variable [DecidableEq ρ] {wait : ρ} {s s' : LogicTimers κ ρ}

omit [DecidableEq ρ] in
/-- A step that executes nothing. -/
theorem moves_of_executed_eq (hcalls : s.calls ≤ s'.calls)
    (hheap : ∀ address ctx, s'.game.heap address = some ctx →
      s.game.heap address = some ctx ∨
        ctx.serial = s.calls ∧ s.calls < s'.calls)
    (hpending : ∀ ctx ∈ s'.pending wait,
      ctx ∈ s.pending wait ∨ ∃ address, s.game.heap address = some ctx)
    (hexecuted : s'.executed = s.executed) : Moves wait s s' where
  calls := hcalls
  heap := hheap
  pending := hpending
  executed := ⟨[], by rw [hexecuted, List.append_nil], fun _ h => nomatch h⟩

omit [DecidableEq ρ] in
/-- A step of the timer that leaves queues and logic thread alone. -/
theorem moves_of_game {game : GameTimer (Nat × κ) ρ} {calls : Nat}
    (hcalls : s.calls ≤ calls)
    (hheap : ∀ address ctx, game.heap address = some ctx →
      s.game.heap address = some ctx ∨
        ctx.serial = s.calls ∧ s.calls < calls) :
    Moves wait s { s with game := game, calls := calls } :=
  moves_of_executed_eq hcalls hheap (fun _ hctx => .inl hctx) rfl

theorem moves_of_step {a : Action κ ρ} (h : s.step wait a = some s') : Moves wait s s' := by
  cases a with
  | addTimer key time callback queue address =>
    obtain ⟨r, hadd, rfl⟩ := Option.map_eq_some_iff.mp h
    apply moves_of_game (Nat.le_succ _)
    intro address' ctx hctx
    obtain ⟨-, hr⟩ | ⟨-, s₁, handle, _, _, hregister, -, hr⟩ :=
      GameTimer.addTimer_cases hadd
    · rw [hr] at hctx
      exact .inl hctx
    · rw [hr] at hctx
      apply (GameTimer.heap_of_registerTimer hregister hctx).imp_right
      intro hcallback
      exact ⟨congrArg Prod.fst hcallback, Nat.lt_succ_self _⟩
  | removeTimer key =>
    obtain ⟨r, hremove, rfl⟩ := Option.map_eq_some_iff.mp h
    apply moves_of_game (Nat.le_refl _)
    intro address ctx hctx
    obtain ⟨-, hr⟩ | ⟨-, s₁, hremoveKey, hr⟩ :=
      GameTimer.removeTimer_cases hremove
    · rw [hr] at hctx
      exact .inl hctx
    · rw [hr] at hctx
      exact .inl (GameTimer.heap_of_removeKey hremoveKey hctx)
  | update | relock =>
    obtain ⟨game, hgame, rfl⟩ := Option.map_eq_some_iff.mp h
    obtain ⟨wheel, -, rfl⟩ := Option.map_eq_some_iff.mp hgame
    exact moves_of_game (Nat.le_refl _) fun _ _ hctx => .inl hctx
  | timeout =>
    obtain ⟨game, hgame, rfl⟩ := Option.map_eq_some_iff.mp h
    obtain ⟨shifted, node, rest, s₁, wheel, hpc, htimeout, rfl⟩ :=
      GameTimer.timeout_cases hgame
    have hremove := GameTimer.timerTimeout_cases htimeout
    refine moves_of_executed_eq (Nat.le_refl _) (fun address ctx hctx => ?_)
      (fun ctx hctx => ?_) rfl
    · have hold := GameTimer.heap_of_removeTimerHandle hremove hctx
      exact .inl hold
    · obtain hctx | hctx := List.mem_append.mp hctx
      · exact .inl (List.mem_append_left _ hctx)
      obtain hctx | hctx := List.mem_append.mp hctx
      · exact .inl (List.mem_append_right _ hctx)
      · have hout := (List.mem_filter.mp hctx).1
        rw [nextTimedOut, hpc] at hout
        exact .inr (GameTimer.heap_of_mem_timedOut hout)
  | prepareExecute =>
    simp only [step] at h
    split at h
    · cases h
      refine moves_of_executed_eq (Nat.le_refl _) (fun _ _ hctx => .inl hctx)
        (fun ctx hctx => ?_) rfl
      simp only [pending, rest, Function.update_self, List.append_nil] at hctx
      exact .inl (List.mem_append_right _ hctx)
    · cases h
  | callback =>
    simp only [step] at h
    split at h
    · next ctx rest hlogic =>
      cases h
      have hrest : s.rest = ctx :: rest := by rw [LogicTimers.rest, hlogic]
      refine ⟨Nat.le_refl _, fun _ _ hctx => .inl hctx,
        fun ctx' hctx' => ?_, [ctx], rfl, fun ctx' hctx' => ?_⟩
      · rw [pending, hrest, List.cons_append]
        exact .inl (List.mem_cons_of_mem ctx hctx')
      · rw [pending, hrest, List.mem_singleton.mp hctx']
        exact List.mem_cons_self
    · cases h
  | finish =>
    simp only [step] at h
    split at h
    · next hlogic =>
      cases h
      refine moves_of_executed_eq (Nat.le_refl _)
        (fun _ _ hctx => .inl hctx) (fun ctx hctx => .inl ?_) rfl
      rw [pending, LogicTimers.rest, hlogic]
      exact hctx
    · cases h

end Step

/-! ## Before and after a cancellation -/

/-- Callbacks in the heap and in the queues come from calls made so far. -/
structure Numbered (wait : ρ) (s : LogicTimers κ ρ) : Prop where
  heap : ∀ address ctx, s.game.heap address = some ctx → ctx.serial < s.calls
  pending : ∀ ctx ∈ s.pending wait, ctx.serial < s.calls

/-- No callback of the key from a call before number `n` is left. -/
structure Gone (wait : ρ) (key : TimerKey) (n : Nat) (s : LogicTimers κ ρ) :
    Prop where
  calls : n ≤ s.calls
  heap : ∀ address ctx, s.game.heap address = some ctx → ctx.timerKey = key →
    n ≤ ctx.serial
  pending : ∀ ctx ∈ s.pending wait, ctx.timerKey = key → n ≤ ctx.serial

variable {wait : ρ} {s s' : LogicTimers κ ρ}

theorem Moves.numbered (hmoves : Moves wait s s') (h : s.Numbered wait) : s'.Numbered wait where
  heap := by
    intro address ctx hctx
    obtain hctx | ⟨hserial, hlt⟩ := hmoves.heap address ctx hctx
    · exact (h.heap address ctx hctx).trans_le hmoves.calls
    · exact hserial ▸ hlt
  pending := by
    intro ctx hctx
    obtain hctx | ⟨address, hctx⟩ := hmoves.pending ctx hctx
    · exact (h.pending ctx hctx).trans_le hmoves.calls
    · exact (h.heap address ctx hctx).trans_le hmoves.calls

theorem Moves.gone {key : TimerKey} {n : Nat} (hmoves : Moves wait s s')
    (h : s.Gone wait key n) : s'.Gone wait key n where
  calls := h.calls.trans hmoves.calls
  heap := by
    intro address ctx hctx hkey
    obtain hctx | ⟨hserial, -⟩ := hmoves.heap address ctx hctx
    · exact h.heap address ctx hctx hkey
    · exact hserial ▸ h.calls
  pending := by
    intro ctx hctx hkey
    obtain hctx | ⟨address, hctx⟩ := hmoves.pending ctx hctx
    · exact h.pending ctx hctx hkey
    · exact h.heap address ctx hctx hkey

/-- No callback of the key from a call before number `n` is executed from here
on. -/
def NeverRuns [DecidableEq ρ] (wait : ρ) (key : TimerKey) (n : Nat)
    (s : LogicTimers κ ρ) : Prop :=
  ∀ later t, runSteps (step wait) s later = some t →
    ∀ ctx ∈ t.executed.drop s.executed.length, ctx.timerKey = key →
      n ≤ ctx.serial

variable [DecidableEq ρ]

/-- What is gone is never executed. -/
theorem Gone.neverRuns {key : TimerKey} {n : Nat} (h : s.Gone wait key n) :
    s.NeverRuns wait key n := by
  intro later t hrun
  -- along the run, with what has been executed since
  let Inv (t : LogicTimers κ ρ) : Prop := t.Gone wait key n ∧
    ∃ new, t.executed = s.executed ++ new ∧ ∀ ctx ∈ new, ctx.timerKey = key → n ≤ ctx.serial
  have hstep : ∀ t a t', Inv t → step wait t a = some t' → Inv t' := by
    rintro t a t' ⟨hgone, new, hnew, hold⟩ hstep
    have hmoves := moves_of_step hstep
    obtain ⟨more, hmore, hpending⟩ := hmoves.executed
    refine ⟨hmoves.gone hgone, new ++ more, ?_, fun ctx hctx hkey => ?_⟩
    · rw [hmore, hnew, List.append_assoc]
    · obtain hctx | hctx := List.mem_append.mp hctx
      · exact hold ctx hctx hkey
      · exact hgone.pending ctx (hpending ctx hctx) hkey
  have hinit : Inv s :=
    ⟨h, [], (List.append_nil _).symm, fun _ hctx => nomatch hctx⟩
  obtain ⟨-, new, hnew, hlate⟩ := runSteps_invariant hstep hinit hrun
  rw [hnew, List.drop_left]
  exact hlate

/-- The loop of `_ProcessTimerCallback`. -/
theorem runSteps_callback {rest : List (TimerContext (Nat × κ) ρ)} (h : s.logic = .executing rest) :
    runSteps (step wait) s (List.replicate rest.length .callback) = some { s with
        logic := .executing []
        executed := s.executed ++ rest } := by
  induction rest generalizing s with
  | nil =>
    rw [List.append_nil, ← h]
    rfl
  | cons ctx rest ih =>
    have hfirst : s.step wait .callback = some { s with
        logic := .executing rest
        executed := s.executed ++ [ctx] } := by
      simp only [step, h]
    rw [List.length_cons, List.replicate_succ, runSteps_cons, hfirst, Option.bind_some, ih rfl]
    simp [List.append_assoc]

/-- From outside of `_ProcessTimerCallback` one call executes the wait
queue. -/
theorem executes_waiting (wait : ρ) (hidle : s.logic = .idle) :
    ∃ later t, runSteps (step wait) s later = some t ∧
      t.executed = s.executed ++ s.queues wait := by
  refine ⟨.prepareExecute :: List.replicate (s.queues wait).length .callback,
    { s with
      logic := .executing []
      queues := Function.update s.queues wait []
      executed := s.executed ++ s.queues wait }, ?_, rfl⟩
  have hprepare : s.step wait .prepareExecute = some { s with
      logic := .executing (s.queues wait)
      queues := Function.update s.queues wait [] } := by
    simp only [step, hidle]
  rw [runSteps_cons, hprepare, Option.bind_some, runSteps_callback rfl]

/-- Everything pending can be executed. -/
theorem executes_pending (wait : ρ) (s : LogicTimers κ ρ) :
    ∃ later t, runSteps (step wait) s later = some t ∧
      t.executed = s.executed ++ s.pending wait := by
  cases hlogic : s.logic with
  | idle =>
    obtain ⟨later, t, hrun, ht⟩ := executes_waiting wait hlogic
    refine ⟨later, t, hrun, ?_⟩
    rw [ht, pending, rest, hlogic, List.nil_append]
  | executing rest =>
    -- the round under way first, then the next one
    let s₁ : LogicTimers κ ρ :=
      { s with logic := .idle, executed := s.executed ++ rest }
    have hidle : s₁.logic = .idle := rfl
    obtain ⟨later, t, hrun, ht⟩ := executes_waiting wait hidle
    refine ⟨List.replicate rest.length .callback ++ .finish :: later, t, ?_, ?_⟩
    · rw [runSteps_append, runSteps_callback hlogic, Option.bind_some]
      exact hrun
    · rw [ht, pending, LogicTimers.rest, hlogic, List.append_assoc]

/-! ## Which calls cancel -/

/-- The key of a call is a C string. -/
def Action.CStringKey : Action κ ρ → Prop
  | .addTimer key _ _ _ _ | .removeTimer key => (0 : UInt8) ∉ key
  | _ => True

/-- `RemoveTimer(key)`, or `AddTimer` with the same key, with a key that is not
too long. -/
def Action.Cancels (key : TimerKey) : Action κ ρ → Prop
  | .addTimer key' _ _ _ _ | .removeTimer key' =>
    key' = key ∧ key.length ≤ gametimerMaxTimerKeyLen
  | _ => False

/-- The maps lead to the live contexts, and all callbacks are from calls made
so far. -/
structure Inv (wait : ρ) (s : LogicTimers κ ρ) : Prop where
  linked : s.game.Linked
  numbered : s.Numbered wait

omit [DecidableEq ρ] in
theorem inv_init (wait : ρ) : (init : LogicTimers κ ρ).Inv wait where
  linked := GameTimer.linked_construct
  numbered := ⟨fun _ _ h => (nomatch h), fun _ h => (nomatch h)⟩

theorem linked_step {a : Action κ ρ} (h : s.game.Linked) (ha : a.CStringKey)
    (hstep : s.step wait a = some s') : s'.game.Linked := by
  cases a with
  | addTimer key time callback queue address =>
    obtain ⟨r, hadd, rfl⟩ := Option.map_eq_some_iff.mp hstep
    show r.1.Linked
    obtain ⟨-, hr⟩ | ⟨hlength, s₁, handle, _, _, hregister, -, hr⟩ :=
      GameTimer.addTimer_cases hadd
    · rw [hr]
      exact h
    · have hlinked := h.registerTimer ha hlength hregister
      rw [hr]
      exact ⟨hlinked.registered, hlinked.live, hlinked.keys⟩
  | removeTimer key =>
    obtain ⟨r, hremove, rfl⟩ := Option.map_eq_some_iff.mp hstep
    show r.1.Linked
    obtain ⟨-, hr⟩ | ⟨-, s₁, hremoveKey, hr⟩ :=
      GameTimer.removeTimer_cases hremove
    · rw [hr]
      exact h
    · -- the key is no longer in the map when it is erased
      have hfree := h.timerKeyMap_removeKey hremoveKey
      rw [hr, ← hfree, Function.update_eq_self]
      exact (h.removeKey hremoveKey).1
  | update | relock =>
    obtain ⟨game, hgame, rfl⟩ := Option.map_eq_some_iff.mp hstep
    obtain ⟨wheel, -, rfl⟩ := Option.map_eq_some_iff.mp hgame
    exact ⟨h.registered, h.live, h.keys⟩
  | timeout =>
    obtain ⟨game, hgame, rfl⟩ := Option.map_eq_some_iff.mp hstep
    obtain ⟨shifted, node, rest, s₁, wheel, -, htimeout, rfl⟩ :=
      GameTimer.timeout_cases hgame
    have hpushed : { s.game with
        pushed := s.game.pushed ++ s.game.timedOut node.event }.Linked :=
      ⟨h.registered, h.live, h.keys⟩
    have hlinked := (hpushed.removeTimerHandle (GameTimer.timerTimeout_cases htimeout)).1
    exact ⟨hlinked.registered, hlinked.live, hlinked.keys⟩
  | prepareExecute | callback | finish =>
    simp only [step] at hstep
    split at hstep <;> cases hstep
    exact h

theorem inv_step (s : LogicTimers κ ρ) (a : Action κ ρ) (s' : LogicTimers κ ρ)
    (h : s.Inv wait) (ha : a.CStringKey) (hstep : s.step wait a = some s') :
    s'.Inv wait where
  linked := linked_step h.linked ha hstep
  numbered := (moves_of_step hstep).numbered h.numbered

/-- A cancelling call touches neither the queues nor the logic thread, and
leaves no context of the key on the heap that is not its own. -/
theorem Inv.cancels (h : s.Inv wait) {a : Action κ ρ} {key : TimerKey}
    (ha : a.Cancels key) (hstep : s.step wait a = some s') :
    s'.pending wait = s.pending wait ∧ s'.executed = s.executed ∧
      ∀ address ctx, s'.game.heap address = some ctx → ctx.timerKey = key →
        s.calls ≤ ctx.serial := by
  cases a with
  | addTimer key' time callback queue address =>
    obtain ⟨rfl, hlength⟩ := ha
    obtain ⟨r, hadd, rfl⟩ := Option.map_eq_some_iff.mp hstep
    refine ⟨rfl, rfl, fun address' ctx hctx hkey => ?_⟩
    obtain ⟨hlong, -⟩ | ⟨-, s₁, handle, _, _, hregister, -, hr⟩ :=
      GameTimer.addTimer_cases hadd
    · exact (Nat.not_lt.mpr hlength hlong).elim
    · rw [hr] at hctx
      have hcallback :=
        h.linked.callback_of_registerTimer hregister hctx hkey
      exact (congrArg Prod.fst hcallback).ge
  | removeTimer key' =>
    obtain ⟨rfl, hlength⟩ := ha
    obtain ⟨r, hremove, rfl⟩ := Option.map_eq_some_iff.mp hstep
    refine ⟨rfl, rfl, fun address ctx hctx hkey => ?_⟩
    obtain ⟨hlong, -⟩ | ⟨-, s₁, hremoveKey, hr⟩ :=
      GameTimer.removeTimer_cases hremove
    · exact (Nat.not_lt.mpr hlength hlong).elim
    · rw [hr] at hctx
      have hlive := ((h.linked.removeKey hremoveKey).2 address ctx).mp hctx
      exact (hlive.2 hkey).elim
  | _ => cases ha

/-- **Which calls cancel.**  After a run whose calls have C strings as keys,
`RemoveTimer(key)` or `AddTimer` with the same key is called.  Whatever the two
threads do then, no callback that was registered under the key before that call
is executed, exactly when no timer of the key is waiting in the queues of the
logic thread at the time of the call.

A run ends in front of a `TimerTimeout` that would read a deleted context: the
node of a replaced timer, once its handle has come round to another one. -/
theorem neverRuns_iff (wait : ρ) (actions : List (Action κ ρ))
    (s : LogicTimers κ ρ) (hkeys : ∀ a ∈ actions, a.CStringKey)
    (hrun : runSteps (step wait) init actions = some s) (a : Action κ ρ)
    (key : TimerKey) (ha : a.Cancels key) (s' : LogicTimers κ ρ)
    (hstep : s.step wait a = some s') :
    s'.NeverRuns wait key s.calls ↔
      ∀ ctx ∈ s.pending wait, ctx.timerKey ≠ key := by
  have hmeets : RunMeets (step wait) (fun _ a => a.CStringKey) init actions :=
    runMeets_of_forall (fun a ha _ => hkeys a ha) init
  have h : s.Inv wait :=
    runSteps_invariant_of_meets inv_step (inv_init wait) hmeets hrun
  obtain ⟨hpending, hexecuted, hheap⟩ := h.cancels ha hstep
  constructor
  · intro hnever ctx hctx hkey
    obtain ⟨later, t, hlater, ht⟩ := executes_pending wait s'
    have hdrop : t.executed.drop s'.executed.length = s.pending wait := by
      rw [ht, List.drop_left, hpending]
    have hle := hnever later t hlater ctx (hdrop ▸ hctx) hkey
    exact Nat.not_lt.mpr hle (h.numbered.pending ctx hctx)
  · intro hnone
    apply Gone.neverRuns
    refine ⟨(moves_of_step hstep).calls, hheap, ?_⟩
    rw [hpending]
    intro ctx hctx hkey
    exact (hnone ctx hctx hkey).elim

/-- `AddTimer("a", 1)` and the update that detaches its node. -/
def detachedRun : List (Action Unit Unit) :=
  [.addTimer [97] 1 () () 0, .update]

/-- `RemoveTimer("a")` while the node of the timer is in a detached list. -/
theorem neverRuns_iff_detached :
    ∃ s s' : LogicTimers Unit Unit,
      runSteps (step ()) init detachedRun = some s ∧ s.step () (.removeTimer [97]) = some s' ∧
        s'.NeverRuns () [97] s.calls := by
  have hview : ((runSteps (step ()) (init : LogicTimers Unit Unit) detachedRun).bind fun s =>
        (s.step () (.removeTimer [97])).map fun _ =>
          (s.pending ()).isEmpty) = some true := by
    decide +kernel
  obtain ⟨s, hrun, hview⟩ := Option.bind_eq_some_iff.mp hview
  obtain ⟨s', hstep, hempty⟩ := Option.map_eq_some_iff.mp hview
  have hkeys : ∀ a ∈ detachedRun, a.CStringKey := by
    simp [detachedRun, Action.CStringKey]
  have hnone : ∀ ctx ∈ s.pending (), ctx.timerKey ≠ [97] := by
    rw [List.isEmpty_iff.mp hempty]
    intro ctx hctx
    cases hctx
  exact ⟨s, s', hrun, hstep, (neverRuns_iff () detachedRun s hkeys hrun
    (.removeTimer [97]) [97] ⟨rfl, by decide⟩ s' hstep).mpr hnone⟩

/-- A timer that has timed out runs although `RemoveTimer` has returned. -/
theorem neverRuns_fails_of_timeout :
    ∃ s s' : LogicTimers Unit Unit,
      runSteps (step ()) init (detachedRun ++ [.timeout]) = some s ∧
        s.step () (.removeTimer [97]) = some s' ∧
        ¬ s'.NeverRuns () [97] s.calls := by
  have hview : ((runSteps (step ()) (init : LogicTimers Unit Unit)
      (detachedRun ++ [.timeout])).bind fun s =>
        (s.step () (.removeTimer [97])).bind fun s' =>
          (runSteps (step ()) s' [.prepareExecute, .callback]).map fun t =>
            (s.calls, (t.executed.drop s'.executed.length).map fun ctx =>
              (ctx.timerKey, ctx.serial))) =
      some (1, [([97], 0)]) := by
    decide +kernel
  obtain ⟨s, hrun, hview⟩ := Option.bind_eq_some_iff.mp hview
  obtain ⟨s', hstep, hview⟩ := Option.bind_eq_some_iff.mp hview
  obtain ⟨t, hlater, hview⟩ := Option.map_eq_some_iff.mp hview
  obtain ⟨hcalls, hexecuted⟩ := Prod.mk.inj hview
  refine ⟨s, s', hrun, hstep, fun hnever => ?_⟩
  have hmem : (([97], 0) : TimerKey × Nat) ∈ (t.executed.drop s'.executed.length).map fun ctx =>
        (ctx.timerKey, ctx.serial) := by
    rw [hexecuted]
    exact List.mem_singleton_self _
  obtain ⟨ctx, hctx, heq⟩ := List.mem_map.mp hmem
  obtain ⟨hkey, hserial⟩ := Prod.mk.inj heq
  have hle := hnever _ t hlater ctx hctx hkey
  rw [hcalls, hserial] at hle
  exact absurd hle (by decide)

end LogicTimers

end Gametimer
end GameServer
