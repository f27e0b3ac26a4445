import GameServer.Lib.Locks
import GameServer.Timer.GameTimer

/-!
# The locks of the timer

`AddTimer`, `RemoveTimer`, `timer_update` and `PrepareExecute` instruction by
instruction, for any number of threads and queues.  Three kinds of spinlock are
involved, and none of them is reentrant: `m_stLock` of `GameTimer`, the lock of
the wheel and the lock of each `TimerQueue`.

`GameTimer`'s lock is always taken first: `timer_add` and `PushQueue` run under
it, and `timer_update` lets go of the wheel while it dispatches.  The exception
is `_AddTimerHandle` with a delay that is not positive.  It calls
`TimerTimeout` directly, and `TimerTimeout` takes `m_stLock`, which `AddTimer`
holds.  `noHang_iff` says that this is the only way to hang.

The instructions of a call that nobody interrupts add up to the function of
`GameTimer` with its name (`exists_run_addTimer`, `exists_run_removeTimer`,
`exists_run_timerTimeout`).
-/

namespace GameServer
namespace Gametimer

open Lib

/-- The spinlocks. -/
inductive TimerLock (ρ : Type*) where
  /-- `GameTimer::m_stLock` -/
  | game
  /-- `timer::lock` -/
  | wheel
  /-- `TimerQueue::m_stLock` -/
  | queue (queue : ρ)
deriving DecidableEq

/-- What the threads share.  Of the wheel's state only the lists and the
histories are used: where an updating thread stands is its own position. -/
structure TimerMemory (κ ρ : Type*) where
  game : GameTimer κ ρ
  queues : ρ → List (TimerContext κ ρ)

/-- Where `TimerTimeout` returns to. -/
inductive TimeoutReturn where
  /-- `_AddTimerHandle` -/
  | addTimerHandle
  /-- `dispatch_list`, with the nodes left -/
  | dispatchList (shifted : Bool) (rest : List (TimerNode TimerEvent))

/-- The positions of a thread. -/
inductive TimerPc (κ ρ : Type*) where
  | idle
  -- `AddTimer`
  | addTimer (key : TimerKey) (time : Int32) (callback : κ) (queue : ρ)
      (address : Address)
  | addLock (key : TimerKey) (time : Int32) (callback : κ) (queue : ρ)
      (address : Address)
  | addRegister (key : TimerKey) (time : Int32) (callback : κ) (queue : ρ)
      (address : Address)
  | addTimerHandle (event : TimerEvent) (time : Int32)
  | wheelLock (event : TimerEvent) (delay : Delay)
  | wheelAdd (event : TimerEvent) (delay : Delay)
  | wheelUnlock
  /-- the end of `AddTimer` and of `RemoveTimer` -/
  | gameUnlock
  -- `RemoveTimer`
  | removeTimer (key : TimerKey)
  | removeLock (key : TimerKey)
  | removeBody (key : TimerKey)
  -- `TimerTimeout`
  | timeoutLock (event : TimerEvent) (ret : TimeoutReturn)
  | timeoutFind (event : TimerEvent) (ret : TimeoutReturn)
  | pushLock (ctx : TimerContext κ ρ) (event : TimerEvent)
      (ret : TimeoutReturn)
  | pushBack (ctx : TimerContext κ ρ) (event : TimerEvent)
      (ret : TimeoutReturn)
  | pushUnlock (ctx : TimerContext κ ρ) (event : TimerEvent)
      (ret : TimeoutReturn)
  | timeoutRemove (event : TimerEvent) (ret : TimeoutReturn)
  | timeoutUnlock (ret : TimeoutReturn)
  -- `timer_update`
  | updateLock
  | execute (shifted : Bool)
  | executeUnlock (shifted : Bool) (current : List (TimerNode TimerEvent))
  | dispatch (shifted : Bool) (current : List (TimerNode TimerEvent))
  | executeLock (shifted : Bool)
  | shift
  | updateUnlock
  -- `PrepareExecute`
  | prepareLock (queue target : ρ)
  | prepareSwap (queue target : ρ)
  | prepareUnlock (queue : ρ)

namespace TimerPc

variable {κ ρ : Type*} {next p : TimerPc κ ρ} {lock : TimerLock ρ}

/-- Where a thread goes after `TimerTimeout`. -/
def afterTimeout : TimeoutReturn → TimerPc κ ρ
  | .addTimerHandle => .gameUnlock
  | .dispatchList shifted rest => .dispatch shifted rest

/-- The code of the timer. -/
def code [DecidableEq ρ] :
    TimerPc κ ρ → Instr (TimerMemory κ ρ) (TimerPc κ ρ) (TimerLock ρ)
  | .idle => .idle
  | .addTimer key time callback queue address => .act fun m =>
    if gametimerMaxTimerKeyLen < key.length then
      some (m, .idle)
    else
      some (m, .addLock key time callback queue address)
  | .addLock key time callback queue address =>
    .lock .game (.addRegister key time callback queue address)
  | .addRegister key time callback queue address => .act fun m =>
    (m.game.registerTimer key callback queue address).map fun r =>
      ({ m with game := r.1 }, .addTimerHandle ⟨r.2, address⟩ time)
  | .addTimerHandle event time => .act fun m =>
    match Delay.ofInt time with
    | none => some (m, .timeoutLock event .addTimerHandle)
    | some delay => some (m, .wheelLock event delay)
  | .wheelLock event delay => .lock .wheel (.wheelAdd event delay)
  | .wheelAdd event delay => .act fun m =>
    (m.game.wheel.step (.add delay event)).map fun wheel =>
      ({ m with game := { m.game with wheel := wheel } }, .wheelUnlock)
  | .wheelUnlock => .unlock .wheel .gameUnlock
  | .gameUnlock => .unlock .game .idle
  | .removeTimer key => .act fun m =>
    if gametimerMaxTimerKeyLen < key.length then
      some (m, .idle)
    else
      some (m, .removeLock key)
  | .removeLock key => .lock .game (.removeBody key)
  | .removeBody key => .act fun m =>
    (m.game.removeTimer key).map fun r =>
      ({ m with game := r.1 }, .gameUnlock)
  | .timeoutLock event ret => .lock .game (.timeoutFind event ret)
  | .timeoutFind event ret => .act fun m =>
    match m.game.contextMap event.handle with
    | some _ => (m.game.heap event.ctx).map fun ctx =>
      (m, .pushLock ctx event ret)
    | none => some (m, .timeoutRemove event ret)
  | .pushLock ctx event ret =>
    .lock (.queue ctx.rstQueue) (.pushBack ctx event ret)
  | .pushBack ctx event ret => .act fun m =>
    some ({ m with
        game := { m.game with pushed := m.game.pushed ++ [ctx] }
        queues := Function.update m.queues ctx.rstQueue
          (m.queues ctx.rstQueue ++ [ctx]) },
      .pushUnlock ctx event ret)
  | .pushUnlock ctx event ret =>
    .unlock (.queue ctx.rstQueue) (.timeoutRemove event ret)
  | .timeoutRemove event ret => .act fun m =>
    (m.game.removeTimerHandle event.handle).map fun game =>
      ({ m with game := game }, .timeoutUnlock ret)
  | .timeoutUnlock ret => .unlock .game (afterTimeout ret)
  | .updateLock => .lock .wheel (.execute false)
  | .execute shifted => .act fun m =>
    match m.game.wheel.timer.executeTest with
    | some (T, current) =>
      some ({ m with game.wheel.timer := T },
        .executeUnlock shifted current)
    | none => some (m, if shifted then .updateUnlock else .shift)
  | .executeUnlock shifted current => .unlock .wheel (.dispatch shifted current)
  | .dispatch shifted current => .act fun m =>
    match current with
    | [] => some (m, .executeLock shifted)
    | node :: rest =>
      some (m, .timeoutLock node.event (.dispatchList shifted rest))
  | .executeLock shifted => .lock .wheel (.execute shifted)
  | .shift => .act fun m =>
    some ({ m with
        game.wheel.timer := m.game.wheel.timer.timerShift
        game.wheel.ticks := m.game.wheel.ticks + 1 },
      .execute true)
  | .updateUnlock => .unlock .wheel .idle
  | .prepareLock queue target =>
    .lock (.queue queue) (.prepareSwap queue target)
  | .prepareSwap queue target => .act fun m =>
    some ({ m with
        queues := Function.update
          (Function.update m.queues target (m.queues queue)) queue [] },
      .prepareUnlock queue)
  | .prepareUnlock queue => .unlock (.queue queue) .idle

/-- The calls a thread can make. -/
def starts : TimerPc κ ρ → Bool
  | .addTimer .. | .removeTimer _ | .updateLock | .prepareLock .. => true
  | _ => false

/-! ## The locks held -/

/-- The locks held where `TimerTimeout` is called. -/
def heldAtCall : TimeoutReturn → Set (TimerLock ρ)
  | .addTimerHandle => {.game}
  | .dispatchList _ _ => ∅

/-- The locks held at a position. -/
def held : TimerPc κ ρ → Set (TimerLock ρ)
  | .addRegister .. | .addTimerHandle .. | .wheelLock .. | .gameUnlock
  | .removeBody _ | .timeoutFind .. | .pushLock .. | .timeoutRemove ..
  | .timeoutUnlock _ => {.game}
  | .wheelAdd .. | .wheelUnlock => {.wheel, .game}
  | .timeoutLock _ ret => heldAtCall ret
  | .pushBack ctx _ _ | .pushUnlock ctx _ _ => {.queue ctx.rstQueue, .game}
  | .execute _ | .executeUnlock .. | .shift | .updateUnlock => {.wheel}
  | .prepareSwap queue _ | .prepareUnlock queue => {.queue queue}
  | _ => ∅

/-- The positions of `TimerTimeout` behind its lock are reached only from
`dispatch_list`: from `_AddTimerHandle` the lock is never obtained. -/
def Valid : TimerPc κ ρ → Prop
  | .timeoutFind _ ret | .pushLock _ _ ret | .pushBack _ _ ret
  | .pushUnlock _ _ ret | .timeoutRemove _ ret | .timeoutUnlock ret =>
    ret ≠ .addTimerHandle
  | _ => True

/-- `TimerTimeout` called by `_AddTimerHandle`, before its lock. -/
def nested : TimerPc κ ρ → Bool
  | .timeoutLock _ .addTimerHandle => true
  | _ => false

/-- `m_stLock` comes before the other locks. -/
def lockRank : TimerLock ρ → Nat
  | .game => 0
  | .wheel => 1
  | .queue _ => 1

/-- Where a thread can go without touching a lock. -/
inductive ActNext : TimerPc κ ρ → TimerPc κ ρ → Prop where
  | addTooLong {key time callback queue address} :
      ActNext (.addTimer key time callback queue address) .idle
  | addTimer {key time callback queue address} :
      ActNext (.addTimer key time callback queue address)
        (.addLock key time callback queue address)
  | addRegister {key time callback queue address event} :
      ActNext (.addRegister key time callback queue address)
        (.addTimerHandle event time)
  | expired {event time} (htime : ¬ 0 < time.toInt) :
      ActNext (.addTimerHandle event time) (.timeoutLock event .addTimerHandle)
  | pending {event time delay} :
      ActNext (.addTimerHandle event time) (.wheelLock event delay)
  | wheelAdd {event delay} : ActNext (.wheelAdd event delay) .wheelUnlock
  | removeTooLong {key} : ActNext (.removeTimer key) .idle
  | removeTimer {key} : ActNext (.removeTimer key) (.removeLock key)
  | removeBody {key} : ActNext (.removeBody key) .gameUnlock
  | found {event ret ctx} :
      ActNext (.timeoutFind event ret) (.pushLock ctx event ret)
  | deleted {event ret} :
      ActNext (.timeoutFind event ret) (.timeoutRemove event ret)
  | pushBack {ctx event ret} :
      ActNext (.pushBack ctx event ret) (.pushUnlock ctx event ret)
  | timeoutRemove {event ret} :
      ActNext (.timeoutRemove event ret) (.timeoutUnlock ret)
  | detached {shifted current} :
      ActNext (.execute shifted) (.executeUnlock shifted current)
  | executed {shifted} :
      ActNext (.execute shifted) (if shifted then .updateUnlock else .shift)
  | dispatched {shifted} : ActNext (.dispatch shifted []) (.executeLock shifted)
  | dispatch {shifted node rest} :
      ActNext (.dispatch shifted (node :: rest))
        (.timeoutLock node.event (.dispatchList shifted rest))
  | shift : ActNext .shift (.execute true)
  | prepareSwap {queue target} :
      ActNext (.prepareSwap queue target) (.prepareUnlock queue)

/-- Only `_AddTimerHandle` with a delay that is not positive leads to the
nested call. -/
theorem ActNext.expired_of_nested (h : ActNext p next) (hnested : next.nested = true) :
    ∃ event time, p = .addTimerHandle event time ∧ ¬ 0 < time.toInt := by
  cases h
  case expired event time htime => exact ⟨event, time, rfl, htime⟩
  case executed shifted => cases shifted <;> cases hnested
  all_goals cases hnested

/-- The delay a call of `AddTimer` was made with, up to the branch of
`_AddTimerHandle`. -/
def delay : TimerPc κ ρ → Option Int32
  | .addTimer _ time _ _ _ | .addLock _ time _ _ _ | .addRegister _ time _ _ _
  | .addTimerHandle _ time => some time
  | _ => none

theorem ActNext.delay_eq (h : ActNext p next) {time : Int32}
    (hnext : next.delay = some time) : p.delay = some time := by
  cases h
  case executed shifted => cases shifted <;> cases hnext
  all_goals first | exact hnext | cases hnext

theorem not_nested_of_starts (h : p.starts = true) : p.nested = false := by
  cases p <;> cases h <;> rfl

variable [DecidableEq ρ]

theorem actNext_of_run {m m' : TimerMemory κ ρ}
    {run : TimerMemory κ ρ → Option (TimerMemory κ ρ × TimerPc κ ρ)}
    (hcode : code p = .act run) (hrun : run m = some (m', next)) :
    ActNext p next := by
  cases p <;> cases hcode
  case addTimer | removeTimer =>
    simp only at hrun
    split_ifs at hrun <;> cases hrun <;> constructor
  case addRegister | wheelAdd | removeBody | timeoutRemove =>
    obtain ⟨_, _, heq⟩ := Option.map_eq_some_iff.mp hrun
    cases heq
    constructor
  case addTimerHandle event time =>
    simp only at hrun
    split at hrun
    · next hdelay =>
      cases hrun
      exact .expired (Delay.ofInt_eq_none_iff.mp hdelay)
    · cases hrun
      exact .pending
  case timeoutFind event ret =>
    simp only at hrun
    split at hrun
    · obtain ⟨ctx, _, heq⟩ := Option.map_eq_some_iff.mp hrun
      cases heq
      exact .found
    · cases hrun
      exact .deleted
  case execute shifted =>
    simp only at hrun
    split at hrun <;> cases hrun
    · exact .detached
    · exact .executed
  case dispatch shifted current =>
    cases current <;> cases hrun <;> constructor
  case pushBack | shift | prepareSwap =>
    cases hrun
    constructor

theorem not_nested_of_lock (hcode : code p = .lock lock next) : next.nested = false := by
  cases p <;> cases hcode <;> rfl

theorem not_nested_of_unlock (hcode : code p = .unlock lock next) : next.nested = false := by
  cases p <;> cases hcode
  case timeoutUnlock ret => cases ret <;> rfl
  all_goals rfl

theorem delay_of_lock (hcode : code p = .lock lock next) : next.delay = p.delay := by
  cases p <;> cases hcode <;> rfl

theorem delay_of_unlock (hcode : code p = .unlock lock next) : next.delay = none := by
  cases p <;> cases hcode
  case timeoutUnlock ret => cases ret <;> rfl
  all_goals rfl

theorem disciplined : LockState.Disciplined (M := TimerMemory κ ρ) code starts Valid held where
  start := by
    intro p hp
    cases p <;> cases hp <;> exact ⟨trivial, rfl⟩
  idle := by
    intro p _ hp
    cases p <;> cases hp
    rfl
  lock := by
    intro p lock next hvalid hp hnot
    cases p <;> cases hp
    case timeoutLock event ret =>
      cases ret with
      | addTimerHandle => exact absurd rfl hnot
      | dispatchList shifted rest => simp [held, heldAtCall, Valid]
    case pushLock ctx event ret => exact ⟨hvalid, rfl⟩
    all_goals simp [held, Valid]
  unlock := by
    intro p lock next hvalid hp
    cases p <;> cases hp
    case timeoutUnlock ret =>
      cases ret with
      | addTimerHandle => exact absurd rfl hvalid
      | dispatchList shifted rest => simp [held, afterTimeout, Valid]
    case pushUnlock ctx event ret => exact ⟨by simp [held], hvalid, by simp [held]⟩
    all_goals simp [held, Valid]
  act := by
    intro p run m m' next hvalid hp hrun
    cases actNext_of_run hp hrun
    case executed shifted => cases shifted <;> simp [held, Valid]
    all_goals exact ⟨hvalid, rfl⟩

/-- Outside the nested `TimerTimeout` the locks are taken in order. -/
theorem ordered_of_not_nested (hp : p.nested = false) :
    LockState.Ordered (M := TimerMemory κ ρ) code held lockRank p := by
  intro lock hwanted lock' hheld
  cases p <;> cases hwanted
  case timeoutLock event ret =>
    cases ret with
    | addTimerHandle => cases hp
    | dispatchList shifted rest => cases hheld
  case wheelLock | pushLock =>
    cases hheld
    exact Nat.zero_lt_one
  all_goals cases hheld

/-! ## Calls that nobody interrupts -/

section Alone

open LockState

variable {τ : Type*} {m : TimerMemory κ ρ}
  {owner : TimerLock ρ → Option τ}

/-- Instruction by instruction, `AddTimer` does what the function does. -/
theorem alone_addTimer (thread : τ) (hgame : owner .game = none)
    (hwheel : owner .wheel = none) {key : TimerKey} {time : Int32}
    {callback : κ} {queue : ρ} {address : Address} {r : GameTimer κ ρ × Int}
    (hadd : m.game.addTimer key time callback queue address = some r) :
    Alone code thread m owner (.addTimer key time callback queue address)
      { m with game := r.1 } owner .idle := by
  unfold GameTimer.addTimer at hadd
  split_ifs at hadd with hlong
  · cases hadd
    exact .act rfl (if_pos hlong) .refl
  · obtain ⟨⟨game, handle⟩, hregister, hadd⟩ :=
      Option.bind_eq_some_iff.mp hadd
    obtain ⟨game', hhandle, rfl⟩ := Option.map_eq_some_iff.mp hadd
    obtain ⟨delay, hdelay, hhandle⟩ := Option.bind_eq_some_iff.mp hhandle
    obtain ⟨wheel, hwheelAdd, rfl⟩ := Option.map_eq_some_iff.mp hhandle
    have hfree : Function.update owner .game (some thread) .wheel = none := by
      rw [Function.update_of_ne (by simp), hwheel]
    refine .act rfl (if_neg hlong) (.lock rfl hgame ?_)
    refine .act rfl (by rw [hregister]; rfl) ?_
    refine .act rfl (by rw [hdelay]) (.lock rfl hfree ?_)
    refine .act rfl (by rw [hwheelAdd]; rfl) (.unlock rfl (.unlock rfl ?_))
    rw [update_owner_none hfree, update_owner_none hgame]
    exact .refl

/-- So does `RemoveTimer`. -/
theorem alone_removeTimer (thread : τ) (hgame : owner .game = none)
    {key : TimerKey} {r : GameTimer κ ρ × Int} (hremove : m.game.removeTimer key = some r) :
    Alone code thread m owner (.removeTimer key) { m with game := r.1 } owner
      .idle := by
  by_cases hlong : gametimerMaxTimerKeyLen < key.length
  · rw [GameTimer.removeTimer, if_pos hlong] at hremove
    cases hremove
    exact .act rfl (if_pos hlong) .refl
  · refine .act rfl (if_neg hlong) (.lock rfl hgame ?_)
    refine .act rfl (by rw [hremove]; rfl) (.unlock rfl ?_)
    rw [update_owner_none hgame]
    exact .refl

/-- And `TimerTimeout` in the loop of `dispatch_list`, which pushes what has
timed out to its queue. -/
theorem alone_timerTimeout (thread : τ) (hgame : owner .game = none)
    (hqueue : ∀ queue, owner (.queue queue) = none) {event : TimerEvent}
    {game : GameTimer κ ρ} (htimeout : m.game.timerTimeout event = some game)
    (shifted : Bool) (rest : List (TimerNode TimerEvent)) :
    Alone code thread m owner (.timeoutLock event (.dispatchList shifted rest))
      { game := game
        queues := fun queue => m.queues queue ++
          (m.game.timedOut event).filter fun ctx => ctx.rstQueue = queue }
      owner (.dispatch shifted rest) := by
  have hremove := GameTimer.timerTimeout_cases htimeout
  refine .lock rfl hgame ?_
  cases hfound : m.game.contextMap event.handle with
  | none =>
    -- the timer has been removed in the meantime
    rw [GameTimer.timedOut, hfound, List.append_nil] at hremove
    refine .act rfl (by rw [hfound]) ?_
    refine .act rfl (by rw [hremove]; rfl) (.unlock rfl ?_)
    rw [update_owner_none hgame, GameTimer.timedOut, hfound]
    simp only [List.filter_nil, List.append_nil]
    exact .refl
  | some address =>
    obtain ⟨fired, hfired, -⟩ := Option.bind_eq_some_iff.mp htimeout
    rw [hfound] at hfired
    obtain ⟨ctx, hctx, -⟩ := Option.map_eq_some_iff.mp hfired
    have htimedOut : m.game.timedOut event = [ctx] := by
      rw [GameTimer.timedOut, hfound, hctx]
      rfl
    rw [htimedOut] at hremove ⊢
    have hfree : Function.update owner .game (some thread) (.queue ctx.rstQueue) = none := by
      rw [Function.update_of_ne (by simp), hqueue]
    have hpush : (fun queue => m.queues queue ++ [ctx].filter fun ctx => ctx.rstQueue = queue) =
          Function.update m.queues ctx.rstQueue (m.queues ctx.rstQueue ++ [ctx]) := by
      funext queue
      rw [Function.update_apply]
      split_ifs with heq
      · simp [heq]
      · simp [Ne.symm heq]
    refine .act rfl (by rw [hfound, hctx]; rfl) (.lock rfl hfree ?_)
    refine .act rfl rfl (.unlock rfl ?_)
    refine .act rfl (by rw [hremove]; rfl) (.unlock rfl ?_)
    rw [update_owner_none hfree, update_owner_none hgame, hpush]
    exact .refl

end Alone

end TimerPc

/-! ## Threads that use the timer -/

/-- The threads of the timer with what they share. -/
abbrev TimerThreads (τ κ ρ : Type*) :=
  LockState τ (TimerMemory κ ρ) (TimerPc κ ρ) (TimerLock ρ)

namespace TimerThreads

variable {τ κ ρ : Type*} {s : TimerThreads τ κ ρ}

/-- No thread is in a call. -/
def start : TimerThreads τ κ ρ where
  memory := ⟨.construct, fun _ => []⟩
  owner := fun _ => none
  pcs := fun _ => .idle

/-- A thread that is about to branch in `_AddTimerHandle` has a positive
delay. -/
def PositiveDelay (s : TimerThreads τ κ ρ) :
    LockAction τ (TimerPc κ ρ) → Prop
  | .run thread => ∀ event time, s.pcs thread = .addTimerHandle event time →
      0 < time.toInt
  | .call _ _ => True

/-- The discipline is kept and no thread is in the nested `TimerTimeout`. -/
structure Inv (s : TimerThreads τ κ ρ) : Prop where
  locks : LockState.Inv TimerPc.Valid TimerPc.held s
  notNested : ∀ thread, (s.pcs thread).nested = false

theorem inv_start : (start : TimerThreads τ κ ρ).Inv where
  locks := by
    refine ⟨fun _ => trivial, fun thread lock => ?_⟩
    constructor <;> intro h <;> cases h
  notNested := fun _ => rfl

variable [DecidableEq τ] [DecidableEq ρ]

/-- One step of a thread. -/
abbrev step (s : TimerThreads τ κ ρ) (a : LockAction τ (TimerPc κ ρ)) :
    Option (TimerThreads τ κ ρ) :=
  LockState.step TimerPc.code TimerPc.starts s a

/-- **A call of `AddTimer` that nobody interrupts** ends where the function
`addTimer` ends, with the locks as they were. -/
theorem exists_run_addTimer {thread : τ} (hidle : s.pcs thread = .idle)
    (hgame : s.owner .game = none) (hwheel : s.owner .wheel = none)
    {key : TimerKey} {time : Int32} {callback : κ} {queue : ρ}
    {address : Address} {r : GameTimer κ ρ × Int}
    (hadd : s.memory.game.addTimer key time callback queue address = some r) :
    ∃ n, runSteps step s (.call thread (.addTimer key time callback queue address) ::
          List.replicate n (.run thread)) =
      some { s with memory := { s.memory with game := r.1 } } := by
  have halone := TimerPc.alone_addTimer thread hgame hwheel hadd
  rw [← hidle] at halone
  exact halone.exists_call (by rw [hidle]; rfl) rfl

/-- The same for `RemoveTimer`. -/
theorem exists_run_removeTimer {thread : τ} (hidle : s.pcs thread = .idle)
    (hgame : s.owner .game = none) {key : TimerKey} {r : GameTimer κ ρ × Int}
    (hremove : s.memory.game.removeTimer key = some r) :
    ∃ n, runSteps step s (.call thread (.removeTimer key) :: List.replicate n (.run thread)) =
      some { s with memory := { s.memory with game := r.1 } } := by
  have halone := TimerPc.alone_removeTimer thread hgame hremove
  rw [← hidle] at halone
  exact halone.exists_call (by rw [hidle]; rfl) rfl

/-- The same for a call of `TimerTimeout` from `dispatch_list`. -/
theorem exists_run_timerTimeout {thread : τ} {event : TimerEvent}
    {shifted : Bool} {rest : List (TimerNode TimerEvent)}
    (hpc : s.pcs thread = .timeoutLock event (.dispatchList shifted rest))
    (hgame : s.owner .game = none)
    (hqueue : ∀ queue, s.owner (.queue queue) = none) {game : GameTimer κ ρ}
    (htimeout : s.memory.game.timerTimeout event = some game) :
    ∃ n, runSteps step s (List.replicate n (.run thread)) = some
      { s with
        memory := {
          game := game
          queues := fun queue => s.memory.queues queue ++
            (s.memory.game.timedOut event).filter fun ctx =>
              ctx.rstQueue = queue }
        pcs := Function.update s.pcs thread (.dispatch shifted rest) } := by
  obtain ⟨n, hrun⟩ := (TimerPc.alone_timerTimeout thread hgame
    hqueue htimeout shifted rest).exists_run TimerPc.starts s.pcs
  rw [← hpc, Function.update_eq_self] at hrun
  exact ⟨n, hrun⟩

/-- How a thread gets into the nested call. -/
theorem expired_of_nested {s' : TimerThreads τ κ ρ}
    {a : LockAction τ (TimerPc κ ρ)} (h : s.Inv) (hstep : step s a = some s')
    {thread : τ} (hnested : (s'.pcs thread).nested = true) :
    ∃ event time, a = .run thread ∧ s.pcs thread = .addTimerHandle event time ∧
      ¬ 0 < time.toInt := by
  -- the thread that moved is the one in the nested call
  have hmoved : ∀ thread' next, (Function.update s.pcs thread' next thread).nested = true →
        thread' = thread ∧ next.nested = true := by
    intro thread' next hnext
    by_cases heq : thread = thread'
    · subst heq
      rw [Function.update_self] at hnext
      exact ⟨rfl, hnext⟩
    · rw [Function.update_of_ne heq, h.notNested] at hnext
      cases hnext
  cases LockState.transition_of_step hstep with
  | call hidle hstart =>
    obtain ⟨rfl, hnext⟩ := hmoved _ _ hnested
    rw [TimerPc.not_nested_of_starts hstart] at hnext
    cases hnext
  | lock hcode hfree =>
    obtain ⟨rfl, hnext⟩ := hmoved _ _ hnested
    rw [TimerPc.not_nested_of_lock hcode] at hnext
    cases hnext
  | unlock hcode =>
    obtain ⟨rfl, hnext⟩ := hmoved _ _ hnested
    rw [TimerPc.not_nested_of_unlock hcode] at hnext
    cases hnext
  | act hcode hrun =>
    obtain ⟨rfl, hnext⟩ := hmoved _ _ hnested
    obtain ⟨event, time, hp, htime⟩ :=
      (TimerPc.actNext_of_run hcode hrun).expired_of_nested hnext
    exact ⟨event, time, rfl, hp, htime⟩

/-- A positive delay keeps all threads out of the nested call. -/
theorem inv_step (s : TimerThreads τ κ ρ) (a : LockAction τ (TimerPc κ ρ))
    (s' : TimerThreads τ κ ρ) (h : s.Inv) (hpositive : s.PositiveDelay a)
    (hstep : step s a = some s') : s'.Inv where
  locks := LockState.inv_step TimerPc.disciplined s a s' h.locks hstep
  notNested := by
    intro thread
    by_contra hnested
    obtain ⟨event, time, rfl, hp, htime⟩ :=
      expired_of_nested h hstep (Bool.eq_true_of_not_eq_false hnested)
    exact htime (hpositive event time hp)

/-- A delay that is not positive makes the thread wait for itself. -/
theorem positiveDelay_of_noHang (s : TimerThreads τ κ ρ)
    (a : LockAction τ (TimerPc κ ρ)) (s' : TimerThreads τ κ ρ) (h : s.Inv)
    (hstep : step s a = some s') (hnone : s'.NoHang TimerPc.code) :
    s.PositiveDelay a := by
  cases a with
  | call thread position => trivial
  | run thread =>
    intro event time hp
    by_contra htime
    have hlocks := LockState.inv_step TimerPc.disciplined s _ s' h.locks hstep
    have hnext : s'.pcs thread = .timeoutLock event .addTimerHandle := by
      have hdelay := Delay.ofInt_eq_none_iff.mpr htime
      simp only [step, LockState.step, hp, TimerPc.code, hdelay,
        Option.map_some, Option.some.injEq] at hstep
      rw [← hstep]
      exact Function.update_self _ _ _
    have howner : s'.owner .game = some thread := by
      rw [hlocks.owner, hnext]
      rfl
    apply hnone.own thread .game _ howner
    rw [hnext]
    rfl

/-- **When the timer cannot hang on its locks.**  Along a run of any number of
threads no thread asks for a lock it holds, and no threads wait for each other
in a cycle, exactly when `_AddTimerHandle` is never given a delay that is not
positive. -/
theorem noHang_iff (actions : List (LockAction τ (TimerPc κ ρ)))
    (t : TimerThreads τ κ ρ) (hrun : runSteps step start actions = some t) :
    (∀ first rest s, actions = first ++ rest →
        runSteps step start first = some s → s.NoHang TimerPc.code) ↔
      RunMeets step PositiveDelay start actions := by
  apply forall_reached_iff_runMeets inv_step positiveDelay_of_noHang _ inv_start hrun
  intro s h
  exact LockState.noHang_of_ordered h.locks fun thread =>
    TimerPc.ordered_of_not_nested (h.notNested thread)

/-- `AddTimer` is called with positive delays only. -/
def CallsPositive : LockAction τ (TimerPc κ ρ) → Prop
  | .call _ p => ∀ time, p.delay = some time → 0 < time.toInt
  | .run _ => True

/-- The calls of `AddTimer` under way have positive delays. -/
def DelaysPositive (s : TimerThreads τ κ ρ) : Prop :=
  ∀ thread time, (s.pcs thread).delay = some time → 0 < time.toInt

theorem delaysPositive_step (s : TimerThreads τ κ ρ)
    (a : LockAction τ (TimerPc κ ρ)) (s' : TimerThreads τ κ ρ)
    (h : s.DelaysPositive) (ha : CallsPositive a)
    (hstep : step s a = some s') : s'.DelaysPositive := by
  have hmove : ∀ thread next, (∀ time, next.delay = some time → 0 < time.toInt) →
      ∀ thread' time, (Function.update s.pcs thread next thread').delay =
        some time → 0 < time.toInt := by
    intro thread next hnext thread' time
    rw [Function.update_apply]
    split_ifs
    · exact hnext time
    · exact h thread' time
  cases LockState.transition_of_step hstep with
  | call hidle hstart => exact hmove _ _ ha
  | lock hcode hfree =>
    apply hmove
    rw [TimerPc.delay_of_lock hcode]
    exact h _
  | unlock hcode =>
    apply hmove
    rw [TimerPc.delay_of_unlock hcode]
    intro time htime
    cases htime
  | act hcode hrun =>
    apply hmove
    intro time hnext
    exact h _ time ((TimerPc.actNext_of_run hcode hrun).delay_eq hnext)

/-- Where `AddTimer` is called with positive delays only, `_AddTimerHandle`
gets positive delays only. -/
theorem runMeets_of_callsPositive {actions : List (LockAction τ (TimerPc κ ρ))}
    (h : ∀ a ∈ actions, CallsPositive a) :
    RunMeets step PositiveDelay (start : TimerThreads τ κ ρ) actions := by
  have hstart : (start : TimerThreads τ κ ρ).DelaysPositive := by
    intro thread time htime
    cases htime
  have hcond : ∀ (s : TimerThreads τ κ ρ) a, s.DelaysPositive →
      CallsPositive a → s.PositiveDelay a := by
    intro s a hs _
    cases a with
    | call thread p => trivial
    | run thread =>
      intro event time hp
      apply hs thread time
      rw [hp]
      rfl
  exact runMeets_of_invariant delaysPositive_step hcond hstart h

/-- `AddTimer("a", time)` on thread 0, until `_AddTimerHandle` has
branched. -/
def addRun (time : Int32) : List (LockAction Nat (TimerPc Unit Unit)) :=
  [.call 0 (.addTimer [97] time () () 0), .run 0, .run 0, .run 0, .run 0]

/-- The same while thread 1 wants `m_stLock` and thread 2 holds the wheel. -/
def waitingRun : List (LockAction Nat (TimerPc Unit Unit)) :=
  addRun 1 ++
    [.call 1 (.removeTimer [98]), .run 1, .call 2 .updateLock, .run 2]

/-- `RemoveTimer` waits for `AddTimer`, which waits for `timer_update`; nobody
waits in a cycle. -/
theorem noHang_iff_waiting :
    ∃ s : TimerThreads Nat Unit Unit,
      runSteps step start waitingRun = some s ∧
        s.WaitsFor TimerPc.code 1 0 ∧ s.WaitsFor TimerPc.code 0 2 ∧
        s.NoHang TimerPc.code := by
  have hview : ((runSteps step (start : TimerThreads Nat Unit Unit) waitingRun).map fun s =>
        ((TimerPc.code (s.pcs 1)).wanted, s.owner .game,
          (TimerPc.code (s.pcs 0)).wanted, s.owner .wheel)) =
      some (some .game, some 0, some .wheel, some 2) := by
    decide +kernel
  obtain ⟨s, hrun, heq⟩ := Option.map_eq_some_iff.mp hview
  simp only [Prod.mk.injEq] at heq
  obtain ⟨hone, hgame, hzero, hwheel⟩ := heq
  have hpositive : ∀ a ∈ waitingRun, CallsPositive a := by
    simp [waitingRun, addRun, CallsPositive, TimerPc.delay]
  exact ⟨s, hrun, ⟨.game, hone, hgame⟩, ⟨.wheel, hzero, hwheel⟩,
    (noHang_iff waitingRun s hrun).mpr (runMeets_of_callsPositive hpositive)
      waitingRun [] s (List.append_nil _).symm hrun⟩

/-- `AddTimer("a", 0)` ends up waiting for the lock that it holds. -/
theorem noHang_fails_of_zero_delay :
    ∃ s : TimerThreads Nat Unit Unit,
      runSteps step start (addRun 0) = some s ∧ (TimerPc.code (s.pcs 0)).wanted = some .game ∧
        s.owner .game = some 0 ∧ ¬ s.NoHang TimerPc.code := by
  have hview : ((runSteps step (start : TimerThreads Nat Unit Unit) (addRun 0)).map fun s =>
        ((TimerPc.code (s.pcs 0)).wanted, s.owner .game)) =
      some (some .game, some 0) := by
    decide +kernel
  obtain ⟨s, hrun, heq⟩ := Option.map_eq_some_iff.mp hview
  simp only [Prod.mk.injEq] at heq
  obtain ⟨hwanted, howner⟩ := heq
  exact ⟨s, hrun, hwanted, howner, fun h => h.own 0 .game hwanted howner⟩

end TimerThreads

end Gametimer
end GameServer
