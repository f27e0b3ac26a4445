import GameServer.Lib.Transition

/-!
# From the wait queue to the execute queue

The timer thread pushes the contexts that have expired to
`m_stTimerWaitQueue`.  Each round of the logic thread swaps that queue with
`m_stTimerExecuteQueue`, clears it, and executes what it has got.  The clearing
falls on the old content of the execute queue, so it is harmless only because
the round before has left nothing there and nobody pushes in between.

The two threads are modelled instruction by instruction, over contexts of any
type; their histories are `pushed` and `executed`.  `executed_in_push_order`
says that no context is lost, repeated or overtaken, at any point of any
interleaving.  `exists_fifo_run` puts it in other words: the two queues are one
first-in-first-out queue.
-/

namespace GameServer
namespace Gametimer

open Lib

/-! ## The queues -/

/-- `TimerQueue`; the flag is `m_stLock`. -/
structure TimerQueue (γ : Type*) where
  stLock : Bool
  vecQueue : List γ
deriving Repr, DecidableEq

namespace TimerQueue

variable {γ : Type*}

/-- A new queue. -/
def construct : TimerQueue γ := ⟨false, []⟩

/-- `spinlock_lock(&m_stLock)`: there is no step while the lock is taken. -/
def spinlockLock (queue : TimerQueue γ) : Option (TimerQueue γ) :=
  if queue.stLock then none else some { queue with stLock := true }

def spinlockUnlock (queue : TimerQueue γ) : TimerQueue γ :=
  { queue with stLock := false }

/-- `TimerQueue::Init`. -/
def init (queue : TimerQueue γ) : TimerQueue γ :=
  { queue with vecQueue := [] }

/-- `m_vecQueue.push_back(rstCtx)`. -/
def pushBack (queue : TimerQueue γ) (ctx : γ) : TimerQueue γ :=
  { queue with vecQueue := queue.vecQueue ++ [ctx] }

theorem spinlockLock_eq_some_iff {queue queue' : TimerQueue γ} :
    queue.spinlockLock = some queue' ↔
      queue.stLock = false ∧ queue' = { queue with stLock := true } := by
  unfold spinlockLock
  cases queue.stLock <;> simp [eq_comm]

end TimerQueue

/-! ## The threads -/

/-- The timer thread in `PushQueue`. -/
inductive PushPc (γ : Type*) where
  | idle
  | lock (ctx : γ)
  | pushBack (ctx : γ)
  | unlock
deriving Repr, DecidableEq

/-- The logic thread in `_ProcessTimerCallback`: the instructions of
`PrepareExecute`, then the loop with its index. -/
inductive RoundPc where
  | idle
  | lock
  | swap
  | init
  | unlock
  | callback (i : Nat)
deriving Repr, DecidableEq

/-- Both threads and both queues.  `pushed` has a context from its `push_back`
on, `executed` from its `Callback` on. -/
structure TimerQueues (γ : Type*) where
  /-- `m_stTimerWaitQueue` -/
  wait : TimerQueue γ
  /-- `m_stTimerExecuteQueue` -/
  execute : TimerQueue γ
  timer : PushPc γ
  logic : RoundPc
  pushed : List γ
  executed : List γ
deriving Repr, DecidableEq

namespace TimerQueues

variable {γ : Type*}

def construct : TimerQueues γ := ⟨.construct, .construct, .idle, .idle, [], []⟩

/-- A thread calls its function or takes its next step in it. -/
inductive Action (γ : Type*) where
  | pushQueue (ctx : γ)
  | timer
  | processTimerCallback
  | logic
deriving Repr, DecidableEq

/-- The next instruction of `PushQueue`. -/
def stepTimer (s : TimerQueues γ) : Option (TimerQueues γ) :=
  match s.timer with
  | .idle => none
  | .lock ctx => s.wait.spinlockLock.map fun wait =>
    { s with wait := wait, timer := .pushBack ctx }
  | .pushBack ctx => some { s with
      wait := s.wait.pushBack ctx
      timer := .unlock
      pushed := s.pushed ++ [ctx] }
  | .unlock => some { s with wait := s.wait.spinlockUnlock, timer := .idle }

/-- The next instruction of `_ProcessTimerCallback`. -/
def stepLogic (s : TimerQueues γ) : Option (TimerQueues γ) :=
  match s.logic with
  | .idle => none
  | .lock => s.wait.spinlockLock.map fun wait =>
    { s with wait := wait, logic := .swap }
  | .swap => some { s with
      wait := { s.wait with vecQueue := s.execute.vecQueue }
      execute := { s.execute with vecQueue := s.wait.vecQueue }
      logic := .init }
  | .init => some { s with wait := s.wait.init, logic := .unlock }
  | .unlock => some { s with
      wait := s.wait.spinlockUnlock
      logic := .callback 0 }
  | .callback i =>
    match s.execute.vecQueue[i]? with
    | some ctx => some { s with
        logic := .callback (i + 1)
        executed := s.executed ++ [ctx] }
    -- the end of the vector
    | none => some { s with execute := s.execute.init, logic := .idle }

def step (s : TimerQueues γ) : Action γ → Option (TimerQueues γ)
  | .pushQueue ctx =>
    match s.timer with
    | .idle => some { s with timer := .lock ctx }
    | _ => none
  | .timer => s.stepTimer
  | .processTimerCallback =>
    match s.logic with
    | .idle => some { s with logic := .lock }
    | _ => none
  | .logic => s.stepLogic

/-- The part of the execute queue that has not been executed. -/
def unexecuted (s : TimerQueues γ) : List γ :=
  match s.logic with
  | .callback i => s.execute.vecQueue.drop i
  | _ => s.execute.vecQueue

/-! ## The invariant -/

end TimerQueues

/-- The timer thread holds the lock of the wait queue. -/
def PushPc.holds {γ : Type*} : PushPc γ → Bool
  | .idle => false
  | .lock _ => false
  | .pushBack _ => true
  | .unlock => true

/-- The logic thread holds the lock of the wait queue. -/
def RoundPc.holds : RoundPc → Bool
  | .idle => false
  | .lock => false
  | .swap => true
  | .init => true
  | .unlock => true
  | .callback _ => false

/-- What one round leaves behind for the next: the execute queue is empty until
the swap, and with it the wait queue between the swap and the clearing. -/
def RoundPc.Cleared {γ : Type*} (execute wait : List γ) : RoundPc → Prop
  | .idle => execute = []
  | .lock => execute = []
  | .swap => execute = []
  | .init => wait = []
  | .unlock => True
  | .callback _ => True

/-- A push that does not fall between the swap and the clearing. -/
theorem RoundPc.Cleared.of_not_holds {γ : Type*} {execute wait wait' : List γ}
    {pc : RoundPc} (h : pc.Cleared execute wait) (hfree : pc.holds = false) :
    pc.Cleared execute wait' := by
  cases pc with
  | init => cases hfree
  | idle => exact h
  | lock => exact h
  | swap => exact h
  | unlock => trivial
  | callback i => trivial

namespace TimerQueues

variable {γ : Type*} {s s' : TimerQueues γ}

/-- What holds in every run. -/
structure Inv (s : TimerQueues γ) : Prop where
  order : s.executed ++ s.unexecuted ++ s.wait.vecQueue = s.pushed
  cleared : s.logic.Cleared s.execute.vecQueue s.wait.vecQueue
  locked : s.wait.stLock = (s.timer.holds || s.logic.holds)
  exclusive : (s.timer.holds && s.logic.holds) = false

theorem inv_construct : (construct : TimerQueues γ).Inv :=
  ⟨rfl, rfl, rfl, rfl⟩

/-- While the timer thread holds the lock, the logic thread does not. -/
theorem Inv.logic_free (h : s.Inv) (hholds : s.timer.holds = true) : s.logic.holds = false := by
  have hexclusive := h.exclusive
  rwa [hholds, Bool.true_and] at hexclusive

theorem Inv.timer_free (h : s.Inv) (hholds : s.logic.holds = true) : s.timer.holds = false := by
  have hexclusive := h.exclusive
  rwa [hholds, Bool.and_true] at hexclusive

/-- Whoever gets the lock finds that nobody holds it. -/
theorem Inv.nobody (h : s.Inv) (hfree : s.wait.stLock = false) :
    s.timer.holds = false ∧ s.logic.holds = false := by
  have hlocked := h.locked
  rw [hfree] at hlocked
  exact Bool.or_eq_false_iff.mp hlocked.symm

theorem Inv.stepTimer (h : s.Inv) (hstep : s.stepTimer = some s') : s'.Inv := by
  obtain ⟨wait, execute, timer, logic, pushed, executed⟩ := s
  cases timer with
  | idle => cases hstep
  | lock ctx =>
    obtain ⟨wait', hlock, rfl⟩ := Option.map_eq_some_iff.mp hstep
    obtain ⟨hfree, rfl⟩ := TimerQueue.spinlockLock_eq_some_iff.mp hlock
    obtain ⟨-, hlogic⟩ := h.nobody hfree
    exact ⟨h.order, h.cleared, rfl, hlogic⟩
  | pushBack ctx =>
    cases hstep
    have hlogic := h.logic_free rfl
    refine ⟨?_, h.cleared.of_not_holds hlogic, h.locked, h.exclusive⟩
    show executed ++ _ ++ (wait.vecQueue ++ [ctx]) = pushed ++ [ctx]
    rw [← List.append_assoc]
    exact congrArg (· ++ [ctx]) h.order
  | unlock =>
    cases hstep
    have hlogic := h.logic_free rfl
    refine ⟨h.order, h.cleared, ?_, rfl⟩
    show false = (false || logic.holds)
    rw [hlogic]
    rfl

theorem Inv.stepLogic (h : s.Inv) (hstep : s.stepLogic = some s') : s'.Inv := by
  obtain ⟨wait, execute, timer, logic, pushed, executed⟩ := s
  cases logic with
  | idle => cases hstep
  | lock =>
    obtain ⟨wait', hlock, rfl⟩ := Option.map_eq_some_iff.mp hstep
    obtain ⟨hfree, rfl⟩ := TimerQueue.spinlockLock_eq_some_iff.mp hlock
    obtain ⟨htimer, -⟩ := h.nobody hfree
    refine ⟨h.order, h.cleared, (Bool.or_true _).symm, ?_⟩
    show (timer.holds && true) = false
    rw [htimer]
    rfl
  | swap =>
    cases hstep
    have hempty : execute.vecQueue = [] := h.cleared
    refine ⟨?_, hempty, h.locked, h.exclusive⟩
    have horder : executed ++ execute.vecQueue ++ wait.vecQueue = pushed :=
      h.order
    show executed ++ wait.vecQueue ++ execute.vecQueue = pushed
    rw [hempty, List.append_nil] at horder ⊢
    exact horder
  | init =>
    cases hstep
    have hempty : wait.vecQueue = [] := h.cleared
    refine ⟨?_, trivial, h.locked, h.exclusive⟩
    have horder : executed ++ execute.vecQueue ++ wait.vecQueue = pushed :=
      h.order
    rw [hempty] at horder
    exact horder
  | unlock =>
    cases hstep
    have htimer := h.timer_free rfl
    refine ⟨h.order, trivial, ?_, Bool.and_false _⟩
    show false = (timer.holds || false)
    rw [htimer]
    rfl
  | callback i =>
    have horder : executed ++ execute.vecQueue.drop i ++ wait.vecQueue =
        pushed := h.order
    rw [TimerQueues.stepLogic] at hstep
    dsimp only at hstep
    cases hctx : execute.vecQueue[i]? with
    | none =>
      rw [hctx] at hstep
      cases hstep
      refine ⟨?_, rfl, h.locked, h.exclusive⟩
      rw [List.drop_eq_nil_iff.mpr (List.getElem?_eq_none_iff.mp hctx)] at horder
      exact horder
    | some ctx =>
      rw [hctx] at hstep
      cases hstep
      refine ⟨?_, trivial, h.locked, h.exclusive⟩
      obtain ⟨hlt, hget⟩ := List.getElem?_eq_some_iff.mp hctx
      rw [List.drop_eq_getElem_cons hlt, hget] at horder
      show executed ++ [ctx] ++ execute.vecQueue.drop (i + 1) ++ wait.vecQueue = pushed
      rw [← horder, List.append_assoc executed [ctx]]
      rfl

theorem inv_step (s : TimerQueues γ) (a : Action γ) (s' : TimerQueues γ)
    (h : s.Inv) (hstep : s.step a = some s') : s'.Inv := by
  obtain ⟨wait, execute, timer, logic, pushed, executed⟩ := s
  cases a with
  | pushQueue ctx =>
    cases timer with
    | idle =>
      cases hstep
      exact ⟨h.order, h.cleared, h.locked, h.exclusive⟩
    | lock ctx => cases hstep
    | pushBack ctx => cases hstep
    | unlock => cases hstep
  | timer => exact h.stepTimer hstep
  | processTimerCallback =>
    cases logic with
    | idle =>
      cases hstep
      exact ⟨h.order, h.cleared, h.locked, h.exclusive⟩
    | lock => cases hstep
    | swap => cases hstep
    | init => cases hstep
    | unlock => cases hstep
    | callback i => cases hstep
  | logic => exact h.stepLogic hstep

/-! ## Nothing is lost, repeated or overtaken -/

/-- At every point of every interleaving, what has been executed, what is left
of the execute queue and the wait queue are together what has been pushed. -/
theorem executed_in_push_order {actions : List (Action γ)} {s : TimerQueues γ}
    (hrun : runSteps step construct actions = some s) :
    s.executed ++ s.unexecuted ++ s.wait.vecQueue = s.pushed :=
  (runSteps_invariant inv_step inv_construct hrun).order

/-- Three contexts in two rounds; the second is pushed behind the clearing of
the first round, the third behind that of the second one. -/
theorem executed_in_push_order_three :
    ∃ s : TimerQueues Nat, runSteps step construct
        [.pushQueue 1, .timer, .processTimerCallback, .timer, .timer, .logic,
          .pushQueue 2, .logic, .logic, .logic, .timer, .timer, .logic, .timer,
          .logic, .pushQueue 3, .processTimerCallback, .logic, .logic, .logic,
          .logic, .timer, .timer, .logic] = some s ∧
      s.executed = [1, 2] ∧ s.unexecuted = [] ∧ s.wait.vecQueue = [3] ∧
      s.executed ++ s.unexecuted ++ s.wait.vecQueue = s.pushed := by
  obtain ⟨s, hrun⟩ : ∃ s : TimerQueues Nat, runSteps step construct
      [.pushQueue 1, .timer, .processTimerCallback, .timer, .timer, .logic,
        .pushQueue 2, .logic, .logic, .logic, .timer, .timer, .logic, .timer,
        .logic, .pushQueue 3, .processTimerCallback, .logic, .logic, .logic,
        .logic, .timer, .timer, .logic] = some s := ⟨_, rfl⟩
  have horder := executed_in_push_order hrun
  cases hrun
  exact ⟨_, rfl, rfl, rfl, rfl, horder⟩

end TimerQueues

/-! ## One queue -/

/-- What the two queues are for: a queue of contexts that are served in the
order in which they have come. -/
structure Fifo (γ : Type*) where
  waiting : List γ
  served : List γ

namespace Fifo

variable {γ : Type*}

inductive Event (γ : Type*) where
  | push (ctx : γ)
  | serve (ctx : γ)

/-- Only the first in the queue can be served. -/
def step [DecidableEq γ] (q : Fifo γ) : Event γ → Option (Fifo γ)
  | .push ctx => some { q with waiting := q.waiting ++ [ctx] }
  | .serve ctx =>
    if q.waiting.head? = some ctx then
      some ⟨q.waiting.tail, q.served ++ [ctx]⟩
    else
      none

end Fifo

namespace TimerQueues

variable {γ : Type*} {s s' : TimerQueues γ}

/-- What a step shows of itself: a `push_back` or a `Callback`. -/
def shows (s : TimerQueues γ) : Action γ → List (Fifo.Event γ)
  | .timer =>
    match s.timer with
    | .pushBack ctx => [.push ctx]
    | _ => []
  | .logic =>
    match s.logic with
    | .callback i => s.execute.vecQueue[i]?.toList.map .serve
    | _ => []
  | _ => []

/-- What a step does to the histories. -/
inductive Shown (s s' : TimerQueues γ) : List (Fifo.Event γ) → Prop
  | nothing (hpushed : s'.pushed = s.pushed)
      (hexecuted : s'.executed = s.executed) : Shown s s' []
  | push (ctx : γ) (hpushed : s'.pushed = s.pushed ++ [ctx])
      (hexecuted : s'.executed = s.executed) : Shown s s' [.push ctx]
  | serve (ctx : γ) (hpushed : s'.pushed = s.pushed)
      (hexecuted : s'.executed = s.executed ++ [ctx]) : Shown s s' [.serve ctx]

theorem shown_stepTimer (hstep : s.stepTimer = some s') : Shown s s' (s.shows .timer) := by
  obtain ⟨wait, execute, timer, logic, pushed, executed⟩ := s
  cases timer with
  | idle => cases hstep
  | lock ctx =>
    obtain ⟨wait', -, rfl⟩ := Option.map_eq_some_iff.mp hstep
    exact .nothing rfl rfl
  | pushBack ctx =>
    cases hstep
    exact .push ctx rfl rfl
  | unlock =>
    cases hstep
    exact .nothing rfl rfl

theorem shown_stepLogic (hstep : s.stepLogic = some s') : Shown s s' (s.shows .logic) := by
  obtain ⟨wait, execute, timer, logic, pushed, executed⟩ := s
  cases logic with
  | idle => cases hstep
  | lock =>
    obtain ⟨wait', -, rfl⟩ := Option.map_eq_some_iff.mp hstep
    exact .nothing rfl rfl
  | swap =>
    cases hstep
    exact .nothing rfl rfl
  | init =>
    cases hstep
    exact .nothing rfl rfl
  | unlock =>
    cases hstep
    exact .nothing rfl rfl
  | callback i =>
    rw [TimerQueues.stepLogic] at hstep
    rw [shows]
    dsimp only at hstep ⊢
    cases hctx : execute.vecQueue[i]? with
    | none =>
      rw [hctx] at hstep
      cases hstep
      exact .nothing rfl rfl
    | some ctx =>
      rw [hctx] at hstep
      cases hstep
      exact .serve ctx rfl rfl

theorem shown_of_step {a : Action γ} (hstep : s.step a = some s') : Shown s s' (s.shows a) := by
  cases a with
  | pushQueue ctx =>
    rw [step] at hstep
    split at hstep
    · cases hstep
      exact .nothing rfl rfl
    · cases hstep
  | timer => exact shown_stepTimer hstep
  | processTimerCallback =>
    rw [step] at hstep
    split at hstep
    · cases hstep
      exact .nothing rfl rfl
    · cases hstep
  | logic => exact shown_stepLogic hstep

/-- The queue that the two queues stand for. -/
structure AsFifo (s : TimerQueues γ) (q : Fifo γ) : Prop where
  inv : s.Inv
  served : q.served = s.executed
  all : q.served ++ q.waiting = s.pushed

/-- What is waiting is what has not been executed. -/
theorem AsFifo.waiting_eq {q : Fifo γ} (h : s.AsFifo q) :
    q.waiting = s.unexecuted ++ s.wait.vecQueue := by
  have horder := h.inv.order
  rw [← h.all, ← h.served, List.append_assoc] at horder
  exact (List.append_cancel_left horder).symm

variable [DecidableEq γ]

/-- Each step is one of the queue or leaves it as it is. -/
theorem AsFifo.step {q : Fifo γ} (h : s.AsFifo q) {a : Action γ} (hstep : s.step a = some s') :
    ∃ q', runSteps Fifo.step q (s.shows a) = some q' ∧ s'.AsFifo q' := by
  have hinv := inv_step s a s' h.inv hstep
  generalize s.shows a = events, shown_of_step hstep = hshown
  cases hshown with
  | nothing hpushed hexecuted =>
    exact ⟨q, rfl, hinv, h.served.trans hexecuted.symm, h.all.trans hpushed.symm⟩
  | push ctx hpushed hexecuted =>
    refine ⟨_, rfl, hinv, h.served.trans hexecuted.symm, ?_⟩
    show q.served ++ (q.waiting ++ [ctx]) = s'.pushed
    rw [← List.append_assoc, h.all, hpushed]
  | serve ctx hpushed hexecuted =>
    have horder := hinv.order
    rw [hexecuted, hpushed, ← h.all, ← h.served, List.append_assoc, List.append_assoc] at horder
    have hwaiting := (List.append_cancel_left horder).symm
    refine ⟨⟨q.waiting.tail, q.served ++ [ctx]⟩, ?_, hinv, ?_, ?_⟩
    · rw [runSteps_cons, Fifo.step, if_pos (by rw [hwaiting]; rfl)]
      rfl
    · show q.served ++ [ctx] = s'.executed
      rw [h.served, hexecuted]
    · show q.served ++ [ctx] ++ q.waiting.tail = s'.pushed
      rw [List.append_assoc, hpushed, ← h.all, hwaiting]
      rfl

/-- The two queues behave as one: every interleaving is a run of a
first-in-first-out queue. -/
theorem exists_fifo_run {actions : List (Action γ)}
    (hrun : runSteps step construct actions = some s) :
    ∃ q, runSteps Fifo.step ⟨[], []⟩ (traceOf step shows construct actions) = some q ∧
      q.served = s.executed ∧
      q.waiting = s.unexecuted ++ s.wait.vecQueue := by
  have hmeets : RunMeets step (fun _ _ => True) (construct : TimerQueues γ) actions :=
    runMeets_of_forall (fun _ _ _ => trivial) _
  have hinit : (construct : TimerQueues γ).AsFifo ⟨[], []⟩ :=
    ⟨inv_construct, rfl, rfl⟩
  have hstep : ∀ (s : TimerQueues γ) (a : Action γ) (s' : TimerQueues γ)
      (q : Fifo γ), s.AsFifo q → True → s.step a = some s' →
        ∃ q', runSteps Fifo.step q (s.shows a) = some q' ∧ s'.AsFifo q' :=
    fun _ _ _ _ hrel _ hnext => hrel.step hnext
  obtain ⟨q, hfifo, hrel⟩ :=
    runSteps_simulates_of_meets hstep hinit hmeets hrun
  exact ⟨q, hfifo, hrel.served, hrel.waiting_eq⟩

end TimerQueues
end Gametimer
end GameServer
