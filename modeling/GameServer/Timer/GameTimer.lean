import GameServer.Lib.CString
import GameServer.Lib.StdMap
import GameServer.Timer.WheelRun

/-!
# Keyed timers on the wheel

`GameTimer` of `timer.h` and `timer.cpp`: a timer is added under a key, gets a
handle, and can be removed by its key.  Two maps lead from keys to handles and
from handles to contexts; the wheel's nodes carry a handle and the address of a
context.  Removing or replacing a timer deletes its context but leaves its node
in the wheel.

Contexts live on a heap whose addresses can be reused: the address that `new`
returns is a parameter of `AddTimer`, and any free address will do.  An
operation that would read a deleted context, or wait for a lock that its own
thread holds, has no result.  The types of callbacks and queues are arbitrary.
-/

namespace GameServer
namespace Gametimer

open Lib

/-- `std::string` and C strings. -/
abbrev TimerKey := List UInt8

/-- Addresses of timer contexts. -/
abbrev Address := Nat

/-- `GAMETIMER_MAX_TIMER_KEY_LEN`. -/
def gametimerMaxTimerKeyLen : Nat := 128

/-- `GAMETIMER_MAX_TIMER_KEY_LEN_EXTRA`. -/
def gametimerMaxTimerKeyLenExtra : Nat := 128 + 8

/-- `UINT32_MAX`. -/
def uint32Max : UInt32 := 4294967295

/-- `ST_TimerContext`. -/
structure TimerContext (κ ρ : Type*) where
  dwHandle : UInt32
  achTimerKey : List UInt8
  stCallback : κ
  rstQueue : ρ

/-- The key a context was created with. -/
def TimerContext.timerKey {κ ρ : Type*} (ctx : TimerContext κ ρ) : TimerKey :=
  cString ctx.achTimerKey

/-- `timer_event`. -/
structure TimerEvent where
  handle : UInt32
  ctx : Address
deriving DecidableEq

/-- `GameTimer` with its wheel, the heap of contexts, and as history the
contexts pushed by `ST_TimerContext::Timeout`. -/
structure GameTimer (κ ρ : Type*) where
  dwCounter : UInt32
  contextMap : UInt32 → Option Address
  timerKeyMap : TimerKey → Option UInt32
  heap : Address → Option (TimerContext κ ρ)
  wheel : WheelState TimerEvent
  pushed : List (TimerContext κ ρ)

/-- The loop of `_GenerateHandleID`.  `none` means that it has not ended within
the given number of rounds. -/
def generateHandleLoop (contextMap : UInt32 → Option Address) :
    Nat → UInt32 → Option UInt32
  | 0, _ => none
  | rounds + 1, dwCounter =>
    if (contextMap dwCounter).isSome ∨ dwCounter ≥ uint32Max then
      let dwCounter := if dwCounter ≥ uint32Max then 0 else dwCounter
      generateHandleLoop contextMap rounds (dwCounter + 1)
    else
      some dwCounter

/-- `_GenerateHandleID`: the handle, which is also the new counter.  After one
round for every value of the counter a loop still running runs forever. -/
def generateHandleID (contextMap : UInt32 → Option Address)
    (dwCounter : UInt32) : Option UInt32 :=
  generateHandleLoop contextMap (UInt32.size + 1) (dwCounter + 1)

/-- A loop that ends has found a handle that is not in use. -/
theorem generateHandleLoop_free {contextMap : UInt32 → Option Address}
    {rounds : Nat} {dwCounter handle : UInt32}
    (h : generateHandleLoop contextMap rounds dwCounter = some handle) :
    contextMap handle = none := by
  induction rounds generalizing dwCounter with
  | zero => cases h
  | succ rounds ih =>
    rw [generateHandleLoop] at h
    by_cases hbusy : (contextMap dwCounter).isSome ∨ dwCounter ≥ uint32Max
    · rw [if_pos hbusy] at h
      exact ih h
    · rw [if_neg hbusy] at h
      cases h
      exact Option.not_isSome_iff_eq_none.mp fun hsome =>
        hbusy (.inl hsome)

/-- The next counter value is taken if it is neither in use nor reserved. -/
theorem generateHandleID_of_free {contextMap : UInt32 → Option Address}
    {dwCounter : UInt32} (hfree : contextMap (dwCounter + 1) = none)
    (hmax : dwCounter + 1 < uint32Max) :
    generateHandleID contextMap dwCounter = some (dwCounter + 1) := by
  have hexit : ¬ ((contextMap (dwCounter + 1)).isSome ∨ dwCounter + 1 ≥ uint32Max) := by
    rw [hfree]
    rintro (hsome | hge)
    · cases hsome
    · exact absurd hmax (UInt32.not_lt.mpr hge)
  rw [generateHandleID, generateHandleLoop, if_neg hexit]

/-- A positive `int` as a delay. -/
def Delay.ofInt (time : Int32) : Option Delay :=
  if h : 0 < time.toInt then
    some ⟨time.toInt.toNat, by omega, by have := time.toInt_lt; omega⟩
  else
    none

theorem Delay.ofInt_eq_none_iff {time : Int32} : Delay.ofInt time = none ↔ ¬ 0 < time.toInt := by
  unfold Delay.ofInt
  split_ifs with h <;> simp [h]

namespace GameTimer

variable {κ ρ : Type*} {s s' : GameTimer κ ρ}

/-- A `GameTimer` after its constructor and `TimerInit`. -/
def construct : GameTimer κ ρ where
  dwCounter := 0
  contextMap := fun _ => none
  timerKeyMap := fun _ => none
  heap := fun _ => none
  wheel := .fresh
  pushed := []

/-- The context stored under a handle. -/
def context (s : GameTimer κ ρ) (handle : UInt32) :
    Option (TimerContext κ ρ) :=
  (s.contextMap handle).bind s.heap

/-- The state after the context of a handle has been deleted and its entries
have been erased. -/
def dropHandle (s : GameTimer κ ρ) (handle : UInt32) (address : Address)
    (key : TimerKey) : GameTimer κ ρ :=
  { s with
    timerKeyMap := Function.update s.timerKeyMap key none
    heap := Function.update s.heap address none
    contextMap := Function.update s.contextMap handle none }

/-- `_RemoveTimerHandle`.  The handle is gone after the first round of its
loop. -/
def removeTimerHandle (s : GameTimer κ ρ) (handle : UInt32) :
    Option (GameTimer κ ρ) :=
  match s.contextMap handle with
  | none => some s
  | some address =>
    (s.heap address).map fun ctx => s.dropHandle handle address ctx.timerKey

/-- What `_RemoveTimerHandle` can do. -/
theorem removeTimerHandle_cases {handle : UInt32} (h : s.removeTimerHandle handle = some s') :
    (s.contextMap handle = none ∧ s' = s) ∨ ∃ address ctx, s.contextMap handle = some address ∧
        s.heap address = some ctx ∧
        s' = s.dropHandle handle address ctx.timerKey := by
  unfold removeTimerHandle at h
  split at h
  · next hmap =>
    cases h
    exact .inl ⟨hmap, rfl⟩
  · next address hmap =>
    obtain ⟨ctx, hctx, rfl⟩ := Option.map_eq_some_iff.mp h
    exact .inr ⟨address, ctx, hmap, hctx, rfl⟩

/-- `TimerTimeout`, with `Timeout` pushing a copy of the context. -/
def timerTimeout (s : GameTimer κ ρ) (event : TimerEvent) :
    Option (GameTimer κ ρ) :=
  let fired :=
    match s.contextMap event.handle with
    | some _ => (s.heap event.ctx).map fun ctx =>
      { s with pushed := s.pushed ++ [ctx] }
    | none => some s
  fired.bind fun s => s.removeTimerHandle event.handle

/-- The contexts that `TimerTimeout` pushes. -/
def timedOut (s : GameTimer κ ρ) (event : TimerEvent) :
    List (TimerContext κ ρ) :=
  match s.contextMap event.handle with
  | some _ => (s.heap event.ctx).toList
  | none => []

/-- What `TimerTimeout` does. -/
theorem timerTimeout_cases {event : TimerEvent} (h : s.timerTimeout event = some s') :
    { s with pushed := s.pushed ++ s.timedOut event }.removeTimerHandle event.handle = some s' := by
  obtain ⟨s₁, hfired, h⟩ := Option.bind_eq_some_iff.mp h
  have hs₁ : s₁ = { s with pushed := s.pushed ++ s.timedOut event } := by
    unfold timedOut
    split at hfired
    · obtain ⟨ctx, hctx, rfl⟩ := Option.map_eq_some_iff.mp hfired
      rw [hctx]
      rfl
    · cases hfired
      rw [List.append_nil]
  rw [← hs₁]
  exact h

/-- `_AddTimerHandle`.  A delay that is not positive calls `TimerTimeout`, which
waits for the lock that `AddTimer` holds. -/
def addTimerHandle (s : GameTimer κ ρ) (handle : UInt32) (time : Int32)
    (address : Address) : Option (GameTimer κ ρ) :=
  (Delay.ofInt time).bind fun delay =>
    (s.wheel.step (.add delay ⟨handle, address⟩)).map fun wheel =>
      { s with wheel := wheel }

/-- Remove the timer stored under a key, if there is one. -/
def removeKey (s : GameTimer κ ρ) (key : TimerKey) : Option (GameTimer κ ρ) :=
  match s.timerKeyMap key with
  | some handle => s.removeTimerHandle handle
  | none => some s

/-- The part of `AddTimer` under the lock up to `_AddTimerHandle`, with the
handle of the new timer.  `address` is what `new` returns, which has to be free
after the timer of the same key has been removed. -/
def registerTimer (s : GameTimer κ ρ) (key : TimerKey)
    (callback : κ) (queue : ρ) (address : Address) :
    Option (GameTimer κ ρ × UInt32) :=
  (s.removeKey key).bind fun s =>
    (generateHandleID s.contextMap s.dwCounter).bind fun handle =>
      if (s.heap address).isSome then
        none
      else
        let ctx : TimerContext κ ρ :=
          ⟨handle, strncpy gametimerMaxTimerKeyLenExtra key, callback, queue⟩
        some ({ s with
          dwCounter := handle
          heap := Function.update s.heap address (some ctx)
          contextMap := mapInsert s.contextMap handle address
          timerKeyMap := mapInsert s.timerKeyMap key handle }, handle)

/-- What `registerTimer` does. -/
theorem registerTimer_cases {key : TimerKey} {callback : κ} {queue : ρ}
    {address : Address} {handle : UInt32}
    (h : s.registerTimer key callback queue address = some (s', handle)) :
    ∃ s₁, s.removeKey key = some s₁ ∧ generateHandleID s₁.contextMap s₁.dwCounter = some handle ∧
      s₁.heap address = none ∧
      s' = { s₁ with
        dwCounter := handle
        heap := Function.update s₁.heap address (some ⟨handle,
          strncpy gametimerMaxTimerKeyLenExtra key, callback, queue⟩)
        contextMap := mapInsert s₁.contextMap handle address
        timerKeyMap := mapInsert s₁.timerKeyMap key handle } := by
  obtain ⟨s₁, hremove, h⟩ := Option.bind_eq_some_iff.mp h
  obtain ⟨handle', hhandle, h⟩ := Option.bind_eq_some_iff.mp h
  split_ifs at h with hfree
  cases h
  exact ⟨s₁, hremove, hhandle, Option.not_isSome_iff_eq_none.mp hfree, rfl⟩

/-- `AddTimer`, with the value it returns. -/
def addTimer (s : GameTimer κ ρ) (key : TimerKey) (time : Int32) (callback : κ)
    (queue : ρ) (address : Address) : Option (GameTimer κ ρ × Int) :=
  if gametimerMaxTimerKeyLen < key.length then
    some (s, -2)
  else
    (s.registerTimer key callback queue address).bind fun r =>
      (r.1.addTimerHandle r.2 time address).map fun s => (s, 0)

/-- What `AddTimer` does. -/
theorem addTimer_cases {key : TimerKey} {time : Int32} {callback : κ}
    {queue : ρ} {address : Address} {r : GameTimer κ ρ × Int}
    (h : s.addTimer key time callback queue address = some r) :
    (gametimerMaxTimerKeyLen < key.length ∧ r.1 = s) ∨
      (key.length ≤ gametimerMaxTimerKeyLen ∧ ∃ s₁ handle delay wheel,
        s.registerTimer key callback queue address = some (s₁, handle) ∧
          s₁.wheel.step (.add delay ⟨handle, address⟩) = some wheel ∧
          r.1 = { s₁ with wheel := wheel }) := by
  unfold addTimer at h
  split_ifs at h with hlong
  · cases h
    exact .inl ⟨hlong, rfl⟩
  · obtain ⟨⟨s₁, handle⟩, hregister, h⟩ := Option.bind_eq_some_iff.mp h
    obtain ⟨s₂, hadd, rfl⟩ := Option.map_eq_some_iff.mp h
    obtain ⟨delay, -, hadd⟩ := Option.bind_eq_some_iff.mp hadd
    obtain ⟨wheel, hwheel, rfl⟩ := Option.map_eq_some_iff.mp hadd
    exact .inr ⟨Nat.le_of_not_lt hlong, s₁, handle, delay, wheel, hregister, hwheel, rfl⟩

/-- `RemoveTimer`, with the value it returns. -/
def removeTimer (s : GameTimer κ ρ) (key : TimerKey) :
    Option (GameTimer κ ρ × Int) :=
  if gametimerMaxTimerKeyLen < key.length then
    some (s, -2)
  else
    (s.removeKey key).map fun s =>
      ({ s with timerKeyMap := Function.update s.timerKeyMap key none }, 0)

/-- What `RemoveTimer` does. -/
theorem removeTimer_cases {key : TimerKey} {r : GameTimer κ ρ × Int}
    (h : s.removeTimer key = some r) :
    (gametimerMaxTimerKeyLen < key.length ∧ r.1 = s) ∨
      (key.length ≤ gametimerMaxTimerKeyLen ∧ ∃ s₁, s.removeKey key = some s₁ ∧ r.1 = { s₁ with
          timerKeyMap := Function.update s₁.timerKeyMap key none }) := by
  unfold removeTimer at h
  split_ifs at h with hlong
  · cases h
    exact .inl ⟨hlong, rfl⟩
  · obtain ⟨s₁, hremove, rfl⟩ := Option.map_eq_some_iff.mp h
    exact .inr ⟨Nat.le_of_not_lt hlong, s₁, hremove, rfl⟩

/-- The actions of the threads that use the timer.  Each call is one atomic
step under `m_stLock`; the updating thread takes the wheel's steps. -/
inductive Action (κ ρ : Type*) where
  | addTimer (key : TimerKey) (time : Int32) (callback : κ) (queue : ρ)
      (address : Address)
  | removeTimer (key : TimerKey)
  /-- `timer_update` is called and runs up to its first unlock. -/
  | update
  /-- `TimerTimeout` for the next node of the detached list. -/
  | timeout
  /-- `timer_execute` takes the wheel's lock again. -/
  | relock

/-- One action. -/
def step (s : GameTimer κ ρ) : Action κ ρ → Option (GameTimer κ ρ)
  | .addTimer key time callback queue address =>
    (s.addTimer key time callback queue address).map Prod.fst
  | .removeTimer key => (s.removeTimer key).map Prod.fst
  | .update => (s.wheel.step .update).map fun wheel => { s with wheel := wheel }
  | .timeout =>
    match s.wheel.pc with
    | .dispatching _ (node :: _) =>
      (s.timerTimeout node.event).bind fun s =>
        (s.wheel.step .dispatch).map fun wheel => { s with wheel := wheel }
    | _ => none
  | .relock => (s.wheel.step .relock).map fun wheel => { s with wheel := wheel }

end GameTimer

end Gametimer
end GameServer
