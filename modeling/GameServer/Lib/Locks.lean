import GameServer.Lib.Transition
import Mathlib.Logic.Relation
import Mathlib.Tactic

/-!
# Threads and locks that are not reentrant

Threads run code over a shared memory.  The code is a map from positions to
instructions: take a lock, give one back, or do something with the memory and
go on.  A thread that wants a lock which somebody holds, itself included, stays
where it is.

`Disciplined` says that the locks held can be read off the position.  From the
positions one then sees who waits for whom: where every thread asks only for
locks above those it holds, no set of threads waits in a cycle.

`Alone` is the other extreme, a thread that nobody interrupts: its instructions
are followed one by one, and the rules put them together to a run.
-/

namespace GameServer
namespace Lib

/-- What a thread does at a position. -/
inductive Instr (M L K : Type*) where
  /-- The thread is in no call. -/
  | idle
  | lock (lock : K) (next : L)
  | unlock (lock : K) (next : L)
  | act (run : M → Option (M × L))

/-- The lock that an instruction takes. -/
def Instr.wanted {M L K : Type*} : Instr M L K → Option K
  | .lock k _ => some k
  | _ => none

/-- The shared memory, the owners of the locks and the threads' positions. -/
structure LockState (τ M L K : Type*) where
  memory : M
  owner : K → Option τ
  pcs : τ → L

/-- A thread starts a call, or executes its instruction. -/
inductive LockAction (τ L : Type*) where
  | call (thread : τ) (position : L)
  | run (thread : τ)

namespace LockState

variable {τ M L K : Type*}

section Step

variable [DecidableEq τ] [DecidableEq K] (code : L → Instr M L K)
  (starts : L → Bool)

/-- One step.  A lock is taken only when it is free. -/
def step (s : LockState τ M L K) :
    LockAction τ L → Option (LockState τ M L K)
  | .call thread position =>
    match code (s.pcs thread) with
    | .idle =>
      if starts position then
        some { s with pcs := Function.update s.pcs thread position }
      else
        none
    | _ => none
  | .run thread =>
    match code (s.pcs thread) with
    | .idle => none
    | .lock lock next =>
      match s.owner lock with
      | some _ => none
      | none =>
        some { s with
          owner := Function.update s.owner lock (some thread)
          pcs := Function.update s.pcs thread next }
    | .unlock lock next =>
      some { s with
        owner := Function.update s.owner lock none
        pcs := Function.update s.pcs thread next }
    | .act run =>
      (run s.memory).map fun result =>
        { s with
          memory := result.1
          pcs := Function.update s.pcs thread result.2 }

/-- The steps with their guards. -/
inductive Transition (s : LockState τ M L K) :
    LockAction τ L → LockState τ M L K → Prop where
  | call {thread : τ} {position : L}
      (hidle : code (s.pcs thread) = .idle)
      (hstart : starts position = true) :
      Transition s (.call thread position)
        { s with pcs := Function.update s.pcs thread position }
  | lock {thread : τ} {lock : K} {next : L}
      (hcode : code (s.pcs thread) = .lock lock next)
      (hfree : s.owner lock = none) :
      Transition s (.run thread) { s with
        owner := Function.update s.owner lock (some thread)
        pcs := Function.update s.pcs thread next }
  | unlock {thread : τ} {lock : K} {next : L}
      (hcode : code (s.pcs thread) = .unlock lock next) :
      Transition s (.run thread) { s with
        owner := Function.update s.owner lock none
        pcs := Function.update s.pcs thread next }
  | act {thread : τ} {run : M → Option (M × L)} {memory : M} {next : L}
      (hcode : code (s.pcs thread) = .act run)
      (hrun : run s.memory = some (memory, next)) :
      Transition s (.run thread) { s with
        memory := memory
        pcs := Function.update s.pcs thread next }

variable {code starts}

theorem transition_of_step {s s' : LockState τ M L K} {a : LockAction τ L}
    (h : s.step code starts a = some s') :
    s.Transition code starts a s' := by
  cases a with
  | call thread position =>
    simp only [step] at h
    split at h
    · next hidle =>
      split_ifs at h with hstart
      cases h
      exact .call hidle hstart
    · cases h
  | run thread =>
    simp only [step] at h
    split at h
    · cases h
    · next hcode =>
      split at h
      · cases h
      · next hfree =>
        cases h
        exact .lock hcode hfree
    · next hcode =>
      cases h
      exact .unlock hcode
    · next hcode =>
      obtain ⟨⟨memory, next⟩, hrun, rfl⟩ := Option.map_eq_some_iff.mp h
      exact .act hcode hrun

end Step

section Alone

variable [DecidableEq K] (code : L → Instr M L K) (thread : τ)

/-- What a thread gets to when no other one comes in between: from a memory,
the owners of the locks and a position to others. -/
inductive Alone : M → (K → Option τ) → L → M → (K → Option τ) → L → Prop where
  | refl {memory : M} {owner : K → Option τ} {p : L} :
      Alone memory owner p memory owner p
  | lock {memory memory' : M} {owner owner' : K → Option τ} {p next p' : L}
      {lock : K} (hcode : code p = .lock lock next) (hfree : owner lock = none)
      (hrest : Alone memory (Function.update owner lock (some thread)) next
        memory' owner' p') :
      Alone memory owner p memory' owner' p'
  | unlock {memory memory' : M} {owner owner' : K → Option τ} {p next p' : L}
      {lock : K} (hcode : code p = .unlock lock next)
      (hrest : Alone memory (Function.update owner lock none) next
        memory' owner' p') :
      Alone memory owner p memory' owner' p'
  | act {memory memory₁ memory' : M} {owner owner' : K → Option τ}
      {p next p' : L} {run : M → Option (M × L)} (hcode : code p = .act run)
      (hrun : run memory = some (memory₁, next))
      (hrest : Alone memory₁ owner next memory' owner' p') :
      Alone memory owner p memory' owner' p'

variable {code thread} {memory memory' : M} {owner owner' : K → Option τ}
  {p p' : L}

/-- A lock that is taken and given back is as free as before. -/
theorem update_owner_none {lock : K} (hfree : owner lock = none) :
    Function.update (Function.update owner lock (some thread)) lock none =
      owner := by
  rw [Function.update_idem, ← hfree, Function.update_eq_self]

/-- The steps of such a thread are a run. -/
theorem Alone.exists_run [DecidableEq τ] (starts : L → Bool)
    (h : Alone code thread memory owner p memory' owner' p') (pcs : τ → L) :
    ∃ n, runSteps (step code starts) ⟨memory, owner, Function.update pcs thread p⟩
        (List.replicate n (.run thread)) =
      some ⟨memory', owner', Function.update pcs thread p'⟩ := by
  induction h with
  | refl => exact ⟨0, rfl⟩
  | lock hcode hfree _ ih =>
    obtain ⟨n, hrun⟩ := ih
    refine ⟨n + 1, runSteps_cons_eq_some_iff.mpr ⟨_, ?_, hrun⟩⟩
    simp only [step, Function.update_self, hcode, hfree, Function.update_idem]
  | unlock hcode _ ih =>
    obtain ⟨n, hrun⟩ := ih
    refine ⟨n + 1, runSteps_cons_eq_some_iff.mpr ⟨_, ?_, hrun⟩⟩
    simp only [step, Function.update_self, hcode, Function.update_idem]
  | act hcode hact _ ih =>
    obtain ⟨n, hrun⟩ := ih
    refine ⟨n + 1, runSteps_cons_eq_some_iff.mpr ⟨_, ?_, hrun⟩⟩
    simp only [step, Function.update_self, hcode, hact, Option.map_some, Function.update_idem]

/-- A whole call without interruption: only the memory is changed by it. -/
theorem Alone.exists_call [DecidableEq τ] {starts : L → Bool}
    {s : LockState τ M L K} (hidle : code (s.pcs thread) = .idle)
    (hstart : starts p = true)
    (h : Alone code thread s.memory s.owner p memory' s.owner (s.pcs thread)) :
    ∃ n, runSteps (step code starts) s (.call thread p :: List.replicate n (.run thread)) =
      some { s with memory := memory' } := by
  obtain ⟨n, hrun⟩ := h.exists_run starts s.pcs
  rw [Function.update_eq_self] at hrun
  refine ⟨n, runSteps_cons_eq_some_iff.mpr ⟨_, ?_, hrun⟩⟩
  simp only [step, hidle, hstart, if_true]

end Alone

/-- The locks held can be read off the position, at every position that is
reached: a lock that is already held is never taken. -/
structure Disciplined (code : L → Instr M L K) (starts : L → Bool)
    (Valid : L → Prop) (held : L → Set K) : Prop where
  start : ∀ p, starts p = true → Valid p ∧ held p = ∅
  idle : ∀ p, Valid p → code p = .idle → held p = ∅
  lock : ∀ p lock next, Valid p → code p = .lock lock next →
    lock ∉ held p → Valid next ∧ held next = insert lock (held p)
  unlock : ∀ p lock next, Valid p → code p = .unlock lock next →
    lock ∈ held p ∧ Valid next ∧ held next = held p \ {lock}
  act : ∀ p run memory memory' next, Valid p → code p = .act run →
    run memory = some (memory', next) → Valid next ∧ held next = held p

/-- The owners are the threads whose positions say so. -/
structure Inv (Valid : L → Prop) (held : L → Set K)
    (s : LockState τ M L K) : Prop where
  valid : ∀ thread, Valid (s.pcs thread)
  owner : ∀ thread lock, s.owner lock = some thread ↔
    lock ∈ held (s.pcs thread)

/-- One thread wants a lock that another one, or itself, holds. -/
def WaitsFor (code : L → Instr M L K) (s : LockState τ M L K)
    (waiting holding : τ) : Prop :=
  ∃ lock, (code (s.pcs waiting)).wanted = some lock ∧
    s.owner lock = some holding

/-- No thread asks for a lock that it holds, and no set of threads waits in a
cycle. -/
structure NoHang (code : L → Instr M L K) (s : LockState τ M L K) : Prop where
  own : ∀ thread lock, (code (s.pcs thread)).wanted = some lock →
    s.owner lock ≠ some thread
  cycle : ∀ thread, ¬ Relation.TransGen (s.WaitsFor code) thread thread

section Rules

variable {code : L → Instr M L K} {starts : L → Bool} {Valid : L → Prop}
  {held : L → Set K} {s : LockState τ M L K}

/-- The discipline is kept. -/
theorem inv_step [DecidableEq τ] [DecidableEq K]
    (hcode : Disciplined code starts Valid held) (s : LockState τ M L K)
    (a : LockAction τ L) (s' : LockState τ M L K) (h : s.Inv Valid held)
    (hstep : s.step code starts a = some s') : s'.Inv Valid held := by
  -- a thread's step changes nothing for the others
  have hvalid : ∀ thread next, Valid next → ∀ thread',
      Valid (Function.update s.pcs thread next thread') := by
    intro thread next hnext thread'
    rw [Function.update_apply]
    split_ifs
    · exact hnext
    · exact h.valid thread'
  have howner : ∀ thread next, held next = held (s.pcs thread) →
      ∀ thread' lock, s.owner lock = some thread' ↔
        lock ∈ held (Function.update s.pcs thread next thread') := by
    intro thread next hnext thread' lock
    rw [h.owner thread' lock, Function.update_apply]
    split_ifs with heq
    · rw [hnext, heq]
    · rfl
  cases transition_of_step hstep with
  | @call thread position hidle hstart =>
    obtain ⟨hnext, hempty⟩ := hcode.start position hstart
    have hold := hcode.idle _ (h.valid thread) hidle
    exact ⟨hvalid thread position hnext, howner thread position (hempty.trans hold.symm)⟩
  | @lock thread lock next hlock hfree =>
    have hnot : lock ∉ held (s.pcs thread) := by
      rw [← h.owner thread lock, hfree]
      simp
    obtain ⟨hnext, hheld⟩ :=
      hcode.lock _ lock next (h.valid thread) hlock hnot
    refine ⟨hvalid thread next hnext, fun thread' lock' => ?_⟩
    have hold := h.owner thread' lock'
    show Function.update s.owner lock (some thread) lock' = some thread' ↔
      lock' ∈ held (Function.update s.pcs thread next thread')
    rw [Function.update_apply, Function.update_apply]
    by_cases hl : lock' = lock
    · subst hl
      rw [if_pos rfl]
      split_ifs with ht
      · simp [ht, hheld]
      · rw [← hold, hfree]
        simp [Ne.symm ht]
    · rw [if_neg hl]
      split_ifs with ht
      · rw [hheld, Set.mem_insert_iff, hold, ht]
        simp [hl]
      · exact hold
  | @unlock thread lock next hunlock =>
    obtain ⟨hmem, hnext, hheld⟩ :=
      hcode.unlock _ lock next (h.valid thread) hunlock
    have hbefore := (h.owner thread lock).mpr hmem
    refine ⟨hvalid thread next hnext, fun thread' lock' => ?_⟩
    have hold := h.owner thread' lock'
    show Function.update s.owner lock none lock' = some thread' ↔
      lock' ∈ held (Function.update s.pcs thread next thread')
    rw [Function.update_apply, Function.update_apply]
    by_cases hl : lock' = lock
    · subst hl
      rw [if_pos rfl]
      split_ifs with ht
      · simp [hheld]
      · rw [← hold, hbefore]
        simp [Ne.symm ht]
    · rw [if_neg hl]
      split_ifs with ht
      · rw [hheld, Set.mem_sdiff, hold, ht]
        simp [hl]
      · exact hold
  | @act thread run memory next hact hrun =>
    obtain ⟨hnext, hheld⟩ :=
      hcode.act _ run _ memory next (h.valid thread) hact hrun
    exact ⟨hvalid thread next hnext, howner thread next hheld⟩

/-- The position asks for no lock that is not above the locks it holds. -/
def Ordered (code : L → Instr M L K) (held : L → Set K) (rank : K → Nat)
    (p : L) : Prop :=
  ∀ lock, (code p).wanted = some lock → ∀ lock' ∈ held p,
    rank lock' < rank lock

/-- Along a chain of waiting threads the locks wanted go up. -/
theorem rank_lt_of_waitsFor {rank : K → Nat} (h : s.Inv Valid held)
    (hordered : ∀ thread, Ordered code held rank (s.pcs thread))
    {thread thread' : τ}
    (hwaits : Relation.TransGen (s.WaitsFor code) thread thread')
    {lock lock' : K} (hlock : (code (s.pcs thread)).wanted = some lock)
    (hlock' : (code (s.pcs thread')).wanted = some lock') :
    rank lock < rank lock' := by
  induction hwaits generalizing lock' with
  | single hone =>
    obtain ⟨lock₁, hwanted, howner⟩ := hone
    obtain rfl : lock = lock₁ := Option.some.inj (hlock.symm.trans hwanted)
    exact hordered _ lock' hlock' lock ((h.owner _ lock).mp howner)
  | tail _ hone ih =>
    obtain ⟨lock₁, hwanted, howner⟩ := hone
    exact (ih hwanted).trans (hordered _ lock' hlock' lock₁ ((h.owner _ lock₁).mp howner))

/-- **Locks taken in order.**  Where every thread asks only for locks above
those it holds, nobody hangs. -/
theorem noHang_of_ordered {rank : K → Nat} (h : s.Inv Valid held)
    (hordered : ∀ thread, Ordered code held rank (s.pcs thread)) :
    s.NoHang code where
  own := by
    intro thread lock hwanted howner
    exact lt_irrefl _ (hordered thread lock hwanted lock ((h.owner thread lock).mp howner))
  cycle := by
    intro thread hcycle
    have hwaiting : ∃ holding, s.WaitsFor code thread holding := by
      cases hcycle using Relation.TransGen.head_induction_on with
      | single hone => exact ⟨_, hone⟩
      | head hone _ _ => exact ⟨_, hone⟩
    obtain ⟨_, lock, hwanted, -⟩ := hwaiting
    exact lt_irrefl _ (rank_lt_of_waitsFor h hordered hcycle hwanted hwanted)

end Rules

end LockState

end Lib
end GameServer
