import GameServer.Common.SnowFlake
import GameServer.Lib.StdMap
import GameServer.Lib.Transition

/-!
# The pool of connectors

`ConnectorPool` of `connector.h` and `connector.cpp` is a
`std::map<uint64_t, Connector*>`.  It is searched with the whole sequence id,
but `AddConnector` inserts a `std::pair<int32_t, Connector*>`: the id is cut to
32 bits and extended again by its sign.  `pairKey_eq_iff` says which ids
survive that, and `serves_iff` that the pool works exactly as long as only such
ids are added.  Of the ids of `SnowFlakeUUID` those survive whose timestamp is
within the first 512 microseconds of its period of 33.6 seconds.
-/

namespace GameServer
namespace Network

open Lib

/-- The key of `std::pair<int32_t, Connector*>(iClientSeq, ..)` in a map whose
keys are `uint64_t`. -/
def pairKey (iClientSeq : UInt64) : UInt64 :=
  iClientSeq.toUInt32.toInt32.toInt64.toUInt64

/-- The ids that keep their value. -/
theorem pairKey_eq_iff (iClientSeq : UInt64) :
    pairKey iClientSeq = iClientSeq ↔
      iClientSeq.toNat < 2 ^ 31 ∨ 2 ^ 64 - 2 ^ 31 ≤ iClientSeq.toNat := by
  have hbits : (pairKey iClientSeq).toBitVec =
      (iClientSeq.toBitVec.setWidth 32).signExtend 64 := rfl
  have hlt := iClientSeq.toNat_lt
  rw [← UInt64.toBitVec_inj, hbits, ← BitVec.toNat_inj, BitVec.toNat_signExtend]
  simp only [BitVec.msb_eq_decide, BitVec.toNat_setWidth, UInt64.toNat_toBitVec]
  split_ifs <;> simp_all <;> omega

/-- Of the ids of `SnowFlakeUUID` only those of the first 512 microseconds of a
period keep their value. -/
theorem pairKey_packSeqID_iff (dwHostID dwGameSvrID : UInt32)
    (ulNowTimestamp ulSequenceID : UInt64) :
    pairKey (SnowFlakeUUID.packSeqID dwHostID dwGameSvrID ulNowTimestamp ulSequenceID) =
        SnowFlakeUUID.packSeqID dwHostID dwGameSvrID ulNowTimestamp ulSequenceID ↔
      ulNowTimestamp.toNat % 2 ^ 25 < 512 := by
  rw [pairKey_eq_iff, SnowFlakeUUID.toNat_packSeqID]
  omega

/-- The map of `ConnectorPool`. -/
abbrev ConnectorPool (χ : Type*) := UInt64 → Option χ

namespace ConnectorPool

variable {χ : Type*} (clientSeq : χ → UInt64)

/-- `AddConnector`, with the value it returns. -/
def addConnector (pool : ConnectorPool χ) (pstConnector : χ) :
    ConnectorPool χ × Bool :=
  let iClientSeq := clientSeq pstConnector
  -- looked up under the full id, inserted under the converted one
  match pool iClientSeq with
  | some _ => (pool, false)
  | none => (mapInsert pool (pairKey iClientSeq) pstConnector, true)

/-- `CloseConnector`, with the connector that it deletes. -/
def closeConnector (pool : ConnectorPool χ) (iClientSeq : UInt64) :
    ConnectorPool χ × Option χ :=
  match pool iClientSeq with
  | some pstConnector =>
    (Function.update pool iClientSeq none, some pstConnector)
  | none => (pool, none)

/-- The pool contains a connector, under whatever key. -/
def Contains (pool : ConnectorPool χ) (pstConnector : χ) : Prop :=
  ∃ key, pool key = some pstConnector

end ConnectorPool

/-- The pool with, as history, the connectors for which `AddConnector` has
returned true and which have not been removed since. -/
structure PoolCalls (χ : Type*) where
  pool : ConnectorPool χ
  members : List χ

namespace PoolCalls

/-- The calls. -/
inductive Action (χ : Type*) where
  | addConnector (pstConnector : χ)
  | closeConnector (iClientSeq : UInt64)

variable {χ : Type*} [DecidableEq χ] (clientSeq : χ → UInt64)

def init : PoolCalls χ := ⟨fun _ => none, []⟩

/-- One call. -/
def step (s : PoolCalls χ) : Action χ → Option (PoolCalls χ)
  | .addConnector pstConnector =>
    let (pool, added) := s.pool.addConnector clientSeq pstConnector
    some ⟨pool, if added then s.members ++ [pstConnector] else s.members⟩
  | .closeConnector iClientSeq =>
    let (pool, removed) := s.pool.closeConnector iClientSeq
    some ⟨pool, s.members.filter fun c => some c ≠ removed⟩

/-- The call is not about the connector. -/
def Action.Other (pstConnector : χ) : Action χ → Prop
  | .addConnector c => c ≠ pstConnector
  | .closeConnector iClientSeq => iClientSeq ≠ clientSeq pstConnector

/-- What the pool is for. -/
structure Serves (s : PoolCalls χ) : Prop where
  /-- The pool contains its members and nothing else. -/
  contains : ∀ c, s.pool.Contains c ↔ c ∈ s.members
  /-- `CloseConnector` finds a member by its id and removes it. -/
  closes : ∀ c ∈ s.members, ∃ pool,
    s.pool.closeConnector (clientSeq c) = (pool, some c) ∧ ¬ pool.Contains c
  /-- `AddConnector` refuses a member. -/
  refuses : ∀ c ∈ s.members,
    s.pool.addConnector clientSeq c = (s.pool, false)
  /-- No call adds, hides or removes a connector it is not about. -/
  others : ∀ a s', s.step clientSeq a = some s' → ∀ c, a.Other clientSeq c →
    (s'.pool.Contains c ↔ s.pool.Contains c)

/-- The id of a connector that is added keeps its value. -/
def KeepsSeq : Action χ → Prop
  | .addConnector c => pairKey (clientSeq c) = clientSeq c
  | .closeConnector _ => True

/-- Every member is stored under its id, and there is nothing else. -/
structure Inv (s : PoolCalls χ) : Prop where
  keyed : ∀ key c, s.pool key = some c ↔ c ∈ s.members ∧ clientSeq c = key
  keeps : ∀ c ∈ s.members, pairKey (clientSeq c) = clientSeq c

omit [DecidableEq χ] in
theorem inv_init : (init : PoolCalls χ).Inv clientSeq where
  keyed := by
    intro key c
    constructor
    · intro h
      cases h
    · rintro ⟨h, -⟩
      cases h
  keeps := by
    intro c h
    cases h

variable {clientSeq} {s s' : PoolCalls χ}

/-- The two outcomes of a call of `AddConnector`. -/
theorem step_addConnector_cases {c : χ} (h : s.step clientSeq (.addConnector c) = some s') :
    (∃ c', s.pool (clientSeq c) = some c' ∧ s' = s) ∨ s.pool (clientSeq c) = none ∧
        s' = ⟨mapInsert s.pool (pairKey (clientSeq c)) c, s.members ++ [c]⟩ := by
  cases hfound : s.pool (clientSeq c) with
  | some c' =>
    simp only [step, ConnectorPool.addConnector, hfound] at h
    cases h
    exact .inl ⟨c', rfl, rfl⟩
  | none =>
    simp only [step, ConnectorPool.addConnector, hfound] at h
    cases h
    exact .inr ⟨rfl, rfl⟩

/-- The two outcomes of a call of `CloseConnector`. -/
theorem step_closeConnector_cases {iClientSeq : UInt64}
    (h : s.step clientSeq (.closeConnector iClientSeq) = some s') :
    (∃ c, s.pool iClientSeq = some c ∧ s' = ⟨Function.update s.pool iClientSeq none,
          s.members.filter fun c' => c' ≠ c⟩) ∨
      s.pool iClientSeq = none ∧ s' = s := by
  cases hfound : s.pool iClientSeq with
  | some c =>
    simp only [step, ConnectorPool.closeConnector, hfound, ne_eq, Option.some.injEq] at h ⊢
    cases h
    exact .inl ⟨c, rfl, rfl⟩
  | none =>
    simp [step, ConnectorPool.closeConnector, hfound] at h
    exact .inr ⟨rfl, h.symm⟩

omit [DecidableEq χ] in
theorem Inv.contains_iff (h : s.Inv clientSeq) (c : χ) : s.pool.Contains c ↔ c ∈ s.members := by
  constructor
  · rintro ⟨key, hkey⟩
    exact ((h.keyed key c).mp hkey).1
  · intro hmem
    exact ⟨clientSeq c, (h.keyed _ c).mpr ⟨hmem, rfl⟩⟩

/-- Calls about others leave a connector where it is. -/
theorem Inv.others (h : s.Inv clientSeq) {a : Action χ}
    (hstep : s.step clientSeq a = some s') {c : χ}
    (hother : a.Other clientSeq c) :
    s'.pool.Contains c ↔ s.pool.Contains c := by
  cases a with
  | addConnector d =>
    obtain ⟨_, -, rfl⟩ | ⟨-, rfl⟩ := step_addConnector_cases hstep
    · rfl
    · refine exists_congr fun key => ?_
      exact mapInsert_eq_some_iff_of_ne hother
  | closeConnector iClientSeq =>
    obtain ⟨d, -, rfl⟩ | ⟨-, rfl⟩ := step_closeConnector_cases hstep
    · refine exists_congr fun key => ?_
      show Function.update s.pool iClientSeq none key = some c ↔ _
      rw [update_none_eq_some_iff]
      refine ⟨And.right, fun hkey => ⟨?_, hkey⟩⟩
      rintro rfl
      exact hother ((h.keyed key c).mp hkey).2.symm
    · rfl

theorem Inv.serves (h : s.Inv clientSeq) : s.Serves clientSeq where
  contains := h.contains_iff
  closes := by
    intro c hmem
    have hfound := (h.keyed _ c).mpr ⟨hmem, rfl⟩
    refine ⟨Function.update s.pool (clientSeq c) none, ?_, ?_⟩
    · rw [ConnectorPool.closeConnector, hfound]
    · rintro ⟨key, hkey⟩
      obtain ⟨hne, hkey⟩ := update_none_eq_some_iff.mp hkey
      exact hne ((h.keyed key c).mp hkey).2.symm
  refuses := by
    intro c hmem
    rw [ConnectorPool.addConnector, (h.keyed _ c).mpr ⟨hmem, rfl⟩]
  others := fun _ _ hstep _ hother => h.others hstep hother

theorem inv_step (hdistinct : Function.Injective clientSeq)
    (s : PoolCalls χ) (a : Action χ) (s' : PoolCalls χ)
    (h : s.Inv clientSeq) (hkeeps : KeepsSeq clientSeq a)
    (hstep : s.step clientSeq a = some s') : s'.Inv clientSeq := by
  cases a with
  | addConnector c =>
    obtain ⟨_, -, rfl⟩ | ⟨hnone, rfl⟩ := step_addConnector_cases hstep
    · exact h
    · have hkey : pairKey (clientSeq c) = clientSeq c := hkeeps
      rw [hkey, mapInsert_of_none hnone]
      constructor
      · intro key d
        show Function.update s.pool (clientSeq c) (some c) key = some d ↔
          d ∈ s.members ++ [c] ∧ clientSeq d = key
        rw [update_some_eq_some_iff, h.keyed, List.mem_append, List.mem_singleton]
        constructor
        · rintro (⟨rfl, rfl⟩ | ⟨-, hmem, rfl⟩)
          · exact ⟨.inr rfl, rfl⟩
          · exact ⟨.inl hmem, rfl⟩
        · rintro ⟨hmem | rfl, rfl⟩
          · -- a member has another id than the connector just added
            refine .inr ⟨fun hsame => ?_, hmem, rfl⟩
            rw [← hsame, (h.keyed _ d).mpr ⟨hmem, rfl⟩] at hnone
            cases hnone
          · exact .inl ⟨rfl, rfl⟩
      · intro d hmem
        obtain hmem | hmem := List.mem_append.mp hmem
        · exact h.keeps d hmem
        · rw [List.mem_singleton.mp hmem]
          exact hkey
  | closeConnector iClientSeq =>
    obtain ⟨c, hfound, rfl⟩ | ⟨-, rfl⟩ := step_closeConnector_cases hstep
    · obtain ⟨-, rfl⟩ := (h.keyed _ c).mp hfound
      constructor
      · intro key d
        show Function.update s.pool (clientSeq c) none key = some d ↔ _
        rw [update_none_eq_some_iff, h.keyed, List.mem_filter, decide_eq_true_eq]
        constructor
        · rintro ⟨hne, hmem, rfl⟩
          exact ⟨⟨hmem, fun hsame => hne (hsame ▸ rfl)⟩, rfl⟩
        · rintro ⟨⟨hmem, hne⟩, rfl⟩
          exact ⟨fun hsame => hne (hdistinct hsame), hmem, rfl⟩
      · intro d hmem
        exact h.keeps d (List.mem_filter.mp hmem).1
    · exact h

/-- A connector whose id is changed is not found again. -/
theorem keepsSeq_of_serves (hdistinct : Function.Injective clientSeq)
    (s : PoolCalls χ) (a : Action χ) (s' : PoolCalls χ)
    (h : s.Inv clientSeq) (hstep : s.step clientSeq a = some s')
    (hserves : s'.Serves clientSeq) : KeepsSeq clientSeq a := by
  cases a with
  | closeConnector iClientSeq => trivial
  | addConnector c =>
    obtain ⟨d, hfound, rfl⟩ | ⟨hnone, rfl⟩ := step_addConnector_cases hstep
    · -- a member with this id is the connector itself
      obtain ⟨hmem, hseq⟩ := (h.keyed _ d).mp hfound
      rw [hdistinct hseq] at hmem
      exact h.keeps c hmem
    · -- added under another key, it would be added once more
      by_contra hlost
      have hrefuses := hserves.refuses c (by simp)
      have hstill : mapInsert s.pool (pairKey (clientSeq c)) c (clientSeq c) =
          none := by
        rw [mapInsert_of_ne s.pool (Ne.symm hlost)]
        exact hnone
      simp only [ConnectorPool.addConnector, hstill, Prod.mk.injEq] at hrefuses
      cases hrefuses.2

/-- **When the pool is keyed by the full id.**  For connectors with distinct
ids the pool contains its members, finds them by their ids and keeps them apart
all along a run of calls exactly when every id added is below `2 ^ 31` or at
least `2 ^ 64 - 2 ^ 31`. -/
theorem serves_iff (hdistinct : Function.Injective clientSeq)
    (actions : List (Action χ)) (t : PoolCalls χ)
    (hrun : runSteps (step clientSeq) init actions = some t) :
    (∀ first rest s, actions = first ++ rest → runSteps (step clientSeq) init first = some s →
        s.Serves clientSeq) ↔
      ∀ c, .addConnector c ∈ actions →
        (clientSeq c).toNat < 2 ^ 31 ∨ 2 ^ 64 - 2 ^ 31 ≤ (clientSeq c).toNat := by
  rw [forall_reached_iff_runMeets (inv_step hdistinct)
    (keepsSeq_of_serves hdistinct) (fun _ h => h.serves) (inv_init clientSeq)
    hrun, runMeets_iff_forall hrun]
  constructor
  · intro h c hc
    exact (pairKey_eq_iff _).mp (h _ hc)
  · intro h a ha
    cases a with
    | addConnector c => exact (pairKey_eq_iff _).mpr (h c ha)
    | closeConnector _ => trivial

/-- Two connectors and their ids. -/
def smallSeq (c : Bool) : UInt64 := if c then 7 else 8

/-- Two connectors are added, one of them twice, and one is closed. -/
def smallCalls : List (Action Bool) :=
  [.addConnector true, .addConnector false, .addConnector true,
    .closeConnector 7]

theorem serves_iff_small :
    ∃ s : PoolCalls Bool, runSteps (step smallSeq) init smallCalls = some s ∧
      s.members = [false] ∧ s.Serves smallSeq := by
  have hdistinct : Function.Injective smallSeq := by
    unfold Function.Injective
    decide
  have hview : ((runSteps (step smallSeq) init smallCalls).map
      fun s => s.members) = some [false] := by
    decide +kernel
  obtain ⟨s, hrun, hmembers⟩ := Option.map_eq_some_iff.mp hview
  refine ⟨s, hrun, hmembers, ?_⟩
  refine (serves_iff hdistinct smallCalls s hrun).mpr ?_ smallCalls [] s
    (List.append_nil _).symm hrun
  intro c _
  cases c <;> exact .inl (by decide)

/-- An id of `SnowFlakeUUID` 512 microseconds into a period. -/
def lateSeq (_ : Unit) : UInt64 := SnowFlakeUUID.packSeqID 1 1 512 0

/-- A connector with such an id is accepted a second time, and closing it finds
nothing. -/
theorem serves_fails_of_lateSeq :
    ∃ s : PoolCalls Unit,
      runSteps (step lateSeq) init [.addConnector ()] = some s ∧ s.members = [()] ∧
        (s.pool.addConnector lateSeq ()).2 = true ∧
        (s.pool.closeConnector (lateSeq ())).2 = none ∧
        ¬ s.Serves lateSeq := by
  have hview : ((runSteps (step lateSeq) init [.addConnector ()]).map
      fun s => (s.members, (s.pool.addConnector lateSeq ()).2,
        (s.pool.closeConnector (lateSeq ())).2)) =
      some ([()], true, none) := by
    decide +kernel
  obtain ⟨s, hrun, heq⟩ := Option.map_eq_some_iff.mp hview
  simp only [Prod.mk.injEq] at heq
  obtain ⟨hmembers, hadd, hclose⟩ := heq
  refine ⟨s, hrun, hmembers, hadd, hclose, fun hserves => ?_⟩
  have hmem : () ∈ s.members := by
    rw [hmembers]
    exact List.mem_singleton_self _
  have hrefuses := hserves.refuses () hmem
  rw [hrefuses] at hadd
  cases hadd

end PoolCalls

end Network
end GameServer
