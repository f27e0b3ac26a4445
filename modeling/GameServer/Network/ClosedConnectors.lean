import GameServer.Lib.OrderedMap
import GameServer.Network.ConnectorThreads

/-!
# The sweep over the closed connectors

`ConnectorPool::ProcessClosedConnectors` walks over the map of connectors and
erases the closed ones while it walks.  After `erase(it)` it goes back to the
test of the loop with the same iterator, which points to no element any more:
the comparison with `end()`, and the reads that follow it, are undefined.

The map is `Lib.OrderedMap`, a use of an invalid iterator has no result.
`processClosedConnectors_eq` says what the sweep computes: nothing at all as
soon as one connector is closed.  It does what it is for exactly on the pools
in which there is nothing to do.
-/

namespace GameServer
namespace Network

open Lib

variable {χ : Type*} (status : χ → ConnectorStatus)

/-- The loop of `ProcessClosedConnectors` from an iterator on, with the
connectors deleted so far. -/
def processClosedFrom (pool : OrderedMap UInt64 χ) (it : Iter UInt64)
    (deleted : List χ) : Option (OrderedMap UInt64 χ × List χ) :=
  match pool.isEnd it with
  | none => none
  | some true => some (pool, deleted)
  | some false =>
    match pool.deref it with
    | none => none
    | some (_, pstConnector) =>
      if status pstConnector = .closed then
        match _ : pool.erase it with
        | none => none
        -- the iterator is not renewed
        | some rest => processClosedFrom rest it (deleted ++ [pstConnector])
      else
        match _ : pool.next it with
        | none => none
        | some after => processClosedFrom pool after deleted
termination_by (pool.entries.length, (pool.ahead it).length)
decreasing_by
  · exact Prod.Lex.left _ _ (OrderedMap.length_erase_lt ‹_›)
  · exact Prod.Lex.right _ (OrderedMap.length_ahead_next_lt ‹_›)

/-- `ConnectorPool::ProcessClosedConnectors`: the pool it leaves and the
connectors it deletes; `none` if it uses an iterator to an erased element. -/
def processClosedConnectors (pool : OrderedMap UInt64 χ) :
    Option (OrderedMap UInt64 χ × List χ) :=
  processClosedFrom status pool pool.first []

/-- What the loop does with the entries it has in front of it: it walks over
those that are not closed, and the first closed one breaks it. -/
theorem processClosedFrom_eq {pool : OrderedMap UInt64 χ}
    {before behind : List (UInt64 × χ)} {deleted : List χ}
    (hsplit : pool.entries = before ++ behind) :
    processClosedFrom status pool (Iter.front behind) deleted =
      if ∀ entry ∈ behind, status entry.2 ≠ .closed then
        some (pool, deleted)
      else
        none := by
  induction behind generalizing before with
  | nil =>
    unfold processClosedFrom
    simp [Iter.front, OrderedMap.isEnd]
  | cons entry rest ih =>
    rw [Iter.front, processClosedFrom, OrderedMap.isEnd_of_split hsplit,
      OrderedMap.deref_of_split hsplit]
    by_cases hclosed : status entry.2 = .closed
    · rw [if_neg (fun h => h entry (by simp) hclosed)]
      dsimp only
      rw [if_pos hclosed]
      split
      · rfl
      · next later herase =>
        unfold processClosedFrom
        rw [OrderedMap.isEnd_erase herase]
    · have hnext := OrderedMap.next_of_split hsplit
      have hrest : pool.entries = (before ++ [entry]) ++ rest := by
        rw [hsplit]
        simp
      dsimp only
      rw [if_neg hclosed]
      split
      · next h => simp [hnext] at h
      · next after h =>
        rw [hnext, Option.some.injEq] at h
        rw [← h, ih hrest]
        exact if_congr (by simp [hclosed]) rfl rfl

/-- The whole sweep. -/
theorem processClosedConnectors_eq (pool : OrderedMap UInt64 χ) :
    processClosedConnectors status pool =
      if ∀ entry ∈ pool.entries, status entry.2 ≠ .closed then
        some (pool, [])
      else
        none :=
  processClosedFrom_eq status (List.nil_append pool.entries).symm

/-- What the sweep is for: it ends without using an invalid iterator, it
leaves the connectors that are not closed, and it deletes each closed one
once. -/
def SweepsClosed (pool : OrderedMap UInt64 χ) : Prop :=
  ∃ rest deleted,
    processClosedConnectors status pool = some (rest, deleted) ∧
      rest.entries = pool.entries.filter
        (fun entry => status entry.2 ≠ .closed) ∧
      deleted = (pool.entries.filter
        (fun entry => status entry.2 = .closed)).map Prod.snd

/-- The sweep works exactly on the pools without a closed connector. -/
theorem sweepsClosed_iff (pool : OrderedMap UInt64 χ) :
    SweepsClosed status pool ↔
      ∀ entry ∈ pool.entries, status entry.2 ≠ .closed := by
  constructor
  · rintro ⟨rest, deleted, hsweep, -⟩
    by_contra hclosed
    rw [processClosedConnectors_eq, if_neg hclosed] at hsweep
    cases hsweep
  · intro hopen
    refine ⟨pool, [], ?_, ?_, ?_⟩
    · rw [processClosedConnectors_eq, if_pos hopen]
    · symm
      rw [List.filter_eq_self]
      simpa using hopen
    · symm
      rw [List.map_eq_nil_iff, List.filter_eq_nil_iff]
      simpa using hopen

/-- A single closed connector is enough: the loop compares the iterator that
it has erased. -/
theorem one_closed_connector_not_swept :
    processClosedConnectors (fun _ : Unit => ConnectorStatus.closed)
        ⟨[(7, ())], List.pairwise_singleton _ _⟩ = none ∧
      ¬ SweepsClosed (fun _ : Unit => ConnectorStatus.closed)
        ⟨[(7, ())], List.pairwise_singleton _ _⟩ := by
  have hnone : processClosedConnectors (fun _ : Unit => ConnectorStatus.closed)
      ⟨[(7, ())], List.pairwise_singleton _ _⟩ = none := by
    rw [processClosedConnectors_eq, if_neg (by simp)]
  refine ⟨hnone, ?_⟩
  rintro ⟨rest, deleted, hsweep, -⟩
  rw [hnone] at hsweep
  cases hsweep

end Network
end GameServer
