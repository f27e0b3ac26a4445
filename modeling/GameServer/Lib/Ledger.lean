import Mathlib.Data.List.Count
import Mathlib.Tactic.Common

/-!
# A ledger of what is acquired and released

Objects that have to be released by hand are known by their handles.  The
ledger lists the calls that acquire and release them, in their order.  In a
life that acquires everything before it releases anything, the ledger is
settled exactly if each acquired handle occurs once among the released ones.
-/

namespace GameServer
namespace Lib

variable {H : Type*}

/-- One line of a ledger. -/
inductive LedgerEvent (H : Type*) where
  | acquire (handle : H)
  | release (handle : H)
deriving Repr, DecidableEq

variable [DecidableEq H]

/-- Everything that was acquired is released exactly once. -/
def ReleasedOnce (log : List (LedgerEvent H)) : Prop :=
  ∀ handle, .acquire handle ∈ log → log.count (.release handle) = 1

/-- How often a handle is released after everything was acquired. -/
theorem count_release_append (acquired released : List H) (handle : H) :
    (acquired.map LedgerEvent.acquire ++ released.map LedgerEvent.release).count (.release handle) =
        released.count handle := by
  have hacquired : (acquired.map LedgerEvent.acquire).count (.release handle) = 0 := by
    rw [List.count_eq_zero]
    intro hmem
    obtain ⟨other, -, hother⟩ := List.mem_map.mp hmem
    cases hother
  have hinjective : Function.Injective (LedgerEvent.release : H → _) :=
    fun _ _ h => LedgerEvent.release.inj h
  rw [List.count_append, hacquired, Nat.zero_add, List.count_map_of_injective _ _ hinjective]

theorem releasedOnce_iff {acquired released : List H} :
    ReleasedOnce (acquired.map LedgerEvent.acquire ++ released.map LedgerEvent.release) ↔
      ∀ handle ∈ acquired, released.count handle = 1 := by
  have hmem : ∀ handle, LedgerEvent.acquire handle ∈
      acquired.map LedgerEvent.acquire ++ released.map LedgerEvent.release ↔ handle ∈ acquired := by
    intro handle
    simp
  simp only [ReleasedOnce, hmem, count_release_append]

end Lib
end GameServer
