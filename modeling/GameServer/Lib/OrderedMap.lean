import Mathlib.Data.List.Basic
import Mathlib.Order.Defs.Unbundled

/-!
# Ordered maps and their iterators

The walk over a `std::map`: the entries stand in increasing order of their
keys, an iterator points to one of them or past the last.  Erasing an element
makes the iterators to it invalid and no others.  An iterator is known by the
key of its element, so whether it is valid is a question to the map, and every
use of an invalid one has no result.

The lemmas are stated at a split of the entries into those before the element,
the element and those behind it, which is what a loop over the map has at hand.
-/

namespace GameServer
namespace Lib

/-- Entries with increasing keys. -/
structure OrderedMap (κ ν : Type*) [LT κ] where
  entries : List (κ × ν)
  sorted : entries.Pairwise fun earlier later => earlier.1 < later.1

/-- What an iterator points to. -/
inductive Iter (κ : Type*) where
  | element (key : κ)
  /-- The value of `end()`. -/
  | past
deriving Repr, DecidableEq

namespace Iter

variable {κ ν : Type*}

/-- The iterator to the first of some entries that reach up to the end. -/
def front : List (κ × ν) → Iter κ
  | [] => past
  | entry :: _ => element entry.1

end Iter

namespace OrderedMap

variable {κ ν : Type*} [LT κ] {map : OrderedMap κ ν}

/-- `begin()`. -/
def first (map : OrderedMap κ ν) : Iter κ :=
  Iter.front map.entries

/-- At a split, the keys before the element are smaller and those behind it
are larger. -/
theorem lt_of_split {before behind : List (κ × ν)} {entry : κ × ν}
    (hsplit : map.entries = before ++ entry :: behind) :
    (∀ other ∈ before, other.1 < entry.1) ∧ ∀ other ∈ behind, entry.1 < other.1 := by
  have hsorted := map.sorted
  rw [hsplit, List.pairwise_append, List.pairwise_cons] at hsorted
  obtain ⟨-, ⟨hbehind, -⟩, hbefore⟩ := hsorted
  exact ⟨fun other hother => hbefore other hother entry (by simp), hbehind⟩

/-- The entries before an element have other keys. -/
theorem ne_of_split [Std.Irrefl (α := κ) (· < ·)] {before behind : List (κ × ν)}
    {entry : κ × ν} (hsplit : map.entries = before ++ entry :: behind) :
    ∀ other ∈ before, other.1 ≠ entry.1 := by
  intro other hother heq
  exact Std.Irrefl.irrefl (r := (· < ·)) _ (heq ▸ (lt_of_split hsplit).1 other hother)

variable [DecidableEq κ]

/-- `*it`. -/
def deref (map : OrderedMap κ ν) : Iter κ → Option (κ × ν)
  | .element key => map.entries.find? fun entry => entry.1 = key
  | .past => none

/-- `it == end()`: an iterator to an erased element must not be compared. -/
def isEnd (map : OrderedMap κ ν) : Iter κ → Option Bool
  | .element key => (map.deref (.element key)).map fun _ => false
  | .past => some true

/-- `erase(it)`. -/
def erase (map : OrderedMap κ ν) (it : Iter κ) : Option (OrderedMap κ ν) :=
  (map.deref it).map fun entry =>
    ⟨map.entries.filter fun other => other.1 ≠ entry.1, map.sorted.filter _⟩

/-- The entries that a walk from an iterator has still in front of it. -/
def ahead (map : OrderedMap κ ν) : Iter κ → List (κ × ν)
  | .element key => map.entries.dropWhile fun entry => entry.1 ≠ key
  | .past => []

/-- A valid iterator stands at a split of the entries. -/
theorem exists_split_of_deref {it : Iter κ} {entry : κ × ν} (h : map.deref it = some entry) :
    it = .element entry.1 ∧ ∃ before behind, map.entries = before ++ entry :: behind := by
  cases it with
  | past => cases h
  | element key =>
    obtain ⟨hkey, before, behind, hsplit, -⟩ :=
      List.find?_eq_some_iff_append.mp h
    exact ⟨by rw [of_decide_eq_true hkey], before, behind, hsplit⟩

/-- Erasing shortens the map. -/
theorem length_erase_lt {rest : OrderedMap κ ν} {it : Iter κ} (h : map.erase it = some rest) :
    rest.entries.length < map.entries.length := by
  obtain ⟨entry, hentry, rfl⟩ := Option.map_eq_some_iff.mp h
  obtain ⟨-, before, behind, hsplit⟩ := exists_split_of_deref hentry
  exact List.length_filter_lt_length_iff_exists.mpr ⟨entry, by simp [hsplit], by simp⟩

/-- The iterator to an erased element cannot be compared any more. -/
theorem isEnd_erase {rest : OrderedMap κ ν} {it : Iter κ}
    (h : map.erase it = some rest) : rest.isEnd it = none := by
  obtain ⟨entry, hentry, rfl⟩ := Option.map_eq_some_iff.mp h
  obtain ⟨rfl, -⟩ := exists_split_of_deref hentry
  rw [isEnd, Option.map_eq_none_iff, deref, List.find?_eq_none]
  intro other hother
  simpa using (List.mem_filter.mp hother).2

section Split

variable [Std.Asymm (α := κ) (· < ·)] {map : OrderedMap κ ν}
  {before behind : List (κ × ν)} {entry : κ × ν}

/-- The iterator at a split is valid. -/
theorem deref_of_split (hsplit : map.entries = before ++ entry :: behind) :
    map.deref (.element entry.1) = some entry := by
  have hbefore : before.find? (fun other => other.1 = entry.1) = none := by
    rw [List.find?_eq_none]
    intro other hother
    simpa using ne_of_split hsplit other hother
  rw [deref, hsplit, List.find?_append, hbefore]
  simp

theorem isEnd_of_split (hsplit : map.entries = before ++ entry :: behind) :
    map.isEnd (.element entry.1) = some false := by
  rw [isEnd, deref_of_split hsplit]
  rfl

theorem ahead_of_split (hsplit : map.entries = before ++ entry :: behind) :
    map.ahead (.element entry.1) = entry :: behind := by
  rw [ahead, hsplit, List.dropWhile_append_of_pos]
  · simp
  · intro other hother
    simpa using ne_of_split hsplit other hother

variable [DecidableLT κ]

/-- The iterator that `++it` leaves. -/
def next (map : OrderedMap κ ν) (it : Iter κ) : Option (Iter κ) :=
  (map.deref it).map fun entry =>
    match map.entries.find? fun later => entry.1 < later.1 with
    | some later => .element later.1
    | none => .past

/-- Advancing from an element leads to the one behind it. -/
theorem next_of_split (hsplit : map.entries = before ++ entry :: behind) :
    map.next (.element entry.1) = some (Iter.front behind) := by
  have hbefore : before.find? (fun later => entry.1 < later.1) = none := by
    rw [List.find?_eq_none]
    intro other hother
    simpa using Std.Asymm.asymm (r := (· < ·)) _ _ ((lt_of_split hsplit).1 other hother)
  have hself : ¬ entry.1 < entry.1 := Std.Irrefl.irrefl (r := (· < ·)) _
  rw [next, deref_of_split hsplit, Option.map_some, hsplit, List.find?_append,
    hbefore, Option.none_or, List.find?_cons_of_neg (by simpa using hself)]
  cases behind with
  | nil => rfl
  | cons later rest =>
    have hlater := (lt_of_split hsplit).2 later (by simp)
    rw [List.find?_cons_of_pos (by simpa using hlater)]
    rfl

/-- Advancing shortens what is ahead. -/
theorem length_ahead_next_lt {it after : Iter κ} (h : map.next it = some after) :
    (map.ahead after).length < (map.ahead it).length := by
  obtain ⟨entry, hentry, -⟩ := Option.map_eq_some_iff.mp h
  obtain ⟨rfl, before, behind, hsplit⟩ := exists_split_of_deref hentry
  rw [next_of_split hsplit, Option.some.injEq] at h
  subst h
  rw [ahead_of_split hsplit]
  cases behind with
  | nil => exact Nat.zero_lt_succ _
  | cons later rest =>
    have hlater : map.entries = (before ++ [entry]) ++ later :: rest := by
      rw [hsplit]
      simp
    rw [Iter.front, ahead_of_split hlater]
    exact Nat.lt_succ_self _

end Split

end OrderedMap

end Lib
end GameServer
