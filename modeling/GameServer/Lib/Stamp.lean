import Mathlib.Tactic

/-!
# Stamps of a clock and a counter

A generator of unique stamps reads a clock and numbers the stamps it issues at
the same reading.  Only `cap` numbers fit; when they are used up, readings are
skipped until the clock moves on.

For a clock that never goes back, the stamps issued come in strictly increasing
order, and at each time as many of them are issued as there are readings and
numbers.
-/

namespace GameServer
namespace Lib

variable {T : Type*}

/-- A reading of the clock, and a number among the stamps of that reading. -/
structure Stamp (T : Type*) where
  time : T
  number : Nat
deriving DecidableEq

namespace Stamp

section Next

variable [DecidableEq T] {reading : T} {last : Stamp T}

/-- The stamp issued for a reading after `last`, if there is one. -/
def next (cap : Nat) (last : Stamp T) (reading : T) : Option (Stamp T) :=
  if reading = last.time then
    if last.number + 1 < cap then some ⟨last.time, last.number + 1⟩ else none
  else
    some ⟨reading, 0⟩

theorem next_of_full {cap : Nat} (htime : reading = last.time)
    (hfull : cap ≤ last.number + 1) : last.next cap reading = none := by
  rw [next, if_pos htime, if_neg (Nat.not_lt.mpr hfull)]

theorem next_of_room {cap : Nat} (htime : reading = last.time) (hroom : last.number + 1 < cap) :
    last.next cap reading = some ⟨reading, last.number + 1⟩ := by
  rw [next, if_pos htime, if_pos hroom, htime]

theorem next_of_ne {cap : Nat} (htime : reading ≠ last.time) :
    last.next cap reading = some ⟨reading, 0⟩ := by
  rw [next, if_neg htime]

/-- The stamps issued along a list of readings. -/
def stamps (cap : Nat) : Stamp T → List T → List (Stamp T)
  | _, [] => []
  | last, reading :: rest =>
    match last.next cap reading with
    | none => stamps cap last rest
    | some stamp => stamp :: stamps cap stamp rest

theorem stamps_cons_of_none {cap : Nat} (h : last.next cap reading = none) (rest : List T) :
    stamps cap last (reading :: rest) = stamps cap last rest := by
  rw [stamps, h]

theorem stamps_cons_of_some {cap : Nat} {stamp : Stamp T}
    (h : last.next cap reading = some stamp) (rest : List T) :
    stamps cap last (reading :: rest) = stamp :: stamps cap stamp rest := by
  rw [stamps, h]

/-- The numbers used up at a time when `last` was issued last. -/
def used (last : Stamp T) (time : T) : Nat :=
  if time = last.time then last.number + 1 else 0

end Next

variable [LinearOrder T]

/-- Earlier, or at the same time with a smaller number. -/
def Before (a b : Stamp T) : Prop :=
  a.time < b.time ∨ a.time = b.time ∧ a.number < b.number

instance : IsTrans (Stamp T) Before where
  trans a b c hab hbc := by
    rcases hab with hab | ⟨hab, hnumber⟩
    · rcases hbc with hbc | ⟨hbc, -⟩
      · exact Or.inl (hab.trans hbc)
      · exact Or.inl (hbc ▸ hab)
    · rcases hbc with hbc | ⟨hbc, hnumber'⟩
      · exact Or.inl (hab ▸ hbc)
      · exact Or.inr ⟨hab.trans hbc, hnumber.trans hnumber'⟩

theorem Before.ne {a b : Stamp T} (h : a.Before b) : a ≠ b := by
  rintro rfl
  rcases h with h | ⟨-, h⟩
  · exact lt_irrefl _ h
  · exact lt_irrefl _ h

/-- A stamp issued for a reading that is not in the past comes after the
last one. -/
theorem before_of_next {cap : Nat} {last stamp : Stamp T} {reading : T}
    (hle : last.time ≤ reading) (h : last.next cap reading = some stamp) :
    last.Before stamp ∧ stamp.time = reading := by
  unfold next at h
  split_ifs at h with htime hcap
  · cases h
    exact ⟨Or.inr ⟨rfl, Nat.lt_succ_self _⟩, htime.symm⟩
  · cases h
    exact ⟨Or.inl (lt_of_le_of_ne hle (Ne.symm htime)), rfl⟩

/-- **Stamps increase.** -/
theorem isChain_stamps (cap : Nat) (last : Stamp T) (readings : List T)
    (hsorted : (last.time :: readings).Pairwise (· ≤ ·)) :
    (last :: stamps cap last readings).IsChain Before := by
  induction readings generalizing last with
  | nil => exact .singleton _
  | cons reading rest ih =>
    obtain ⟨hlast, hrest⟩ := List.pairwise_cons.mp hsorted
    cases hnext : last.next cap reading with
    | none =>
      rw [stamps_cons_of_none hnext]
      apply ih
      exact hsorted.sublist ((List.sublist_cons_self _ _).cons_cons _)
    | some stamp =>
      obtain ⟨hbefore, htime⟩ :=
        before_of_next (hlast reading List.mem_cons_self) hnext
      rw [stamps_cons_of_some hnext]
      refine .cons_cons hbefore (ih stamp ?_)
      rw [htime]
      exact hrest

/-- No stamp is issued twice. -/
theorem nodup_stamps (cap : Nat) (last : Stamp T) (readings : List T)
    (hsorted : (last.time :: readings).Pairwise (· ≤ ·)) :
    (stamps cap last readings).Nodup := by
  have hchain := isChain_stamps cap last readings hsorted
  have hpairwise := (List.pairwise_cons.mp hchain.pairwise).2
  exact hpairwise.imp Before.ne

/-- **Which stamps are issued.**  At each time the numbers go on from those
used up, one for each reading of that time, as long as there are any. -/
theorem mem_stamps_iff {cap : Nat} {last : Stamp T} {readings : List T}
    (hsorted : (last.time :: readings).Pairwise (· ≤ ·))
    (hcap : last.number < cap) (stamp : Stamp T) :
    stamp ∈ stamps cap last readings ↔ last.used stamp.time ≤ stamp.number ∧ stamp.number < cap ∧
        stamp.number < last.used stamp.time + readings.count stamp.time := by
  obtain ⟨time, number⟩ := stamp
  dsimp only
  induction readings generalizing last with
  | nil =>
    simp only [stamps, List.not_mem_nil, List.count_nil, false_iff]
    omega
  | cons reading rest ih =>
    obtain ⟨hlast, hrest⟩ := List.pairwise_cons.mp hsorted
    simp only [List.count_cons, beq_iff_eq]
    by_cases htime : reading = last.time
    · subst htime
      by_cases hroom : last.number + 1 < cap
      · rw [stamps_cons_of_some (next_of_room rfl hroom), List.mem_cons,
          @ih ⟨last.time, last.number + 1⟩ hrest hroom]
        simp only [used, mk.injEq]
        by_cases hnow : time = last.time
        · simp only [hnow, true_and, if_true]
          omega
        · simp only [hnow, false_and, if_false, false_or, if_neg (Ne.symm hnow)]
          omega
      · rw [stamps_cons_of_none (next_of_full rfl (Nat.le_of_not_lt hroom)), ih hrest hcap]
        simp only [used]
        by_cases hnow : time = last.time
        · simp only [hnow, if_true]
          omega
        · simp only [hnow, if_false, if_neg (Ne.symm hnow)]
          omega
    · -- the clock has moved on, so the time of `last` never comes back
      have hpast : rest.count last.time = 0 := by
        apply List.count_eq_zero_of_not_mem
        intro hmem
        have hle := hlast reading List.mem_cons_self
        have hge := (List.pairwise_cons.mp hrest).1 last.time hmem
        exact htime (le_antisymm hge hle)
      rw [stamps_cons_of_some (next_of_ne htime), List.mem_cons,
        @ih ⟨reading, 0⟩ hrest (Nat.zero_lt_of_lt hcap)]
      simp only [used, mk.injEq]
      by_cases hnow : time = reading
      · subst hnow
        simp only [true_and, if_true, if_neg htime]
        omega
      · by_cases hold : time = last.time
        · subst hold
          simp only [hnow, false_and, if_false, if_true, hpast, false_or, if_neg (Ne.symm hnow)]
          omega
        · simp only [hnow, hold, false_and, if_false, false_or, if_neg (Ne.symm hnow)]
          omega

end Stamp

end Lib
end GameServer
