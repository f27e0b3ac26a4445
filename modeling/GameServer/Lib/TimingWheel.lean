import Mathlib.Tactic

/-!
# Hierarchical timing wheels

A hierarchical timing wheel keeps pending deadlines in buckets.  The bucket of a
deadline is found in a mixed-radix reading of the numbers involved: it is the
most significant position at which the deadline differs from the current time,
together with the deadline's digit at that position.  Whenever the clock
carries into a position, one bucket of that position is emptied and its
content placed anew; every other bucket is right as it stands.

This module develops the two halves of that argument on their own.  The
arithmetic half (`Radix`) says which deadlines change their place when the time
advances by one.  The list half (`redistribute`) says that emptying one bucket
and placing its content anew keeps every bucket in arrival order.
-/

namespace GameServer
namespace Lib

/-- A mixed-radix reading of the natural numbers: digit `j` starts at bit
`base j`.  Positions above `top` are not distinguished. -/
structure Radix where
  base : Nat → Nat
  base_zero : base 0 = 0
  base_lt : ∀ j, base j < base (j + 1)
  top : Nat

namespace Radix

variable (R : Radix)

/-- The number without its digits below position `j`. -/
def block (j n : Nat) : Nat := n / 2 ^ R.base j

/-- The number of values of a digit. -/
def size (j : Nat) : Nat := 2 ^ (R.base (j + 1) - R.base j)

/-- The digit at position `j`. -/
def digit (j n : Nat) : Nat := R.block j n % R.size j

/-- The most significant position, up to `top`, at which `deadline` differs
from `now`. -/
def rank (now deadline : Nat) : Nat :=
  Nat.find (p := fun j => j = R.top ∨
    R.block (j + 1) deadline = R.block (j + 1) now) ⟨R.top, Or.inl rfl⟩

/-- The bucket of `deadline` at time `now`. -/
def place (now deadline : Nat) : Nat × Nat :=
  (R.rank now deadline, R.digit (R.rank now deadline) deadline)

/-- The highest position the clock has carried into on its way to `n`. -/
def carry (n : Nat) : Nat :=
  Nat.findGreatest (fun j => 2 ^ R.base j ∣ n) R.top

/-- The deadline is near enough for its top digit to be unambiguous. -/
def Within (now deadline : Nat) : Prop :=
  R.block R.top deadline < R.block R.top now + R.size R.top

variable {R} {now deadline m n j k : Nat}

theorem base_mono (h : j ≤ k) : R.base j ≤ R.base k :=
  (strictMono_nat_of_lt_succ R.base_lt).monotone h

theorem block_zero (n : Nat) : R.block 0 n = n := by
  rw [block, R.base_zero, Nat.pow_zero, Nat.div_one]

theorem block_mono (h : m ≤ n) : R.block j m ≤ R.block j n :=
  Nat.div_le_div_right h

theorem block_succ_eq (j n : Nat) : R.block (j + 1) n = R.block j n / R.size j := by
  rw [block, block, size, Nat.div_div_eq_div_mul, ← Nat.pow_add,
    Nat.add_sub_cancel' (R.base_lt j).le]

/-- Numbers that agree from a position on agree from every higher one on. -/
theorem block_eq_of_le (hjk : j ≤ k) (h : R.block j m = R.block j n) :
    R.block k m = R.block k n := by
  induction k, hjk using Nat.le_induction with
  | base => exact h
  | succ k _ ih => rw [block_succ_eq, block_succ_eq, ih]

/-- Numbers that agree above a position and at it agree from it on. -/
theorem block_eq_of_digit (hblock : R.block (j + 1) m = R.block (j + 1) n)
    (hdigit : R.digit j m = R.digit j n) : R.block j m = R.block j n := by
  rw [block_succ_eq, block_succ_eq] at hblock
  rw [← Nat.div_add_mod (R.block j m) (R.size j),
    ← Nat.div_add_mod (R.block j n) (R.size j), hblock]
  exact congrArg _ hdigit

/-- One tick carries into a position or leaves everything from it on alone. -/
theorem block_succ_of_dvd (h : 2 ^ R.base j ∣ now + 1) :
    R.block j (now + 1) = R.block j now + 1 := by
  rw [block, block, Nat.succ_div, if_pos h]

theorem block_succ_of_not_dvd (h : ¬ 2 ^ R.base j ∣ now + 1) :
    R.block j (now + 1) = R.block j now := by
  rw [block, block, Nat.succ_div, if_neg h, Nat.add_zero]

theorem rank_le_top (now deadline : Nat) : R.rank now deadline ≤ R.top :=
  Nat.find_min' _ (Or.inl rfl)

theorem rank_le_of_block_eq (h : R.block (j + 1) deadline = R.block (j + 1) now) :
    R.rank now deadline ≤ j :=
  Nat.find_min' _ (Or.inr h)

/-- Above its rank a deadline agrees with the current time. -/
theorem block_rank_eq (h : R.rank now deadline ≠ R.top) :
    R.block (R.rank now deadline + 1) deadline = R.block (R.rank now deadline + 1) now := by
  have hspec := Nat.find_spec (p := fun j => j = R.top ∨
    R.block (j + 1) deadline = R.block (j + 1) now) ⟨R.top, Or.inl rfl⟩
  exact hspec.resolve_left h

/-- The rank is the first position above which the numbers agree. -/
theorem rank_eq (hj : j ≤ R.top)
    (habove : j = R.top ∨ R.block (j + 1) deadline = R.block (j + 1) now)
    (hbelow : ∀ i, i < j → R.block (i + 1) deadline ≠ R.block (i + 1) now) :
    R.rank now deadline = j := by
  rw [rank, Nat.find_eq_iff]
  refine ⟨habove, ?_⟩
  rintro i hi (htop | hblock)
  · omega
  · exact hbelow i hi hblock

/-- Two times between which no block of the deadline is entered give the same
place. -/
theorem place_eq_of_block_iff (h : ∀ j, j < R.top → (R.block (j + 1) deadline = R.block (j + 1) m ↔
      R.block (j + 1) deadline = R.block (j + 1) n)) :
    R.place m deadline = R.place n deadline := by
  have hrank : R.rank m deadline = R.rank n deadline := by
    have hone : ∀ {m n : Nat}, (∀ j, j < R.top → R.block (j + 1) deadline = R.block (j + 1) m →
          R.block (j + 1) deadline = R.block (j + 1) n) →
        R.rank n deadline ≤ R.rank m deadline := by
      intro m n himp
      by_cases htop : R.rank m deadline = R.top
      · rw [htop]
        exact rank_le_top n deadline
      · have hlt := lt_of_le_of_ne (rank_le_top m deadline) htop
        exact rank_le_of_block_eq (himp _ hlt (block_rank_eq htop))
    exact le_antisymm (hone fun j hj => (h j hj).mpr) (hone fun j hj => (h j hj).mp)
  rw [place, place, hrank]

theorem carry_le_top (n : Nat) : R.carry n ≤ R.top :=
  Nat.findGreatest_le R.top

theorem base_carry_dvd (n : Nat) : 2 ^ R.base (R.carry n) ∣ n := by
  apply Nat.findGreatest_spec (P := fun j => 2 ^ R.base j ∣ n) (Nat.zero_le _)
  rw [R.base_zero, Nat.pow_zero]
  exact one_dvd n

theorem dvd_of_le_carry (h : j ≤ R.carry n) : 2 ^ R.base j ∣ n :=
  (Nat.pow_dvd_pow 2 (base_mono h)).trans (base_carry_dvd n)

theorem not_dvd_of_carry_lt (h : R.carry n < j) (hj : j ≤ R.top) : ¬ 2 ^ R.base j ∣ n :=
  Nat.findGreatest_is_greatest (P := fun j => 2 ^ R.base j ∣ n) h hj

/-- The carry is the position the clock has carried into but not beyond. -/
theorem carry_eq (hj : j ≤ R.top) (hdvd : 2 ^ R.base j ∣ n)
    (hnext : j = R.top ∨ ¬ 2 ^ R.base (j + 1) ∣ n) : R.carry n = j := by
  apply le_antisymm
  · by_contra hlt
    rcases hnext with rfl | hnot
    · exact hlt (carry_le_top n)
    · exact hnot (dvd_of_le_carry (by omega))
  · exact Nat.le_findGreatest hj hdvd

/-! ## One tick of the clock -/

/-- No pending deadline lies below the position the next tick carries into. -/
theorem carry_le_rank (hpending : now < deadline) : R.carry (now + 1) ≤ R.rank now deadline := by
  by_contra hlt
  have htop := carry_le_top (R := R) (now + 1)
  generalize hr : R.rank now deadline = r at *
  have hblock : R.block (r + 1) deadline = R.block (r + 1) now := by
    rw [← hr]
    exact block_rank_eq (by omega)
  have hcarried : R.block (r + 1) (now + 1) = R.block (r + 1) now + 1 :=
    block_succ_of_dvd (dvd_of_le_carry (by omega))
  have hmono : R.block (r + 1) (now + 1) ≤ R.block (r + 1) deadline :=
    block_mono hpending
  omega

/-- The bucket a tick empties holds the deadlines that agree with the new time
from the carried position on. -/
theorem place_eq_carry_iff (hpending : now < deadline) (hwithin : R.Within now deadline) :
    R.place now deadline = (R.carry (now + 1), R.digit (R.carry (now + 1)) (now + 1)) ↔
      R.block (R.carry (now + 1)) deadline = R.block (R.carry (now + 1)) (now + 1) := by
  have hle := carry_le_rank (R := R) hpending
  have htop := carry_le_top (R := R) (now + 1)
  generalize hc : R.carry (now + 1) = c at *
  have hcarried : R.block c (now + 1) = R.block c now + 1 :=
    block_succ_of_dvd (dvd_of_le_carry hc.ge)
  have hmono : R.block c (now + 1) ≤ R.block c deadline :=
    block_mono hpending
  -- above the carried position the tick changes nothing
  have habove : c < R.top → R.block (c + 1) (now + 1) = R.block (c + 1) now :=
    fun hlt => block_succ_of_not_dvd (not_dvd_of_carry_lt (by omega) (by omega))
  constructor
  · intro hplace
    obtain ⟨hrank, hdigit⟩ := Prod.mk.inj hplace
    rw [hrank] at hdigit
    by_cases hlt : c < R.top
    · apply block_eq_of_digit _ hdigit
      rw [habove hlt, ← hrank]
      exact block_rank_eq (by omega)
    · -- at the top the horizon leaves only one block with this digit
      obtain rfl : c = R.top := by omega
      unfold Within at hwithin
      have hgap : (R.block R.top deadline - R.block R.top (now + 1)) % R.size R.top = 0 :=
        Nat.sub_mod_eq_zero_of_mod_eq hdigit
      rw [Nat.mod_eq_of_lt (by omega)] at hgap
      omega
  · intro hblock
    have hrank : R.rank now deadline = c := by
      apply le_antisymm _ hle
      by_cases hlt : c < R.top
      · apply rank_le_of_block_eq
        rw [← habove hlt]
        exact block_eq_of_le (Nat.le_succ c) hblock
      · have := rank_le_top (R := R) now deadline
        omega
    rw [place, hrank, digit, digit, hblock]

/-- Deadlines outside the emptied bucket keep their place. -/
theorem place_succ_of_ne (hpending : now < deadline) (hwithin : R.Within now deadline)
    (hne : R.place now deadline ≠ (R.carry (now + 1), R.digit (R.carry (now + 1)) (now + 1))) :
    R.place (now + 1) deadline = R.place now deadline := by
  rw [Ne, place_eq_carry_iff hpending hwithin] at hne
  apply place_eq_of_block_iff
  intro j hj
  by_cases hjc : j < R.carry (now + 1)
  · -- below the carry the deadline agrees with neither time
    have hcarried : R.block (R.carry (now + 1)) (now + 1) = R.block (R.carry (now + 1)) now + 1 :=
      block_succ_of_dvd (base_carry_dvd (now + 1))
    have hmono : R.block (R.carry (now + 1)) (now + 1) ≤ R.block (R.carry (now + 1)) deadline :=
      block_mono hpending
    constructor
    · intro h
      exact (hne (block_eq_of_le hjc h)).elim
    · intro h
      have hsame : R.block (R.carry (now + 1)) deadline = R.block (R.carry (now + 1)) now :=
        block_eq_of_le hjc h
      omega
  · rw [block_succ_of_not_dvd (not_dvd_of_carry_lt (by omega) (by omega))]

/-- Deadlines from the emptied bucket move below the carried position. -/
theorem rank_succ_lt_of_eq (hpending : now < deadline)
    (hwithin : R.Within now deadline) (hcarry : 0 < R.carry (now + 1))
    (heq : R.place now deadline = (R.carry (now + 1), R.digit (R.carry (now + 1)) (now + 1))) :
    R.rank (now + 1) deadline < R.carry (now + 1) := by
  rw [place_eq_carry_iff hpending hwithin] at heq
  obtain ⟨c, hc⟩ : ∃ c, R.carry (now + 1) = c + 1 :=
    ⟨R.carry (now + 1) - 1, by omega⟩
  rw [hc] at heq ⊢
  exact Nat.lt_succ_of_le (rank_le_of_block_eq heq)

/-- The bucket of the current time holds what is due and nothing else. -/
theorem place_eq_due_iff (hle : now ≤ deadline) (hwithin : R.Within now deadline) :
    R.place now deadline = (0, R.digit 0 now) ↔ deadline = now := by
  constructor
  · intro hplace
    obtain ⟨hrank, hdigit⟩ := Prod.mk.inj hplace
    rw [hrank] at hdigit
    have hblock : R.block 0 deadline = R.block 0 now := by
      by_cases htop : R.top = 0
      · unfold Within at hwithin
        rw [htop] at hwithin
        have hmono : R.block 0 now ≤ R.block 0 deadline := block_mono hle
        have hgap : (R.block 0 deadline - R.block 0 now) % R.size 0 = 0 :=
          Nat.sub_mod_eq_zero_of_mod_eq hdigit
        rw [Nat.mod_eq_of_lt (by omega)] at hgap
        omega
      · have habove : R.block (R.rank now deadline + 1) deadline =
            R.block (R.rank now deadline + 1) now :=
          block_rank_eq (by omega)
        rw [hrank] at habove
        exact block_eq_of_digit habove hdigit
    rwa [block_zero, block_zero] at hblock
  · rintro rfl
    have hrank : R.rank deadline deadline = 0 :=
      Nat.le_zero.mp (rank_le_of_block_eq rfl)
    rw [place, hrank]

/-- A tick without a carry moves nothing. -/
theorem place_succ_of_carry_eq_zero (hpending : now < deadline)
    (hwithin : R.Within now deadline) (hcarry : R.carry (now + 1) = 0) :
    R.place (now + 1) deadline = R.place now deadline := by
  by_cases hplace : R.place now deadline =
      (R.carry (now + 1), R.digit (R.carry (now + 1)) (now + 1))
  · -- the emptied bucket is the one of the new time, where what is due stays
    have hdue : deadline = now + 1 := by
      have hblock := (place_eq_carry_iff hpending hwithin).mp hplace
      rwa [hcarry, block_zero, block_zero] at hblock
    rw [hplace, hcarry, hdue]
    exact (place_eq_due_iff (le_refl _) (Nat.lt_add_of_pos_right (Nat.two_pow_pos _))).mpr rfl
  · exact place_succ_of_ne hpending hwithin hplace

end Radix

/-! ## Buckets in arrival order -/

section Buckets

variable {α β : Type*} [DecidableEq β] {items : List α}

/-- The items of one bucket, in arrival order. -/
def bucket (place : α → β) (items : List α) (b : β) : List α :=
  items.filter fun a => place a = b

theorem bucket_congr {place place' : α → β} (h : ∀ a ∈ items, place a = place' a) (b : β) :
    bucket place items b = bucket place' items b := by
  apply List.filter_congr
  intro a ha
  simp only [h a ha]

/-- Removing the items of one bucket empties it and leaves the others. -/
theorem bucket_filter_place_ne {place : α → β} {b : β} {keep : α → Bool}
    (h : ∀ a ∈ items, keep a = true ↔ place a ≠ b) (c : β) :
    bucket place (items.filter keep) c =
      if c = b then [] else bucket place items c := by
  rw [bucket, List.filter_filter]
  split_ifs with hcb
  · rw [List.filter_eq_nil_iff]
    intro a ha hmem
    rw [Bool.and_eq_true, decide_eq_true_eq] at hmem
    exact (h a ha).mp hmem.2 (hmem.1.trans hcb)
  · apply List.filter_congr
    intro a ha
    by_cases hplace : place a = c
    · have hkept := (h a ha).mpr fun hb => hcb (hplace.symm.trans hb)
      simp [hplace, hkept]
    · simp [hplace]

theorem bucket_append_singleton (place : α → β) (items : List α) (a : α) (b : β) :
    bucket place (items ++ [a]) b =
      if place a = b then bucket place items b ++ [a]
      else bucket place items b := by
  by_cases h : place a = b
  · simp [bucket, h]
  · simp [bucket, h]

/-- Empty bucket `b` and place its items anew.  If the other items keep their
bucket and none of them shares a bucket with a moved item, then all buckets are
in arrival order for the new placement. -/
theorem redistribute {old new : α → β} {b : β} (hkeep : ∀ a ∈ items, old a ≠ b → new a = old a)
    (hfree : ∀ a ∈ items, ∀ a' ∈ items, old a = b → old a' ≠ b → old a' ≠ new a) (c : β) :
    (if c = b then [] else bucket old items c) ++ bucket new (bucket old items b) c =
      bucket new items c := by
  by_cases hmoved : ∃ a ∈ items, old a = b ∧ new a = c
  · -- a moved item arrives in `c`: whatever is in `c` afterwards was moved
    obtain ⟨a, ha, hold, hnew⟩ := hmoved
    have hempty : (if c = b then [] else bucket old items c) = [] := by
      split_ifs with hcb
      · rfl
      · rw [bucket, List.filter_eq_nil_iff]
        intro a' ha' hmem
        have hplace := of_decide_eq_true hmem
        have hne : old a' ≠ b := fun h => hcb (hplace.symm.trans h)
        exact hfree a ha a' ha' hold hne (hplace.trans hnew.symm)
    rw [hempty, List.nil_append, bucket, bucket, bucket, List.filter_filter]
    apply List.filter_congr
    intro a' ha'
    by_cases hnew' : new a' = c
    · have hold' : old a' = b := by
        by_contra hne
        exact hfree a ha a' ha' hold hne ((hkeep a' ha' hne).symm.trans (hnew'.trans hnew.symm))
      simp [hnew', hold']
    · simp [hnew']
  · -- no moved item arrives in `c`: its content changes only if it is `b`
    have hnone : bucket new (bucket old items b) c = [] := by
      rw [bucket, List.filter_eq_nil_iff]
      intro a hmem hnew
      obtain ⟨ha, hold⟩ := List.mem_filter.mp hmem
      exact hmoved ⟨a, ha, of_decide_eq_true hold, of_decide_eq_true hnew⟩
    rw [hnone, List.append_nil]
    split_ifs with hcb
    · symm
      rw [bucket, List.filter_eq_nil_iff]
      intro a ha hnew
      have hplace := of_decide_eq_true hnew
      have hne : old a ≠ b := fun h => hmoved ⟨a, ha, h, hplace⟩
      exact hne ((hkeep a ha hne).symm.trans (hplace.trans hcb))
    · apply List.filter_congr
      intro a ha
      by_cases hold : old a = b
      · have hleft : old a ≠ c := fun h => hcb (h.symm.trans hold)
        have hright : new a ≠ c := fun h => hmoved ⟨a, ha, hold, h⟩
        simp [hleft, hright]
      · rw [hkeep a ha hold]

/-- A tick that carries: emptying the bucket of the carry and placing its items
anew puts every item where the new time wants it, in arrival order. -/
theorem Radix.redistribute_carry {R : Radix} {now : Nat} {deadline : α → Nat}
    (hpending : ∀ a ∈ items, now < deadline a)
    (hwithin : ∀ a ∈ items, R.Within now (deadline a))
    (hcarry : 0 < R.carry (now + 1)) (c : Nat × Nat) :
    (if c = (R.carry (now + 1), R.digit (R.carry (now + 1)) (now + 1)) then []
      else bucket (fun a => R.place now (deadline a)) items c) ++
        bucket (fun a => R.place (now + 1) (deadline a))
          (bucket (fun a => R.place now (deadline a)) items
            (R.carry (now + 1), R.digit (R.carry (now + 1)) (now + 1))) c =
      bucket (fun a => R.place (now + 1) (deadline a)) items c := by
  apply redistribute
  · intro a ha hne
    exact place_succ_of_ne (hpending a ha) (hwithin a ha) hne
  · intro a ha a' ha' hmoved _ hsame
    -- moved items end up below the carry, the others are not below it
    have hbelow := rank_succ_lt_of_eq (hpending a ha) (hwithin a ha) hcarry hmoved
    have habove := carry_le_rank (R := R) (hpending a' ha')
    have hrank : R.rank now (deadline a') = R.rank (now + 1) (deadline a) :=
      congrArg Prod.fst hsame
    omega

end Buckets

end Lib
end GameServer
