import Mathlib.Tactic

/-!
# Masks of low bits

What the bit operations of a machine word say about division and remainder by a
power of two.
-/

namespace GameServer
namespace Lib

/-- Filling the low `k` bits with ones forgets exactly those bits. -/
theorem or_two_pow_sub_one_eq_iff (x y k : Nat) :
    x ||| (2 ^ k - 1) = y ||| (2 ^ k - 1) ↔ x / 2 ^ k = y / 2 ^ k := by
  constructor
  · intro h
    apply Nat.eq_of_testBit_eq
    intro i
    have hbit := congrArg (fun n => n.testBit (k + i)) h
    simpa [Nat.testBit_or, Nat.testBit_two_pow_sub_one,
      Nat.testBit_div_two_pow, Nat.add_comm] using hbit
  · intro h
    apply Nat.eq_of_testBit_eq
    intro i
    rw [Nat.testBit_or, Nat.testBit_or, Nat.testBit_two_pow_sub_one]
    by_cases hi : i < k
    · simp [hi]
    · have hbit := congrArg (fun n => n.testBit (i - k)) h
      simp only [Nat.testBit_div_two_pow] at hbit
      rw [Nat.sub_add_cancel (by omega)] at hbit
      rw [hbit]

/-- The 32-bit word whose low `k` bits are set. -/
def lowMask (k : Nat) : UInt32 := UInt32.ofNat (2 ^ k - 1)

theorem toNat_lowMask {k : Nat} (h : k ≤ 32) : (lowMask k).toNat = 2 ^ k - 1 := by
  have hle := Nat.pow_le_pow_right (show 0 < 2 by decide) h
  have hpos := Nat.two_pow_pos k
  rw [lowMask, UInt32.toNat_ofNat']
  apply Nat.mod_eq_of_lt
  omega

theorem or_lowMask_eq_iff {x y : UInt32} {k : Nat} (h : k ≤ 32) :
    x ||| lowMask k = y ||| lowMask k ↔ x.toNat / 2 ^ k = y.toNat / 2 ^ k := by
  rw [← or_two_pow_sub_one_eq_iff, ← toNat_lowMask h, ← UInt32.toNat_or,
    ← UInt32.toNat_or, UInt32.toNat_inj]

theorem toNat_and_lowMask (x : UInt32) {k : Nat} (h : k ≤ 32) :
    (x &&& lowMask k).toNat = x.toNat % 2 ^ k := by
  rw [UInt32.toNat_and, toNat_lowMask h, Nat.and_two_pow_sub_one_eq_mod]

theorem and_lowMask_eq_zero_iff (x : UInt32) {k : Nat} (h : k ≤ 32) :
    x &&& lowMask k = 0 ↔ x.toNat % 2 ^ k = 0 := by
  rw [← toNat_and_lowMask x h, ← UInt32.toNat_inj]
  rfl

/-- Joining a shifted field with what fits below it adds the two. -/
theorem shiftLeft_or_eq_add {b n : Nat} (h : b < 2 ^ n) (a : Nat) :
    a <<< n ||| b = a * 2 ^ n + b := by
  rw [← Nat.shiftLeft_add_eq_or_of_lt h, Nat.shiftLeft_eq]

/-- Cutting a number down to another one. -/
theorem toNat_ite_gt (a b : UInt32) : (if a > b then b else a).toNat = min a.toNat b.toNat := by
  split_ifs with h
  · rw [gt_iff_lt, UInt32.lt_iff_toNat_lt] at h
    omega
  · rw [gt_iff_lt, UInt32.lt_iff_toNat_lt] at h
    omega

end Lib
end GameServer
