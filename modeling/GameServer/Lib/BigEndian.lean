import Mathlib.Tactic

/-!
# Big-endian integers and two's complement

Fixed-width integers as byte lists, most significant byte first, together with
the two's complement reading of a machine word.  Widths are counted in bytes;
`bytesOfNat w n` keeps the low `w` bytes of `n`, which is what a store of a
`w`-byte integer does.
-/

namespace GameServer
namespace Lib

/-- The number a big-endian byte string denotes. -/
def natOfBytes : List UInt8 → Nat
  | [] => 0
  | b :: rest => b.toNat * 256 ^ rest.length + natOfBytes rest

/-- The low `w` bytes of `n`, most significant first. -/
def bytesOfNat : Nat → Nat → List UInt8
  | 0, _ => []
  | w + 1, n => UInt8.ofNat (n / 256 ^ w) :: bytesOfNat w n

@[simp] theorem length_bytesOfNat (w n : Nat) : (bytesOfNat w n).length = w := by
  induction w with
  | zero => rfl
  | succ w ih => simp [bytesOfNat, ih]

/-- A byte string denotes a number below the power of its length. -/
theorem natOfBytes_lt (bytes : List UInt8) : natOfBytes bytes < 256 ^ bytes.length := by
  induction bytes with
  | nil => simp [natOfBytes]
  | cons b rest ih =>
    have hb : b.toNat ≤ 255 := by
      have := b.toNat_lt
      omega
    have hmul : b.toNat * 256 ^ rest.length ≤ 255 * 256 ^ rest.length :=
      Nat.mul_le_mul_right _ hb
    rw [natOfBytes, List.length_cons, Nat.pow_succ]
    omega

/-- Reading back a stored integer gives its value modulo the width. -/
@[simp] theorem natOfBytes_bytesOfNat (w n : Nat) : natOfBytes (bytesOfNat w n) = n % 256 ^ w := by
  induction w with
  | zero => simp [bytesOfNat, natOfBytes, Nat.mod_one]
  | succ w ih =>
    rw [bytesOfNat, natOfBytes, ih, length_bytesOfNat, Nat.pow_succ, Nat.mod_mul]
    have hbyte : (UInt8.ofNat (n / 256 ^ w)).toNat = n / 256 ^ w % 256 :=
      UInt8.toNat_ofNat'
    rw [hbyte, Nat.mul_comm, Nat.add_comm]

/-- Only the low bytes of a number are stored. -/
theorem bytesOfNat_add_mul (w n k : Nat) : bytesOfNat w (n + k * 256 ^ w) = bytesOfNat w n := by
  induction w generalizing k with
  | zero => rfl
  | succ w ih =>
    have hpow : k * 256 ^ (w + 1) = k * 256 * 256 ^ w := by ring
    have hbyte : (n + k * 256 * 256 ^ w) / 256 ^ w = n / 256 ^ w + k * 256 :=
      Nat.add_mul_div_right _ _ (by positivity)
    have hhead : UInt8.ofNat (n / 256 ^ w + k * 256) = UInt8.ofNat (n / 256 ^ w) := by
      apply UInt8.toNat_inj.mp
      rw [UInt8.toNat_ofNat', UInt8.toNat_ofNat']
      exact Nat.add_mul_mod_self_right _ _ _
    rw [bytesOfNat, bytesOfNat, hpow, ih, hbyte, hhead]

/-- Storing the number a byte string denotes gives the string back. -/
theorem bytesOfNat_natOfBytes (bytes : List UInt8) :
    bytesOfNat bytes.length (natOfBytes bytes) = bytes := by
  induction bytes with
  | nil => rfl
  | cons b rest ih =>
    have hlt := natOfBytes_lt rest
    have hhead : (b.toNat * 256 ^ rest.length + natOfBytes rest) / 256 ^ rest.length = b.toNat := by
      rw [Nat.add_comm, Nat.add_mul_div_right _ _ (by positivity),
        Nat.div_eq_of_lt hlt, Nat.zero_add]
    rw [List.length_cons, natOfBytes, bytesOfNat, hhead, Nat.add_comm,
      bytesOfNat_add_mul, ih, UInt8.ofNat_toNat]

/-- The signed value of a `bits`-wide word given by its unsigned value. -/
def toSigned (bits n : Nat) : Int :=
  if n < 2 ^ (bits - 1) then (n : Int) else (n : Int) - 2 ^ bits

/-- The unsigned value of the `bits`-wide word a conversion of `z` produces. -/
def ofSigned (bits : Nat) (z : Int) : Nat :=
  (z % 2 ^ bits).toNat

theorem ofSigned_natCast {bits n : Nat} (h : n < 2 ^ bits) : ofSigned bits n = n := by
  have hmod : ((n : Int) % 2 ^ bits) = n := by
    apply Int.emod_eq_of_lt (Int.natCast_nonneg n)
    exact_mod_cast h
  rw [ofSigned, hmod, Int.toNat_natCast]

/-- Converting a value that fits into a signed word and reading it back is the
identity. -/
theorem toSigned_ofSigned {bits : Nat} {z : Int} (hbits : 0 < bits)
    (hlow : -2 ^ (bits - 1) ≤ z) (hhigh : z < 2 ^ (bits - 1)) :
    toSigned bits (ofSigned bits z) = z := by
  obtain ⟨k, rfl⟩ : ∃ k, bits = k + 1 := ⟨bits - 1, by omega⟩
  simp only [Nat.add_sub_cancel] at hlow hhigh
  have hpow : (2 : Int) ^ (k + 1) = 2 * 2 ^ k := by ring
  have hpos : (0 : Int) < 2 ^ k := by positivity
  unfold toSigned ofSigned
  rw [Nat.add_sub_cancel]
  by_cases hneg : z < 0
  · have hmod : z % 2 ^ (k + 1) = z + 2 ^ (k + 1) := by
      rw [← Int.add_emod_right]
      exact Int.emod_eq_of_lt (by omega) (by omega)
    rw [hmod]
    have hcast : ((z + 2 ^ (k + 1)).toNat : Int) = z + 2 ^ (k + 1) :=
      Int.toNat_of_nonneg (by omega)
    have hnot : ¬ (z + 2 ^ (k + 1)).toNat < 2 ^ k := by
      intro hlt
      have : ((z + 2 ^ (k + 1)).toNat : Int) < 2 ^ k := by exact_mod_cast hlt
      omega
    rw [if_neg hnot, hcast]
    omega
  · have hmod : z % 2 ^ (k + 1) = z :=
      Int.emod_eq_of_lt (by omega) (by omega)
    rw [hmod]
    have hcast : (z.toNat : Int) = z := Int.toNat_of_nonneg (by omega)
    have hlt : z.toNat < 2 ^ k := by
      have : (z.toNat : Int) < 2 ^ k := by omega
      exact_mod_cast this
    rw [if_pos hlt, hcast]

/-- Reading a word as a signed value and converting that back is the identity
on the word. -/
theorem ofSigned_toSigned {bits n : Nat} (h : n < 2 ^ bits) :
    ofSigned bits (toSigned bits n) = n := by
  have hcast : (n : Int) < 2 ^ bits := by exact_mod_cast h
  unfold toSigned ofSigned
  split_ifs
  · rw [Int.emod_eq_of_lt (by omega) hcast, Int.toNat_natCast]
  · rw [Int.sub_emod_right, Int.emod_eq_of_lt (by omega) hcast, Int.toNat_natCast]

end Lib
end GameServer
