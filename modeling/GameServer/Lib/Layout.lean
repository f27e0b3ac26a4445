import GameServer.Lib.BigEndian
import GameServer.Lib.Memory

/-!
# Records laid out in memory

A record is written to memory field by field, each at its offset, and read from
a copy of that memory in the same way.  If the fields do not overlap, what is
read is what was written, whatever the memory held before.

Integers are stored with the least significant byte first.
-/

namespace GameServer
namespace Lib

section Fields

variable {α : Type*} {blocks : List (Nat × List α)}

/-- Store blocks at their offsets, one after the other. -/
def storeAll (array : List α) (blocks : List (Nat × List α)) : List α :=
  blocks.foldl (fun array block => memcpy array block.1 block.2) array

/-- The blocks lie one behind the other between two offsets. -/
def LaidOut (start size : Nat) : List (Nat × List α) → Prop
  | [] => True
  | (offset, block) :: rest =>
    start ≤ offset ∧ offset + block.length ≤ size ∧
      LaidOut (offset + block.length) size rest

theorem LaidOut.end_le {start size : Nat} (h : LaidOut start size blocks)
    {offset : Nat} {bytes : List α} (hmem : (offset, bytes) ∈ blocks) :
    offset + bytes.length ≤ size := by
  induction blocks generalizing start with
  | nil => cases hmem
  | cons block rest ih =>
    obtain ⟨-, hend, hrest⟩ := h
    rcases List.mem_cons.mp hmem with heq | hmem
    · cases heq
      exact hend
    · exact ih hrest hmem

@[simp] theorem length_storeAll (array : List α) (blocks : List (Nat × List α)) :
    (storeAll array blocks).length = array.length := by
  induction blocks generalizing array with
  | nil => rfl
  | cons block rest ih => exact (ih _).trans (length_memcpy ..)

/-- What lies in front of the blocks is left alone. -/
theorem field_storeAll_before {start size : Nat} {array : List α}
    (h : LaidOut start size blocks) (hsize : size ≤ array.length)
    {offset n : Nat} (hn : offset + n ≤ start) :
    field (storeAll array blocks) offset n = field array offset n := by
  induction blocks generalizing array start with
  | nil => rfl
  | cons block rest ih =>
    obtain ⟨place, bytes⟩ := block
    obtain ⟨hstart, hend, hrest⟩ := h
    have hlength : size ≤ (memcpy array place bytes).length := by
      rwa [length_memcpy]
    rw [storeAll, List.foldl_cons, ← storeAll, ih hrest hlength (by omega)]
    exact field_memcpy_of_disjoint (by omega) (.inl (by omega))

/-- Every block is found at its offset. -/
theorem field_storeAll {start size : Nat} {array : List α}
    (h : LaidOut start size blocks) (hsize : size ≤ array.length) {offset : Nat}
    {bytes : List α} (hmem : (offset, bytes) ∈ blocks) :
    field (storeAll array blocks) offset bytes.length = bytes := by
  induction blocks generalizing array start with
  | nil => cases hmem
  | cons block rest ih =>
    obtain ⟨place, front⟩ := block
    obtain ⟨hstart, hend, hrest⟩ := h
    have hlength : size ≤ (memcpy array place front).length := by
      rwa [length_memcpy]
    rw [storeAll, List.foldl_cons, ← storeAll]
    rcases List.mem_cons.mp hmem with heq | hmem
    · cases heq
      rw [field_storeAll_before hrest hlength le_rfl]
      exact field_memcpy_self (by omega)
    · exact ih hrest hlength hmem

theorem field_add (array : List α) (offset m n : Nat) :
    field array offset (m + n) =
      field array offset m ++ field array (offset + m) n := by
  rw [field, field, field, List.take_add, List.drop_drop]

/-- A field of what has been read into a buffer. -/
theorem field_memcpy_take {buffer array : List α} {len offset n : Nat}
    (hlen : len ≤ array.length) (hbuffer : len ≤ buffer.length)
    (hn : offset + n ≤ len) :
    field (memcpy buffer 0 (array.take len)) offset n = field array offset n := by
  have htake : (array.take len).length = len := by
    rw [List.length_take]
    omega
  apply List.ext_getElem?
  intro i
  by_cases hi : i < n
  · rw [getElem?_field _ hi, getElem?_field _ hi,
      getElem?_memcpy (by omega), if_pos (by omega), Nat.sub_zero,
      List.getElem?_take_of_lt (by omega)]
  · rw [List.getElem?_eq_none, List.getElem?_eq_none]
    · rw [length_field (by omega)]
      omega
    · rw [length_field (by rw [length_memcpy]; omega)]
      omega

end Fields

/-! ## Integers -/

/-- The low `w` bytes of a number. -/
def wordBytes (w n : Nat) : List UInt8 := (bytesOfNat w n).reverse

/-- The number stored in bytes. -/
def wordOf (bytes : List UInt8) : Nat := natOfBytes bytes.reverse

@[simp] theorem length_wordBytes (w n : Nat) : (wordBytes w n).length = w := by
  simp [wordBytes]

theorem wordOf_wordBytes (w n : Nat) : wordOf (wordBytes w n) = n % 256 ^ w := by
  rw [wordOf, wordBytes, List.reverse_reverse, natOfBytes_bytesOfNat]

/-- An `int` in memory. -/
def int32Bytes (x : Int32) : List UInt8 := wordBytes 4 x.toBitVec.toNat

@[inherit_doc int32Bytes] def int32Of (bytes : List UInt8) : Int32 :=
  .ofBitVec (BitVec.ofNat 32 (wordOf bytes))

@[simp] theorem length_int32Bytes (x : Int32) : (int32Bytes x).length = 4 :=
  length_wordBytes ..

@[simp] theorem int32Of_int32Bytes (x : Int32) : int32Of (int32Bytes x) = x := by
  have hlt : x.toBitVec.toNat < 256 ^ 4 := x.toBitVec.isLt
  rw [int32Of, int32Bytes, wordOf_wordBytes, Nat.mod_eq_of_lt hlt,
    BitVec.ofNat_toNat, BitVec.setWidth_eq, Int32.ofBitVec_toBitVec]

/-- A `uintptr_t` or a pointer in memory. -/
def uint64Bytes (x : UInt64) : List UInt8 := wordBytes 8 x.toNat

@[inherit_doc uint64Bytes] def uint64Of (bytes : List UInt8) : UInt64 :=
  .ofNat (wordOf bytes)

@[simp] theorem length_uint64Bytes (x : UInt64) : (uint64Bytes x).length = 8 := length_wordBytes ..

@[simp] theorem uint64Of_uint64Bytes (x : UInt64) : uint64Of (uint64Bytes x) = x := by
  have hlt : x.toNat < 256 ^ 8 := x.toNat_lt
  rw [uint64Of, uint64Bytes, wordOf_wordBytes, Nat.mod_eq_of_lt hlt, UInt64.ofNat_toNat]

end Lib
end GameServer
