import Mathlib.Data.List.Basic

/-!
# Copying into a fixed array

An array of fixed size is the list of its elements, and a pointer into it is
an offset.  A field of a record laid out in memory is the part of the array
at the field's offset.
-/

namespace GameServer
namespace Lib

variable {α : Type*} {array : List α} {offset : Nat}

/-- `memcpy` or `memmove` of `bytes` to `array + offset`, for a fixed-size
array.  Only the part inside the array is stored. -/
def memcpy (array : List α) (offset : Nat) (bytes : List α) : List α :=
  (array.take offset ++ bytes ++ array.drop (offset + bytes.length)).take
    array.length

@[simp] theorem length_memcpy (array : List α) (offset : Nat) (bytes : List α) :
    (memcpy array offset bytes).length = array.length := by
  simp only [memcpy, List.length_take, List.length_append, List.length_drop]
  omega

/-- A copy that stays inside the array. -/
theorem memcpy_eq {bytes : List α} (h : offset + bytes.length ≤ array.length) :
    memcpy array offset bytes =
      array.take offset ++ bytes ++ array.drop (offset + bytes.length) := by
  apply List.take_of_length_le
  simp only [List.length_append, List.length_take, List.length_drop]
  omega

/-- A copy behind the first part of an array. -/
theorem memcpy_append {first rest bytes : List α} (h : bytes.length ≤ rest.length) :
    memcpy (first ++ rest) first.length bytes =
      first ++ bytes ++ rest.drop bytes.length := by
  rw [memcpy_eq (by rw [List.length_append]; omega), List.take_left,
    List.drop_append, Nat.add_sub_cancel_left,
    List.drop_of_length_le (Nat.le_add_right _ _), List.nil_append]

/-- What a copy to the front of an array leaves there. -/
theorem take_memcpy_zero {array bytes : List α} (h : bytes.length ≤ array.length) :
    (memcpy array 0 bytes).take bytes.length = bytes := by
  rw [memcpy_eq (by omega), List.take_zero, List.nil_append, List.take_left' rfl]

/-- What a copy leaves at an index. -/
theorem getElem?_memcpy {block : List α} {j : Nat} (h : offset + block.length ≤ array.length) :
    (memcpy array offset block)[j]? =
      if offset ≤ j ∧ j < offset + block.length then block[j - offset]?
      else array[j]? := by
  have hoffset : (array.take offset).length = offset := by
    rw [List.length_take]
    omega
  rw [memcpy_eq h, List.append_assoc, List.getElem?_append, hoffset]
  split_ifs with hbefore hinside hinside
  · omega
  · rw [List.getElem?_take_of_lt hbefore]
  · rw [List.getElem?_append_left (by omega)]
  · rw [List.getElem?_append_right (by omega), List.getElem?_drop]
    congr 1
    omega

/-- The `size` elements at an offset. -/
def field (array : List α) (offset size : Nat) : List α :=
  (array.drop offset).take size

theorem length_field {size : Nat} (h : offset + size ≤ array.length) :
    (field array offset size).length = size := by
  simp only [field, List.length_take, List.length_drop]
  omega

/-- The field that a block makes up. -/
theorem field_append (first block rest : List α) :
    field (first ++ (block ++ rest)) first.length block.length = block := by
  rw [field, List.drop_left, List.take_left]

theorem getElem?_field (array : List α) {size i : Nat} (h : i < size) :
    (field array offset size)[i]? = array[offset + i]? := by
  rw [field, List.getElem?_take_of_lt h, List.getElem?_drop]

/-- What is stored in a field is found there. -/
theorem field_memcpy_self {array block : List α} {offset : Nat}
    (h : offset + block.length ≤ array.length) :
    field (memcpy array offset block) offset block.length = block := by
  apply List.ext_getElem?
  intro i
  by_cases hi : i < block.length
  · rw [getElem?_field _ hi, getElem?_memcpy h, if_pos (by omega), Nat.add_sub_cancel_left]
  · rw [List.getElem?_eq_none, List.getElem?_eq_none (by omega)]
    rw [length_field (by rw [length_memcpy]; exact h)]
    omega

/-- Storing to a field leaves the other fields alone. -/
theorem field_memcpy_of_disjoint {block : List α}
    (h : offset + block.length ≤ array.length) {other size : Nat}
    (hdisjoint : other + size ≤ offset ∨ offset + block.length ≤ other) :
    field (memcpy array offset block) other size = field array other size := by
  apply List.ext_getElem?
  intro i
  by_cases hi : i < size
  · rw [getElem?_field _ hi, getElem?_field _ hi, getElem?_memcpy h, if_neg (by omega)]
  · rw [List.getElem?_eq_none, List.getElem?_eq_none]
    · simp only [field, List.length_take]
      omega
    · simp only [field, List.length_take]
      omega

end Lib
end GameServer
