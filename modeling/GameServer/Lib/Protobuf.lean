import Mathlib.Data.Nat.Log
import Mathlib.Tactic

/-!
# The protobuf wire format

Base-128 varints and the two kinds of fields built from them: a varint, and a
byte string behind its length.  A message is a list of numbered fields; a field
with its default value is left out of the list, which is how proto3 serialises
a message.  The results are the round trip of a list of fields and the number
of bytes each field takes.

Numbers are natural numbers of any size; the width of a field's type is the
business of the message that uses it.
-/

namespace GameServer
namespace Lib

/-- The base-128 encoding of a number, lowest digit first, with the high bit
set on every byte but the last. -/
def varint (n : Nat) : List UInt8 :=
  if n < 128 then [UInt8.ofNat n]
  else UInt8.ofNat (n % 128 + 128) :: varint (n / 128)
termination_by n

/-- The number at the front of a byte string, and the bytes behind it. -/
def readVarint : List UInt8 → Option (Nat × List UInt8)
  | [] => none
  | b :: rest =>
    if b.toNat < 128 then some (b.toNat, rest)
    else (readVarint rest).map fun (n, rest) =>
      (b.toNat - 128 + 128 * n, rest)

/-- A varint takes one byte for every base-128 digit. -/
@[simp] theorem length_varint (n : Nat) : (varint n).length = Nat.log 128 n + 1 := by
  induction n using Nat.strongRecOn with
  | ind n ih =>
    rw [varint]
    split_ifs with hsmall
    · rw [Nat.log_of_lt hsmall]
      rfl
    · have hlarge : 128 ≤ n := Nat.not_lt.mp hsmall
      rw [List.length_cons, ih (n / 128) (by omega), Nat.log_of_one_lt_of_le (by decide) hlarge]

/-- Reading behind an encoded number gives the number and what follows. -/
theorem readVarint_varint_append (n : Nat) (rest : List UInt8) :
    readVarint (varint n ++ rest) = some (n, rest) := by
  induction n using Nat.strongRecOn with
  | ind n ih =>
    rw [varint]
    split_ifs with hsmall
    · have hbyte : (UInt8.ofNat n).toNat = n := by
        rw [UInt8.toNat_ofNat']
        omega
      rw [List.singleton_append, readVarint, hbyte, if_pos hsmall]
    · have hbyte : (UInt8.ofNat (n % 128 + 128)).toNat = n % 128 + 128 := by
        rw [UInt8.toNat_ofNat']
        omega
      have hdigits : n % 128 + 128 - 128 + 128 * (n / 128) = n := by omega
      rw [List.cons_append, readVarint, hbyte, if_neg (by omega),
        ih (n / 128) (by omega), Option.map_some]
      exact congrArg (fun n => some (n, rest)) hdigits

/-- The value of a field. -/
inductive WireValue where
  | varint (n : Nat)
  | bytes (b : List UInt8)
deriving Repr, DecidableEq

/-- A field: its number and its value. -/
abbrev WireField := Nat × WireValue

/-- The bytes of a field: the tag, which holds the field's number and the kind
of its value, and the value. -/
def writeField : WireField → List UInt8
  | (number, .varint n) => varint (8 * number) ++ varint n
  | (number, .bytes b) => varint (8 * number + 2) ++ (varint b.length ++ b)

/-- The bytes of a message. -/
def writeFields (fields : List WireField) : List UInt8 :=
  (fields.map writeField).flatten

/-- The field at the front of a byte string, and the bytes behind it.  `none`
when the bytes end inside the field or the value is of another kind. -/
def readField (bytes : List UInt8) : Option (WireField × List UInt8) := do
  let (tag, rest) ← readVarint bytes
  let (n, rest) ← readVarint rest
  match tag % 8 with
  | 0 => some ((tag / 8, .varint n), rest)
  | 2 =>
    if n ≤ rest.length then
      some ((tag / 8, .bytes (rest.take n)), rest.drop n)
    else
      none
  | _ => none

/-- The fields at the front of a byte string, `fuel` of them at most, up to the
first that cannot be read. -/
def readFields : Nat → List UInt8 → List WireField
  | 0, _ => []
  | fuel + 1, bytes =>
    match readField bytes with
    | none => []
    | some (field, rest) => field :: readFields fuel rest

/-- Reading behind a written field gives the field and what follows. -/
theorem readField_writeField_append (field : WireField) (rest : List UInt8) :
    readField (writeField field ++ rest) = some (field, rest) := by
  obtain ⟨number, n | b⟩ := field
  · have hkind : 8 * number % 8 = 0 := by omega
    have hnumber : 8 * number / 8 = number := by omega
    simp only [writeField, readField, List.append_assoc,
      readVarint_varint_append, Option.bind_eq_bind, Option.bind_some, hkind,
      hnumber]
  · have hkind : (8 * number + 2) % 8 = 2 := by omega
    have hnumber : (8 * number + 2) / 8 = number := by omega
    have hlength : b.length ≤ (b ++ rest).length := by simp
    simp only [writeField, readField, List.append_assoc,
      readVarint_varint_append, Option.bind_eq_bind, Option.bind_some, hkind,
      hnumber, if_pos hlength, List.take_left, List.drop_left]

/-- Reading a written message gives its fields back. -/
theorem readFields_writeFields {fuel : Nat} {fields : List WireField}
    (hfuel : fields.length ≤ fuel) :
    readFields fuel (writeFields fields) = fields := by
  induction fuel generalizing fields with
  | zero =>
    have hnil : fields = [] := List.length_eq_zero_iff.mp (by omega)
    rw [hnil]
    rfl
  | succ fuel ih =>
    cases fields with
    | nil => rfl
    | cons field fields =>
      have hfields : fields.length ≤ fuel := Nat.le_of_succ_le_succ hfuel
      have hbytes : writeFields (field :: fields) = writeField field ++ writeFields fields := rfl
      rw [hbytes, readFields, readField_writeField_append]
      show field :: readFields fuel (writeFields fields) = _
      rw [ih hfields]

theorem writeFields_append (first second : List WireField) :
    writeFields (first ++ second) = writeFields first ++ writeFields second :=
  by simp only [writeFields, List.map_append, List.flatten_append]

/-- A message is at least as long as the number of its fields. -/
theorem length_le_length_writeFields (fields : List WireField) :
    fields.length ≤ (writeFields fields).length := by
  induction fields with
  | nil => exact Nat.zero_le _
  | cons field fields ih =>
    have hpos : 0 < (writeField field).length := by
      obtain ⟨number, n | b⟩ := field
      · simp only [writeField, List.length_append, length_varint]
        omega
      · simp only [writeField, List.length_append, length_varint]
        omega
    have hbytes : writeFields (field :: fields) = writeField field ++ writeFields fields := rfl
    rw [hbytes, List.length_append, List.length_cons]
    omega

/-! ## Fields without presence -/

/-- A number that is left out when it is zero. -/
def varintField (number n : Nat) : List WireField :=
  if n = 0 then [] else [(number, .varint n)]

/-- A byte string that is left out when it is empty. -/
def bytesField (number : Nat) (b : List UInt8) : List WireField :=
  if b = [] then [] else [(number, .bytes b)]

/-- A field that is left out is merged as if it were there, if the default
changes nothing. -/
theorem foldl_varintField {σ : Type*} {merge : σ → WireField → σ} {s : σ}
    {number n : Nat} (h : n = 0 → merge s (number, .varint n) = s) :
    (varintField number n).foldl merge s = merge s (number, .varint n) := by
  unfold varintField
  split_ifs with hzero
  · exact (h hzero).symm
  · rfl

theorem foldl_bytesField {σ : Type*} {merge : σ → WireField → σ} {s : σ}
    {number : Nat} {b : List UInt8}
    (h : b = [] → merge s (number, .bytes b) = s) :
    (bytesField number b).foldl merge s = merge s (number, .bytes b) := by
  unfold bytesField
  split_ifs with hnil
  · exact (h hnil).symm
  · rfl

/-- The bytes a number takes in a message, with a tag of one byte. -/
def varintFieldSize (n : Nat) : Nat :=
  if n = 0 then 0 else Nat.log 128 n + 2

/-- The bytes a byte string of the given length takes in a message, with a tag
of one byte. -/
def bytesFieldSize (length : Nat) : Nat :=
  if length = 0 then 0 else Nat.log 128 length + 2 + length

theorem length_writeFields_varintField {number : Nat} (hnumber : number < 16) (n : Nat) :
    (writeFields (varintField number n)).length = varintFieldSize n := by
  unfold varintField varintFieldSize
  split_ifs with hzero
  · rfl
  · have htag : Nat.log 128 (8 * number) = 0 := Nat.log_of_lt (by omega)
    simp only [writeFields, List.map_cons, List.map_nil, List.flatten_cons,
      List.flatten_nil, List.append_nil, writeField, List.length_append,
      length_varint]
    omega

theorem length_writeFields_bytesField {number : Nat} (hnumber : number < 16) (b : List UInt8) :
    (writeFields (bytesField number b)).length = bytesFieldSize b.length := by
  unfold bytesField bytesFieldSize
  simp only [List.length_eq_zero_iff]
  split_ifs with hnil
  · rfl
  · have htag : Nat.log 128 (8 * number + 2) = 0 := Nat.log_of_lt (by omega)
    simp only [writeFields, List.map_cons, List.map_nil, List.flatten_cons,
      List.flatten_nil, List.append_nil, writeField, List.length_append,
      length_varint]
    omega

/-- A 64-bit number takes at most eleven bytes. -/
theorem varintFieldSize_le {n : Nat} (h : n < 2 ^ 64) : varintFieldSize n ≤ 11 := by
  have hlog : Nat.log 128 n < 10 :=
    Nat.log_lt_of_lt_pow' (by decide) (lt_of_lt_of_le h (by decide))
  unfold varintFieldSize
  split_ifs
  · omega
  · omega

/-- A number that is not zero takes at least two bytes. -/
theorem two_le_varintFieldSize {n : Nat} (h : n ≠ 0) : 2 ≤ varintFieldSize n := by
  rw [varintFieldSize, if_neg h]
  omega

end Lib
end GameServer
