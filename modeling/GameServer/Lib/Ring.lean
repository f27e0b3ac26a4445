import GameServer.Lib.Memory
import Mathlib.Tactic

/-!
# A ring in an array

Positions in a ring count on without bound; position `i` is element `i % n` of
an array of `n` elements.  A block that runs over the end of the array is
copied in two pieces.

`ringRead_ringWrite` is the law of the ring as a queue: what is written behind
the content is appended to it, as long as both fit.
-/

namespace GameServer
namespace Lib

variable {α : Type*} {data : List α} {count start : Nat}

/-- The `count` elements from position `start` on, copied in two pieces. -/
def ringRead (data : List α) (start count : Nat) : List α :=
  let off := start % data.length
  let l := min count (data.length - off)
  (data.drop off).take l ++ data.take (count - l)

/-- The array after `block` has been copied, in two pieces, to position
`start`. -/
def ringWrite (data : List α) (start : Nat) (block : List α) : List α :=
  let off := start % data.length
  let l := min block.length (data.length - off)
  memcpy (memcpy data off (block.take l)) 0 (block.drop l)

@[simp] theorem length_ringWrite (data : List α) (start : Nat)
    (block : List α) : (ringWrite data start block).length = data.length := by
  simp [ringWrite]

theorem length_ringRead (h : count ≤ data.length) : (ringRead data start count).length = count := by
  simp only [ringRead, List.length_append, List.length_take, List.length_drop]
  omega

/-- Element `i` of what is read is the one at position `start + i`. -/
theorem getElem?_ringRead {i : Nat} (hcount : count ≤ data.length) (hi : i < count) :
    (ringRead data start count)[i]? = data[(start + i) % data.length]? := by
  have hpos : 0 < data.length := by omega
  have hoff := Nat.mod_lt start hpos
  have hmod : (start + i) % data.length = (start % data.length + i) % data.length := by
    rw [Nat.mod_add_mod]
  simp only [ringRead, hmod]
  generalize start % data.length = off at hoff
  rw [List.getElem?_append, List.length_take, List.length_drop]
  split_ifs with hfirst
  · rw [List.getElem?_take_of_lt (by omega), List.getElem?_drop, Nat.mod_eq_of_lt (by omega)]
  · rw [List.getElem?_take_of_lt (by omega), Nat.mod_eq_sub_mod (by omega),
      Nat.mod_eq_of_lt (by omega)]
    congr 1
    omega

/-- Position `start + i` of the ring, within one round, after a block has been
written to `start`: the block comes first, behind it is what was there. -/
theorem getElem?_ringWrite {block : List α} {i : Nat}
    (hlength : block.length ≤ data.length) (hround : i < data.length) :
    (ringWrite data start block)[(start + i) % data.length]? =
      if i < block.length then block[i]?
      else data[(start + i) % data.length]? := by
  have hpos : 0 < data.length := by omega
  have hoff := Nat.mod_lt start hpos
  have hmod : (start + i) % data.length = (start % data.length + i) % data.length := by
    rw [Nat.mod_add_mod]
  simp only [ringWrite, hmod]
  generalize start % data.length = off at hoff
  rw [getElem?_memcpy (by simp; omega), getElem?_memcpy (by simp; omega)]
  simp only [List.length_take, List.length_drop]
  -- before or behind the end of the array, within the block or behind it
  by_cases hwrap : off + i < data.length
  · rw [Nat.mod_eq_of_lt hwrap, if_neg (by omega)]
    split_ifs with hfirst hi hi
    · rw [List.getElem?_take_of_lt (by omega)]
      congr 1
      omega
    · omega
    · omega
    · rfl
  · have hfirst : ¬ (off ≤ off + i - data.length ∧
        off + i - data.length < off + min (min block.length (data.length - off))
          block.length) := by omega
    rw [Nat.mod_eq_sub_mod (by omega), Nat.mod_eq_of_lt (by omega), if_neg hfirst]
    split_ifs with hsecond hi hi
    · rw [List.getElem?_drop]
      congr 1
      omega
    · omega
    · omega
    · rfl

/-- Reading on from where the first part ends. -/
theorem ringRead_add {first second : Nat} (h : first + second ≤ data.length) :
    ringRead data start (first + second) =
      ringRead data start first ++ ringRead data (start + first) second := by
  apply List.ext_getElem?
  intro i
  by_cases hi : i < first + second
  · rw [getElem?_ringRead h hi, List.getElem?_append, length_ringRead (by omega)]
    split_ifs with hfirst
    · rw [getElem?_ringRead (by omega) hfirst]
    · rw [getElem?_ringRead (by omega) (by omega)]
      congr 2
      omega
  · rw [List.getElem?_eq_none, List.getElem?_eq_none]
    · rw [List.length_append, length_ringRead (by omega), length_ringRead (by omega)]
      omega
    · rw [length_ringRead h]
      omega

/-- From the start of the array the ring is not yet noticed. -/
theorem ringRead_zero (h : count ≤ data.length) : ringRead data 0 count = data.take count := by
  simp only [ringRead, Nat.zero_mod, Nat.sub_zero, List.drop_zero,
    Nat.min_eq_left h, Nat.sub_self, List.take_zero, List.append_nil]

/-- A round more leads to the same place. -/
theorem ringRead_congr {start' : Nat} (h : start % data.length = start' % data.length) :
    ringRead data start count = ringRead data start' count := by
  simp only [ringRead, h]

/-- **What is written behind the content is appended to it.** -/
theorem ringRead_ringWrite {block : List α} (h : count + block.length ≤ data.length) :
    ringRead (ringWrite data (start + count) block) start (count + block.length) =
      ringRead data start count ++ block := by
  have hsize : (ringWrite data (start + count) block).length = data.length :=
    length_ringWrite ..
  apply List.ext_getElem?
  intro i
  by_cases hi : i < count + block.length
  · rw [getElem?_ringRead (by omega) hi, hsize, List.getElem?_append, length_ringRead (by omega)]
    split_ifs with hold
    · -- position `i` of the old content, seen from behind the new block
      have hround : (start + i) % data.length =
          (start + count + (data.length - count + i)) % data.length := by
        have : start + count + (data.length - count + i) = start + i + data.length := by omega
        rw [this, Nat.add_mod_right]
      rw [getElem?_ringRead (by omega) hold, hround,
        getElem?_ringWrite (by omega) (by omega), if_neg (by omega)]
    · have hnew : start + i = start + count + (i - count) := by omega
      rw [hnew, getElem?_ringWrite (by omega) (by omega), if_pos (by omega)]
  · rw [List.getElem?_eq_none, List.getElem?_eq_none]
    · rw [List.length_append, length_ringRead (by omega)]
      omega
    · rw [length_ringRead (by omega)]
      omega

/-! ## Element by element -/

/-- Two positions within one round are two places of the array. -/
theorem add_mod_ne {n i j : Nat} (start : Nat) (hi : i < n) (hj : j < n)
    (hne : i ≠ j) : (start + i) % n ≠ (start + j) % n := by
  intro h
  have hmod : i % n = j % n := Nat.ModEq.add_left_cancel' start h
  rw [Nat.mod_eq_of_lt hi, Nat.mod_eq_of_lt hj] at hmod
  exact hne hmod

/-- Every place of the array is met within one round. -/
theorem exists_add_mod_eq {n j : Nat} (start : Nat) (hj : j < n) :
    ∃ i < n, (start + i) % n = j := by
  have hlt := Nat.mod_lt start (show 0 < n by omega)
  refine ⟨(j + (n - start % n)) % n, Nat.mod_lt _ (by omega), ?_⟩
  rw [Nat.add_mod_mod]
  have hsum : start + (j + (n - start % n)) = n * (start / n + 1) + j := by
    have := Nat.div_add_mod start n
    rw [Nat.mul_add]
    omega
  rw [hsum, Nat.mul_add_mod, Nat.mod_eq_of_lt hj]

/-- Two arrays that agree along one round are equal. -/
theorem ring_ext {a b : List α} (start : Nat) (hlength : a.length = b.length) (h : ∀ i < b.length,
      a[(start + i) % b.length]? = b[(start + i) % b.length]?) : a = b := by
  apply List.ext_getElem?
  intro j
  by_cases hj : j < b.length
  · obtain ⟨i, hi, rfl⟩ := exists_add_mod_eq start hj
    exact h i hi
  · rw [List.getElem?_eq_none (by omega), List.getElem?_eq_none (by omega)]

/-- An element stored behind the content leaves the content as it is. -/
theorem ringRead_set {i : Nat} (hcount : count ≤ i) (hi : i < data.length) (x : α) :
    ringRead (data.set ((start + i) % data.length) x) start count = ringRead data start count := by
  apply List.ext_getElem?
  intro j
  by_cases hj : j < count
  · rw [getElem?_ringRead (by rw [List.length_set]; omega) hj,
      getElem?_ringRead (by omega) hj, List.length_set,
      List.getElem?_set_ne (add_mod_ne start hi (by omega) (by omega))]
  · rw [List.getElem?_eq_none, List.getElem?_eq_none]
    · rw [length_ringRead (by omega)]
      omega
    · rw [length_ringRead (by rw [List.length_set]; omega)]
      omega

/-- A round more leads to the same place. -/
theorem ringWrite_congr {block : List α} {start' : Nat}
    (h : start % data.length = start' % data.length) :
    ringWrite data start block = ringWrite data start' block := by
  simp only [ringWrite, h]

/-- One block behind the other. -/
theorem ringWrite_append {first second : List α} {next : Nat}
    (hnext : next % data.length = (start + first.length) % data.length)
    (h : first.length + second.length ≤ data.length) :
    ringWrite (ringWrite data start first) next second =
      ringWrite data start (first ++ second) := by
  have hsize : (ringWrite data start first).length = data.length :=
    length_ringWrite ..
  rw [ringWrite_congr (hsize ▸ hnext)]
  refine ring_ext start (by simp) fun i hi => ?_
  rw [length_ringWrite] at hi ⊢
  rw [getElem?_ringWrite (by simpa using h) hi, List.length_append, List.getElem?_append]
  by_cases hfirst : i < first.length
  · -- from where the second block starts, `i` is at the end of the round
    have hround : (start + i) % data.length =
        (start + first.length + (data.length - first.length + i)) %
          data.length := by
      have : start + first.length + (data.length - first.length + i) =
          start + i + data.length := by omega
      rw [this, Nat.add_mod_right]
    rw [if_pos (by omega), if_pos hfirst, hround, ← hsize,
      getElem?_ringWrite (by omega) (by omega), if_neg (by omega), hsize,
      ← hround, getElem?_ringWrite (by omega) hi, if_pos hfirst]
  · have hi' : start + i = start + first.length + (i - first.length) := by omega
    rw [if_neg hfirst]
    nth_rewrite 1 [hi']
    rw [← hsize, getElem?_ringWrite (by omega) (by omega), hsize, ← hi']
    split_ifs with hsecond hsum hsum
    · rfl
    · omega
    · omega
    · rw [getElem?_ringWrite (by omega) hi, if_neg hfirst]

/-- A block of one element. -/
theorem ringWrite_singleton (start : Nat) (x : α) (h : 0 < data.length) :
    ringWrite data start [x] = data.set (start % data.length) x := by
  refine ring_ext start (by simp) fun i hi => ?_
  rw [List.length_set] at hi ⊢
  rw [getElem?_ringWrite (by exact h) hi]
  by_cases hzero : i = 0
  · subst hzero
    rw [Nat.add_zero, List.getElem?_set_self (Nat.mod_lt _ h)]
    rfl
  · have hne := add_mod_ne start h hi (Ne.symm hzero)
    rw [Nat.add_zero] at hne
    rw [if_neg (by simpa using hzero), List.getElem?_set_ne hne]

end Lib
end GameServer
