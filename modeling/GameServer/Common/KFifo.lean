import GameServer.Lib.Bits
import GameServer.Lib.Ring

/-!
# The kernel-style fifo

`kfifo.h` and `kfifo.c` for a fifo of bytes without record lengths, as
`DECLARE_KFIFO` declares it: a ring whose size is a power of two and two 32-bit
counters `in` and `out` that run free and wrap around.  Their difference is the
fill level, and their low bits are the places in the ring.

`content` reads the bytes between the two counters.  For every value of the
counters `kfifo_in` appends to it, `kfifo_out_peek` reads its front, and
`kfifo_out` and `kfifo_skip_n` take the front away.
-/

namespace GameServer
namespace Common

open Lib

/-- `struct __kfifo` with its buffer.  The declaration admits only sizes that
are powers of two, and `INIT_KFIFO` derives the mask from the size. -/
structure Kfifo where
  inPos : UInt32
  outPos : UInt32
  mask : UInt32
  data : List UInt8
  order : Nat
  order_le : order ≤ 31
  mask_eq : mask = lowMask order
  length_data : data.length = 2 ^ order

namespace Kfifo

/-- `kfifo_len`. -/
def kfifoLen (fifo : Kfifo) : UInt32 := fifo.inPos - fifo.outPos

/-- `kfifo_unused`, and `kfifo_avail` of a fifo without record lengths. -/
def kfifoAvail (fifo : Kfifo) : UInt32 := (fifo.mask + 1) - fifo.kfifoLen

/-- `kfifo_copy_in` for elements of one byte: the buffer after it. -/
def kfifoCopyIn (fifo : Kfifo) (src : List UInt8) (len off : UInt32) :
    List UInt8 :=
  let size := fifo.mask + 1
  let off := off &&& fifo.mask
  let l := if len < size - off then len else size - off
  memcpy (memcpy fifo.data off.toNat (src.take l.toNat)) 0
    ((src.drop l.toNat).take (len - l).toNat)

theorem length_kfifoCopyIn (fifo : Kfifo) (src : List UInt8) (len off : UInt32) :
    (fifo.kfifoCopyIn src len off).length = 2 ^ fifo.order := by
  rw [kfifoCopyIn, length_memcpy, length_memcpy, fifo.length_data]

/-- `__kfifo_in`: the fifo after it, and the number of bytes taken. -/
def kfifoIn (fifo : Kfifo) (buf : List UInt8) (len : UInt32) :
    Kfifo × UInt32 :=
  let l := fifo.kfifoAvail
  let len := if len > l then l else len
  ({ fifo with
      data := fifo.kfifoCopyIn buf len fifo.inPos
      inPos := fifo.inPos + len
      length_data := fifo.length_kfifoCopyIn buf len fifo.inPos }, len)

/-- `kfifo_copy_out` for elements of one byte: the bytes stored to `dst`. -/
def kfifoCopyOut (fifo : Kfifo) (len off : UInt32) : List UInt8 :=
  let size := fifo.mask + 1
  let off := off &&& fifo.mask
  let l := if len < size - off then len else size - off
  (fifo.data.drop off.toNat).take l.toNat ++ fifo.data.take (len - l).toNat

/-- `__kfifo_out_peek`: the bytes stored to `buf`. -/
def kfifoOutPeek (fifo : Kfifo) (len : UInt32) : List UInt8 :=
  let l := fifo.kfifoLen
  let len := if len > l then l else len
  fifo.kfifoCopyOut len fifo.outPos

/-- `kfifo_skip_n`. -/
def kfifoSkipN (fifo : Kfifo) (n : UInt32) : Kfifo :=
  { fifo with outPos := fifo.outPos + n }

/-- `__kfifo_out`: the bytes stored to `buf`, and the fifo after it. -/
def kfifoOut (fifo : Kfifo) (len : UInt32) : List UInt8 × Kfifo :=
  let l := fifo.kfifoLen
  let n := if len > l then l else len
  (fifo.kfifoOutPeek len, fifo.kfifoSkipN n)

/-- `kfifo_reset_out`. -/
def kfifoResetOut (fifo : Kfifo) : Kfifo :=
  { fifo with outPos := fifo.inPos }

/-! ## The content -/

/-- The bytes between the two counters. -/
def content (fifo : Kfifo) : List UInt8 :=
  ringRead fifo.data fifo.outPos.toNat fifo.kfifoLen.toNat

/-- The fill level does not exceed the size. -/
def Bounded (fifo : Kfifo) : Prop := fifo.kfifoLen.toNat ≤ 2 ^ fifo.order

section

variable (fifo : Kfifo)

theorem two_pow_order_le : 2 ^ fifo.order ≤ 2 ^ 31 :=
  Nat.pow_le_pow_right (by decide) fifo.order_le

theorem two_pow_order_dvd : 2 ^ fifo.order ∣ 2 ^ 32 :=
  Nat.pow_dvd_pow 2 (fifo.order_le.trans (by decide))

theorem toNat_size : (fifo.mask + 1).toNat = 2 ^ fifo.order := by
  have hle := fifo.two_pow_order_le
  have hpos := Nat.two_pow_pos fifo.order
  rw [UInt32.toNat_add, fifo.mask_eq,
    toNat_lowMask (fifo.order_le.trans (by decide)), UInt32.toNat_one]
  omega

theorem toNat_and_mask (x : UInt32) : (x &&& fifo.mask).toNat = x.toNat % fifo.data.length := by
  rw [fifo.mask_eq, fifo.length_data, toNat_and_lowMask x (fifo.order_le.trans (by decide))]

/-- How much of a block of `len` bytes fits in front of the end of the ring. -/
theorem toNat_first_piece (len off : UInt32) :
    (if len < fifo.mask + 1 - (off &&& fifo.mask) then len
      else fifo.mask + 1 - (off &&& fifo.mask)).toNat = min len.toNat
          (fifo.data.length - off.toNat % fifo.data.length) := by
  have hoff := fifo.toNat_and_mask off
  have hsize := fifo.toNat_size
  have hpos := Nat.two_pow_pos fifo.order
  have hlt := Nat.mod_lt off.toNat (fifo.length_data ▸ hpos)
  have hle : off &&& fifo.mask ≤ fifo.mask + 1 := by
    rw [UInt32.le_iff_toNat_le, hoff, hsize, ← fifo.length_data]
    exact hlt.le
  -- the subtraction does not wrap
  have hsub : (fifo.mask + 1 - (off &&& fifo.mask)).toNat =
      fifo.data.length - off.toNat % fifo.data.length := by
    rw [UInt32.toNat_sub_of_le _ _ hle, hsize, hoff, fifo.length_data]
  split_ifs with h
  · rw [UInt32.lt_iff_toNat_lt, hsub] at h
    omega
  · rw [UInt32.lt_iff_toNat_lt, hsub] at h
    rw [hsub]
    omega

/-- `kfifo_copy_out` reads the ring. -/
theorem kfifoCopyOut_eq (len off : UInt32) :
    fifo.kfifoCopyOut len off = ringRead fifo.data off.toNat len.toNat := by
  have hpiece := fifo.toNat_first_piece len off
  simp only [kfifoCopyOut, ringRead]
  rw [UInt32.toNat_sub_of_le, hpiece, fifo.toNat_and_mask]
  rw [UInt32.le_iff_toNat_le, hpiece]
  exact Nat.min_le_left ..

/-- `kfifo_copy_in` writes the ring. -/
theorem kfifoCopyIn_eq {src : List UInt8} {len : UInt32}
    (hlen : src.length = len.toNat) (off : UInt32) :
    fifo.kfifoCopyIn src len off = ringWrite fifo.data off.toNat src := by
  have hpiece := fifo.toNat_first_piece len off
  simp only [kfifoCopyIn, ringWrite]
  rw [UInt32.toNat_sub_of_le, hpiece, fifo.toNat_and_mask, hlen]
  · congr 1
    apply List.take_of_length_le
    rw [List.length_drop, hlen]
  · rw [UInt32.le_iff_toNat_le, hpiece]
    exact Nat.min_le_left ..

end

variable {fifo : Kfifo}

theorem length_content (h : fifo.Bounded) : fifo.content.length = fifo.kfifoLen.toNat :=
  length_ringRead (fifo.length_data ▸ h)

theorem toNat_kfifoAvail (h : fifo.Bounded) :
    fifo.kfifoAvail.toNat = 2 ^ fifo.order - fifo.content.length := by
  rw [length_content h, kfifoAvail, UInt32.toNat_sub_of_le, fifo.toNat_size]
  rw [UInt32.le_iff_toNat_le, fifo.toNat_size]
  exact h

/-- The place `in` points to is the one behind the content. -/
theorem inPos_mod (h : fifo.Bounded) :
    fifo.inPos.toNat % fifo.data.length =
      (fifo.outPos.toNat + fifo.content.length) % fifo.data.length := by
  have hin : (fifo.outPos.toNat + fifo.kfifoLen.toNat) % 2 ^ 32 =
      fifo.inPos.toNat := by
    rw [kfifoLen, ← UInt32.toNat_add]
    congr 1
    grind
  rw [length_content h, ← hin, fifo.length_data]
  exact Nat.mod_mod_of_dvd _ fifo.two_pow_order_dvd

/-- A block that fits is appended. -/
theorem kfifoIn_spec (h : fifo.Bounded) {buf : List UInt8} {len : UInt32}
    (hlen : buf.length = len.toNat)
    (hfits : len.toNat ≤ fifo.kfifoAvail.toNat) :
    (fifo.kfifoIn buf len).1.Bounded ∧ (fifo.kfifoIn buf len).1.content = fifo.content ++ buf ∧
      (fifo.kfifoIn buf len).1.order = fifo.order := by
  have havail := toNat_kfifoAvail h
  have hlength := length_content h
  have hbound := fifo.two_pow_order_le
  have hle : fifo.content.length ≤ 2 ^ fifo.order := by
    rw [hlength]
    exact h
  have hnot : ¬ len > fifo.kfifoAvail := by
    rw [gt_iff_lt, UInt32.lt_iff_toNat_lt]
    omega
  -- nothing is cut off, so the whole block is copied
  have hresult : (fifo.kfifoIn buf len).1 =
      { fifo with
        data := fifo.kfifoCopyIn buf len fifo.inPos
        inPos := fifo.inPos + len
        length_data := fifo.length_kfifoCopyIn buf len fifo.inPos } := by
    simp only [kfifoIn, if_neg hnot]
  have hnew : (fifo.kfifoIn buf len).1.kfifoLen.toNat = fifo.content.length + buf.length := by
    -- in 32 bits also when a counter wraps
    have hsum : (fifo.kfifoIn buf len).1.kfifoLen = fifo.kfifoLen + len := by
      rw [hresult]
      show fifo.inPos + len - fifo.outPos = fifo.inPos - fifo.outPos + len
      grind
    rw [hsum, UInt32.toNat_add, hlength, hlen]
    omega
  refine ⟨?_, ?_, by rw [hresult]⟩
  · rw [Bounded, hnew, hresult]
    show _ ≤ 2 ^ fifo.order
    omega
  · rw [content, hnew, hresult]
    show ringRead (fifo.kfifoCopyIn buf len fifo.inPos) fifo.outPos.toNat _ = _
    have hwrite : fifo.kfifoCopyIn buf len fifo.inPos =
        ringWrite fifo.data (fifo.outPos.toNat + fifo.content.length) buf := by
      rw [fifo.kfifoCopyIn_eq hlen]
      simp only [ringWrite, inPos_mod h]
    rw [hwrite, ringRead_ringWrite (by rw [fifo.length_data]; omega), hlength, content]

/-- Peeking reads the front of the content. -/
theorem kfifoOutPeek_eq (h : fifo.Bounded) (len : UInt32) :
    fifo.kfifoOutPeek len = fifo.content.take len.toNat := by
  have hsize : fifo.kfifoLen.toNat ≤ fifo.data.length := fifo.length_data ▸ h
  simp only [kfifoOutPeek, kfifoCopyOut_eq]
  split_ifs with hlong
  · rw [gt_iff_lt, UInt32.lt_iff_toNat_lt] at hlong
    rw [List.take_of_length_le (by rw [length_content h]; omega), content]
  · rw [gt_iff_lt, UInt32.lt_iff_toNat_lt] at hlong
    obtain ⟨rest, hrest⟩ := Nat.le.dest (Nat.not_lt.mp hlong)
    rw [content, ← hrest, ringRead_add (by omega), List.take_left' (length_ringRead (by omega))]

/-- Skipping takes the front of the content away. -/
theorem kfifoSkipN_spec (h : fifo.Bounded) {n : UInt32} (hn : n.toNat ≤ fifo.content.length) :
    (fifo.kfifoSkipN n).Bounded ∧ (fifo.kfifoSkipN n).content = fifo.content.drop n.toNat ∧
      (fifo.kfifoSkipN n).order = fifo.order := by
  have hlength := length_content h
  have hbound : fifo.kfifoLen.toNat ≤ 2 ^ fifo.order := h
  have hle : n ≤ fifo.kfifoLen := by
    rw [UInt32.le_iff_toNat_le]
    omega
  have hnew : (fifo.kfifoSkipN n).kfifoLen.toNat = fifo.kfifoLen.toNat - n.toNat := by
    have hdiff : (fifo.kfifoSkipN n).kfifoLen = fifo.kfifoLen - n := by
      show fifo.inPos - (fifo.outPos + n) = fifo.inPos - fifo.outPos - n
      grind
    rw [hdiff, UInt32.toNat_sub_of_le _ _ hle]
  refine ⟨?_, ?_, rfl⟩
  · show (fifo.kfifoSkipN n).kfifoLen.toNat ≤ 2 ^ fifo.order
    omega
  · -- the size of the ring divides the range of the counters
    have hstart : (fifo.outPos + n).toNat % fifo.data.length =
        (fifo.outPos.toNat + n.toNat) % fifo.data.length := by
      rw [UInt32.toNat_add, fifo.length_data]
      exact Nat.mod_mod_of_dvd _ fifo.two_pow_order_dvd
    have hsplit : fifo.content = ringRead fifo.data fifo.outPos.toNat n.toNat ++
          ringRead fifo.data (fifo.outPos.toNat + n.toNat) (fifo.kfifoLen.toNat - n.toNat) := by
      rw [← ringRead_add (by rw [fifo.length_data]; omega), content]
      congr 1
      omega
    rw [hsplit, List.drop_left' (length_ringRead (by
      rw [fifo.length_data]; omega)), content, hnew]
    exact ringRead_congr hstart

theorem kfifoSkipN_kfifoSkipN (fifo : Kfifo) (first second : UInt32) :
    (fifo.kfifoSkipN first).kfifoSkipN second = fifo.kfifoSkipN (first + second) := by
  simp only [kfifoSkipN, UInt32.add_assoc]

/-- How far a fifo has been skipped can be told from `out`. -/
theorem kfifoSkipN_injective (fifo : Kfifo) : Function.Injective fifo.kfifoSkipN := by
  intro first second h
  have hout : fifo.outPos + first = fifo.outPos + second :=
    congrArg Kfifo.outPos h
  exact (UInt32.add_right_inj fifo.outPos).mp hout

/-- Reading takes the front of the content. -/
theorem kfifoOut_spec (h : fifo.Bounded) {len : UInt32} (hlen : len.toNat ≤ fifo.content.length) :
    (fifo.kfifoOut len).1 = fifo.content.take len.toNat ∧
      (fifo.kfifoOut len).2 = fifo.kfifoSkipN len := by
  have hnot : ¬ len > fifo.kfifoLen := by
    rw [gt_iff_lt, UInt32.lt_iff_toNat_lt, ← length_content h]
    omega
  constructor
  · exact kfifoOutPeek_eq h len
  · simp only [kfifoOut, if_neg hnot]

end Kfifo

end Common
end GameServer
