import GameServer.Common.KFifo

/-!
# Fifos of records

The functions of `kfifo.c` whose names end in `_r`, for the fifos that
`STRUCT_KFIFO_REC_1` and `STRUCT_KFIFO_REC_2` declare.  In front of each record
stands its length in one or two bytes, the low byte first.

`kfifo_in` tests only whether a record fits into the free space.  A record that
is longer than its length field can say is accepted, and from there on the
reader takes bytes of the record for lengths.  `kfifo_avail` also knows the
field: it names exactly the records that arrive.
-/

namespace GameServer
namespace Common

open Lib

/-- `sizeof(*(fifo)->rectype)`: a length field of one byte or of two. -/
inductive RecSize where
  | rec1
  | rec2
  deriving DecidableEq

namespace RecSize

/-- `recsize`, as the functions of `kfifo.c` are given it. -/
def size : RecSize → UInt32
  | rec1 => 1
  | rec2 => 2

theorem size_pos (recsize : RecSize) : 0 < recsize.size.toNat := by
  cases recsize <;> decide

theorem size_le (recsize : RecSize) : recsize.size.toNat ≤ 2 := by
  cases recsize <;> decide

/-- What a length field can say. -/
theorem pow_le (recsize : RecSize) : 256 ^ recsize.size.toNat ≤ 65536 :=
  Nat.pow_le_pow_right (by decide) recsize.size_le

/-- The bytes of a length field. -/
def lengthField (recsize : RecSize) (n : UInt32) : List UInt8 :=
  match recsize with
  | rec1 => [n.toUInt8]
  | rec2 => [n.toUInt8, (n >>> 8).toUInt8]

@[simp] theorem length_lengthField (recsize : RecSize) (n : UInt32) :
    (recsize.lengthField n).length = recsize.size.toNat := by
  cases recsize <;> rfl

/-- A record as it stands in the fifo. -/
def recordBytes (recsize : RecSize) (record : List UInt8) : List UInt8 :=
  recsize.lengthField (UInt32.ofNat record.length) ++ record

end RecSize

namespace Kfifo

/-! ## The functions -/

/-- `__kfifo_max_r`. -/
def kfifoMaxR (len : UInt32) (recsize : RecSize) : UInt32 :=
  let max := ((1 : UInt32) <<< (recsize.size <<< 3)) - 1
  if len > max then max else len

theorem and_mask_lt (fifo : Kfifo) (pos : UInt32) :
    (pos &&& fifo.mask).toNat < fifo.data.length := by
  rw [toNat_and_mask, fifo.length_data]
  exact Nat.mod_lt _ (Nat.two_pow_pos _)

/-- `__KFIFO_PEEK`. -/
def peek (fifo : Kfifo) (pos : UInt32) : UInt8 :=
  fifo.data.get ⟨(pos &&& fifo.mask).toNat, fifo.and_mask_lt pos⟩

theorem length_set_data (fifo : Kfifo) (place : Nat) (val : UInt8) :
    (fifo.data.set place val).length = 2 ^ fifo.order := by
  rw [List.length_set, fifo.length_data]

/-- The fifo after one byte of its buffer has been stored. -/
def setByte (fifo : Kfifo) (place : Nat) (val : UInt8) : Kfifo :=
  { fifo with
    data := fifo.data.set place val
    length_data := fifo.length_set_data place val }

/-- `__KFIFO_POKE`. -/
def poke (fifo : Kfifo) (pos : UInt32) (val : UInt8) : Kfifo :=
  fifo.setByte (pos &&& fifo.mask).toNat val

/-- `__kfifo_peek_n`, and `__kfifo_len_r`. -/
def kfifoPeekN (fifo : Kfifo) (recsize : RecSize) : UInt32 :=
  let l := (fifo.peek fifo.outPos).toUInt32
  match recsize with
  | .rec1 => l
  | .rec2 => l ||| ((fifo.peek (fifo.outPos + 1)).toUInt32 <<< 8)

/-- `__kfifo_poke_n`. -/
def kfifoPokeN (fifo : Kfifo) (n : UInt32) (recsize : RecSize) : Kfifo :=
  let low := fifo.poke fifo.inPos n.toUInt8
  match recsize with
  | .rec1 => low
  | .rec2 => low.poke (fifo.inPos + 1) (n >>> 8).toUInt8

/-- `__kfifo_in_r`: the fifo after it, and the number of bytes taken.  The sum
in the test is one of 64 bits. -/
def kfifoInR (fifo : Kfifo) (buf : List UInt8) (len : UInt32)
    (recsize : RecSize) : Kfifo × UInt32 :=
  if len.toNat + recsize.size.toNat > fifo.kfifoAvail.toNat then
    (fifo, 0)
  else
    let poked := fifo.kfifoPokeN len recsize
    ({ poked with
        data := poked.kfifoCopyIn buf len (fifo.inPos + recsize.size)
        inPos := fifo.inPos + (len + recsize.size)
        length_data :=
          poked.length_kfifoCopyIn buf len (fifo.inPos + recsize.size) }, len)

/-- `kfifo_out_copy_r`: the bytes stored to `buf`, and `*n`. -/
def kfifoOutCopyR (fifo : Kfifo) (len : UInt32) (recsize : RecSize) :
    List UInt8 × UInt32 :=
  let n := fifo.kfifoPeekN recsize
  let len := if len > n then n else len
  (fifo.kfifoCopyOut len (fifo.outPos + recsize.size), n)

/-- `__kfifo_out_r`: the bytes stored to `buf`, and the fifo after it. -/
def kfifoOutR (fifo : Kfifo) (len : UInt32) (recsize : RecSize) :
    List UInt8 × Kfifo :=
  if fifo.inPos = fifo.outPos then ([], fifo)
  else
    let copied := fifo.kfifoOutCopyR len recsize
    (copied.1, fifo.kfifoSkipN (copied.2 + recsize.size))

/-- `kfifo_avail` of a fifo of records. -/
def kfifoAvailR (fifo : Kfifo) (recsize : RecSize) : UInt32 :=
  let avail := fifo.kfifoAvail
  if avail ≤ recsize.size then 0
  else kfifoMaxR (avail - recsize.size) recsize

/-! ## What they do to the ring -/

section

variable (fifo : Kfifo)

/-- Counters wrap around, places do not notice. -/
theorem toNat_add_mod (x y : UInt32) :
    (x + y).toNat % fifo.data.length =
      (x.toNat + y.toNat) % fifo.data.length := by
  rw [UInt32.toNat_add, fifo.length_data]
  exact Nat.mod_mod_of_dvd _ fifo.two_pow_order_dvd

theorem length_data_pos : 0 < fifo.data.length := by
  rw [fifo.length_data]
  exact Nat.two_pow_pos _

theorem data_poke (pos : UInt32) (val : UInt8) :
    (fifo.poke pos val).data = ringWrite fifo.data pos.toNat [val] := by
  rw [ringWrite_singleton _ _ fifo.length_data_pos, ← toNat_and_mask]
  rfl

/-- The length field is written like a block. -/
theorem data_kfifoPokeN (n : UInt32) {recsize : RecSize}
    (h : recsize.size.toNat ≤ fifo.data.length) :
    (fifo.kfifoPokeN n recsize).data =
      ringWrite fifo.data fifo.inPos.toNat (recsize.lengthField n) := by
  cases recsize with
  | rec1 => exact data_poke ..
  | rec2 =>
    show ((fifo.poke fifo.inPos _).poke (fifo.inPos + 1) _).data = _
    rw [data_poke, data_poke]
    exact ringWrite_append (fifo.toNat_add_mod _ _) h

/-- A record is written with its length in front. -/
theorem data_kfifoInR {buf : List UInt8} {len : UInt32} {recsize : RecSize}
    (hlen : buf.length = len.toNat)
    (hsize : len.toNat + recsize.size.toNat ≤ fifo.data.length) :
    (fifo.kfifoPokeN len recsize).kfifoCopyIn buf len (fifo.inPos + recsize.size) =
      ringWrite fifo.data fifo.inPos.toNat (recsize.lengthField len ++ buf) := by
  have hstart : (fifo.inPos + recsize.size).toNat % fifo.data.length =
      (fifo.inPos.toNat + (recsize.lengthField len).length) %
        fifo.data.length := by
    rw [RecSize.length_lengthField]
    exact fifo.toNat_add_mod _ _
  rw [kfifoCopyIn_eq _ hlen, data_kfifoPokeN _ _ (by omega)]
  refine ringWrite_append hstart ?_
  rw [RecSize.length_lengthField]
  omega

end

variable {fifo fifo' : Kfifo} {recsize : RecSize}

/-- The fill level after `in` has moved on. -/
theorem kfifoLen_advance {k : Nat} (h : fifo.Bounded) (hout : fifo'.outPos = fifo.outPos)
    (hin : fifo'.inPos = fifo.inPos + UInt32.ofNat k)
    (hfits : k ≤ fifo.kfifoAvail.toNat) :
    fifo'.kfifoLen.toNat = fifo.content.length + k := by
  have havail := toNat_kfifoAvail h
  have hbound := fifo.two_pow_order_le
  have hlevel : fifo.kfifoLen.toNat ≤ 2 ^ fifo.order := h
  have hk : (UInt32.ofNat k).toNat = k := by
    rw [UInt32.toNat_ofNat']
    omega
  -- in 32 bits also when a counter wraps
  have hsum : fifo'.kfifoLen = fifo.kfifoLen + UInt32.ofNat k := by
    rw [kfifoLen, kfifoLen, hin, hout]
    grind
  rw [hsum, UInt32.toNat_add, hk, length_content h]
  rw [length_content h] at havail
  omega

/-- A block written to where `in` points, and `in` moved behind it. -/
theorem appended {block : List UInt8} (h : fifo.Bounded)
    (hout : fifo'.outPos = fifo.outPos) (horder : fifo'.order = fifo.order)
    (hin : fifo'.inPos = fifo.inPos + UInt32.ofNat block.length)
    (hdata : fifo'.data = ringWrite fifo.data fifo.inPos.toNat block)
    (hfits : block.length ≤ fifo.kfifoAvail.toNat) :
    fifo'.Bounded ∧ fifo'.content = fifo.content ++ block := by
  have havail := toNat_kfifoAvail h
  have hlevel := kfifoLen_advance h hout hin hfits
  have hlength : fifo.content.length ≤ 2 ^ fifo.order := by
    rw [length_content h]
    exact h
  constructor
  · rw [Bounded, hlevel, horder]
    omega
  · rw [content, hlevel, hout, hdata, ringWrite_congr (inPos_mod h),
      ringRead_ringWrite (by rw [fifo.length_data]; omega), length_content h]
    rfl

/-- A record that fits is appended with its length in front. -/
theorem kfifoInR_spec {buf : List UInt8} {len : UInt32} (h : fifo.Bounded)
    (hlen : buf.length = len.toNat)
    (hfits : len.toNat + recsize.size.toNat ≤ fifo.kfifoAvail.toNat) :
    (fifo.kfifoInR buf len recsize).1.Bounded ∧ (fifo.kfifoInR buf len recsize).1.content =
        fifo.content ++ (recsize.lengthField len ++ buf) := by
  have hsize : len.toNat + recsize.size.toNat ≤ 2 ^ fifo.order := by
    refine hfits.trans ?_
    rw [toNat_kfifoAvail h]
    exact Nat.sub_le ..
  have hblock : (recsize.lengthField len ++ buf).length = len.toNat + recsize.size.toNat := by
    rw [List.length_append, RecSize.length_lengthField]
    omega
  rw [kfifoInR, if_neg (by omega)]
  refine appended h ?_ ?_ ?_ ?_ (by omega)
  · cases recsize <;> rfl
  · cases recsize <;> rfl
  · show fifo.inPos + (len + recsize.size) = _
    rw [hblock, UInt32.ofNat_add, UInt32.ofNat_toNat, UInt32.ofNat_toNat]
  · exact fifo.data_kfifoInR hlen (by rw [fifo.length_data]; exact hsize)

/-- A byte of the content. -/
theorem getElem?_content {i : Nat} (h : fifo.Bounded) (hi : i < fifo.content.length) :
    fifo.content[i]? = some (fifo.peek (fifo.outPos + UInt32.ofNat i)) := by
  have hbound := fifo.two_pow_order_le
  have hlevel : fifo.kfifoLen.toNat ≤ 2 ^ fifo.order := h
  rw [length_content h] at hi
  have hi' : (UInt32.ofNat i).toNat = i := by
    rw [UInt32.toNat_ofNat']
    omega
  rw [content, getElem?_ringRead (fifo.length_data ▸ h) hi, peek,
    List.get_eq_getElem, ← List.getElem?_eq_getElem]
  show _ = fifo.data[(_ &&& fifo.mask).toNat]?
  rw [toNat_and_mask, toNat_add_mod, hi']

/-- Two bytes of a number put together again. -/
theorem toNat_low_or_high (n : UInt32) :
    (n.toUInt8.toUInt32 ||| ((n >>> 8).toUInt8.toUInt32 <<< 8)).toNat = n.toNat % 65536 := by
  have hlow : n.toUInt8.toUInt32.toNat = n.toNat % 256 := by simp
  have hhigh : (n >>> 8).toUInt8.toUInt32.toNat = n.toNat / 256 % 256 := by
    simp [Nat.shiftRight_eq_div_pow]
  have hshift : ((n >>> 8).toUInt8.toUInt32 <<< 8).toNat = (n.toNat / 256 % 256) <<< 8 := by
    rw [UInt32.toNat_shiftLeft, hhigh]
    show (n.toNat / 256 % 256) <<< 8 % 2 ^ 32 = _
    rw [Nat.shiftLeft_eq]
    omega
  have hlt : n.toNat % 256 < 2 ^ 8 := Nat.mod_lt _ (by decide)
  rw [UInt32.toNat_or, hlow, hshift, Nat.or_comm, shiftLeft_or_eq_add hlt]
  omega

/-- The length field is read back as far as it holds the length. -/
theorem toNat_kfifoPeekN {n : UInt32} {rest : List UInt8} (h : fifo.Bounded)
    (hcontent : fifo.content = recsize.lengthField n ++ rest) :
    (fifo.kfifoPeekN recsize).toNat = n.toNat % 256 ^ recsize.size.toNat := by
  have hlength := congrArg List.length hcontent
  rw [List.length_append, RecSize.length_lengthField] at hlength
  have hpos := recsize.size_pos
  have hlow := getElem?_content h (i := 0) (by omega)
  rw [show fifo.outPos + UInt32.ofNat 0 = fifo.outPos by simp] at hlow
  cases recsize with
  | rec1 =>
    rw [hcontent] at hlow
    have hbyte : n.toUInt8 = fifo.peek fifo.outPos := Option.some.inj hlow
    simp [kfifoPeekN, ← hbyte, RecSize.size]
  | rec2 =>
    have htwo : RecSize.rec2.size.toNat = 2 := rfl
    have hhigh := getElem?_content h (i := 1) (by omega)
    rw [hcontent] at hlow hhigh
    have hbyte : n.toUInt8 = fifo.peek fifo.outPos := Option.some.inj hlow
    have hbyte' : (n >>> 8).toUInt8 = fifo.peek (fifo.outPos + 1) :=
      Option.some.inj hhigh
    simp only [kfifoPeekN, ← hbyte, ← hbyte']
    exact toNat_low_or_high n

/-- The bytes behind the length field are copied. -/
theorem kfifoOutCopyR_eq (h : fifo.Bounded) (len : UInt32)
    (hlength : recsize.size.toNat + (fifo.kfifoPeekN recsize).toNat ≤ fifo.content.length) :
    (fifo.kfifoOutCopyR len recsize).1 = (fifo.content.drop recsize.size.toNat).take
        (min len.toNat (fifo.kfifoPeekN recsize).toNat) := by
  rw [length_content h] at hlength
  have hlevel : fifo.kfifoLen.toNat ≤ fifo.data.length := fifo.length_data ▸ h
  have hmin : (if len > fifo.kfifoPeekN recsize then fifo.kfifoPeekN recsize
      else len).toNat = min len.toNat (fifo.kfifoPeekN recsize).toNat :=
    toNat_ite_gt ..
  generalize hcount : min len.toNat (fifo.kfifoPeekN recsize).toNat = count at hmin
  -- the content is the length field, what is copied, and the rest
  have hsplit : fifo.content = ringRead fifo.data fifo.outPos.toNat recsize.size.toNat ++
        (ringRead fifo.data (fifo.outPos.toNat + recsize.size.toNat) count ++ ringRead fifo.data
            (fifo.outPos.toNat + recsize.size.toNat + count)
            (fifo.kfifoLen.toNat - recsize.size.toNat - count)) := by
    rw [← ringRead_add (by omega), ← ringRead_add (by omega), content]
    congr 1
    omega
  rw [hsplit, List.drop_left' (length_ringRead (by omega)),
    List.take_left' (length_ringRead (by omega)), kfifoOutCopyR]
  show fifo.kfifoCopyOut (if _ > _ then _ else _) _ = _
  rw [kfifoCopyOut_eq, hmin]
  exact ringRead_congr (fifo.toNat_add_mod _ _)

/-! ## A queue of records -/

/-- The fifo holds `records` and behind them `tail`. -/
structure Holds (recsize : RecSize) (records : List (List UInt8))
    (tail : List UInt8) (fifo : Kfifo) : Prop where
  bounded : fifo.Bounded
  content : fifo.content = records.flatMap recsize.recordBytes ++ tail
  short : ∀ r ∈ records, r.length < 256 ^ recsize.size.toNat

theorem inPos_eq_iff (h : fifo.Bounded) : fifo.inPos = fifo.outPos ↔ fifo.content = [] := by
  rw [← List.length_eq_zero_iff, length_content h, kfifoLen, ← UInt32.toNat_zero, UInt32.toNat_inj]
  grind

/-- Whatever is in front of the rest is taken for a record. -/
theorem kfifoOutR_spec {n : UInt32} {body : List UInt8} (h : fifo.Bounded)
    (hcontent : fifo.content = recsize.lengthField n ++ body)
    (hbody : n.toNat % 256 ^ recsize.size.toNat ≤ body.length) (len : UInt32) :
    (fifo.kfifoOutR len recsize).1 =
        body.take (min len.toNat (n.toNat % 256 ^ recsize.size.toNat)) ∧
      (fifo.kfifoOutR len recsize).2.Bounded ∧
      (fifo.kfifoOutR len recsize).2.content = body.drop (n.toNat % 256 ^ recsize.size.toNat) := by
  have hpeek := toNat_kfifoPeekN h hcontent
  have hlength := congrArg List.length hcontent
  rw [List.length_append, RecSize.length_lengthField] at hlength
  have hne : fifo.inPos ≠ fifo.outPos := by
    rw [Ne, inPos_eq_iff h, ← List.length_eq_zero_iff]
    have := recsize.size_pos
    omega
  have hskip : (fifo.kfifoPeekN recsize + recsize.size).toNat =
      n.toNat % 256 ^ recsize.size.toNat + recsize.size.toNat := by
    have hlevel : fifo.content.length ≤ 2 ^ fifo.order := by
      rw [length_content h]
      exact h
    have hbound := fifo.two_pow_order_le
    rw [UInt32.toNat_add, hpeek]
    omega
  rw [kfifoOutR, if_neg hne]
  refine ⟨?_, ?_⟩
  · rw [kfifoOutCopyR_eq h len (by omega), hpeek, hcontent,
      List.drop_left' (RecSize.length_lengthField ..)]
  · obtain ⟨hbounded, hdrop, -⟩ := kfifoSkipN_spec h
      (n := fifo.kfifoPeekN recsize + recsize.size) (by omega)
    refine ⟨hbounded, hdrop.trans ?_⟩
    rw [hskip, hcontent, Nat.add_comm, ← List.drop_drop,
      List.drop_left' (RecSize.length_lengthField ..)]

/-- The record in front is read, cut to the reader's buffer. -/
theorem Holds.out {record : List UInt8} {records : List (List UInt8)}
    {tail : List UInt8} (h : Holds recsize (record :: records) tail fifo)
    (len : UInt32) :
    (fifo.kfifoOutR len recsize).1 = record.take len.toNat ∧
      Holds recsize records tail (fifo.kfifoOutR len recsize).2 := by
  have hshort := h.short record List.mem_cons_self
  have hmod : (UInt32.ofNat record.length).toNat % 256 ^ recsize.size.toNat =
      record.length := by
    have hpow := recsize.pow_le
    have hnat : (UInt32.ofNat record.length).toNat = record.length := by
      rw [UInt32.toNat_ofNat']
      omega
    rw [hnat, Nat.mod_eq_of_lt hshort]
  have hcontent : fifo.content = recsize.lengthField (UInt32.ofNat record.length) ++
        (record ++ (records.flatMap recsize.recordBytes ++ tail)) := by
    rw [h.content, List.flatMap_cons, RecSize.recordBytes]
    simp only [List.append_assoc]
  obtain ⟨hread, hbounded, hrest⟩ := kfifoOutR_spec h.bounded hcontent (by
    rw [hmod, List.length_append]
    omega) len
  rw [hmod] at hread hrest
  rw [List.drop_left' rfl] at hrest
  refine ⟨?_, hbounded, hrest, fun r hr => h.short r (List.mem_cons_of_mem _ hr)⟩
  rw [hread, ← List.take_take, List.take_left' rfl]

/-- `count` records read one after the other with a buffer that is long
enough, and the fifo after it. -/
def readRecords (recsize : RecSize) : Nat → Kfifo → List (List UInt8) × Kfifo
  | 0, fifo => ([], fifo)
  | count + 1, fifo =>
    let first := fifo.kfifoOutR 0xffffffff recsize
    let rest := readRecords recsize count first.2
    (first.1 :: rest.1, rest.2)

/-- The records are read in order, and then what is behind them. -/
theorem Holds.readRecords {records : List (List UInt8)} {tail : List UInt8}
    (h : Holds recsize records tail fifo) (more : Nat) :
    ∃ fifo', Holds recsize [] tail fifo' ∧ (fifo.readRecords recsize (records.length + more)).1 =
        records ++ (fifo'.readRecords recsize more).1 := by
  induction records generalizing fifo with
  | nil => exact ⟨fifo, h, by rw [List.length_nil, Nat.zero_add]; rfl⟩
  | cons record records ih =>
    obtain ⟨hread, hrest⟩ := h.out 0xffffffff
    have hshort := h.short record List.mem_cons_self
    have hpow := recsize.pow_le
    have hmax : (0xffffffff : UInt32).toNat = 4294967295 := rfl
    rw [List.take_of_length_le (by omega)] at hread
    obtain ⟨fifo', hholds, htail⟩ := ih hrest
    refine ⟨fifo', hholds, ?_⟩
    rw [List.length_cons, Nat.add_right_comm, Kfifo.readRecords, htail, hread, List.cons_append]

theorem toNat_kfifoAvailR (fifo : Kfifo) (recsize : RecSize) :
    (fifo.kfifoAvailR recsize).toNat =
      min (fifo.kfifoAvail.toNat - recsize.size.toNat) (256 ^ recsize.size.toNat - 1) := by
  have hmax : (((1 : UInt32) <<< (recsize.size <<< 3)) - 1).toNat =
      256 ^ recsize.size.toNat - 1 := by
    cases recsize <;> rfl
  rw [kfifoAvailR]
  split_ifs with hroom
  · rw [UInt32.le_iff_toNat_le] at hroom
    rw [Nat.sub_eq_zero_of_le hroom, Nat.zero_min]
    rfl
  · rw [UInt32.le_iff_toNat_le, Nat.not_le] at hroom
    have hsub := UInt32.toNat_sub_of_le fifo.kfifoAvail recsize.size
      (by rw [UInt32.le_iff_toNat_le]; exact hroom.le)
    simp only [kfifoMaxR]
    rw [toNat_ite_gt, hmax, hsub]

/-- **`kfifo_avail` names the records that arrive.**  Whatever records a fifo
holds, wherever its counters stand: a record that is not empty comes out behind
them as it went in if and only if its length is at most what `kfifo_avail`
says. -/
theorem record_arrives_iff_le_avail {records : List (List UInt8)}
    (h : Holds recsize records [] fifo) {buf : List UInt8} {len : UInt32}
    (hlen : buf.length = len.toNat) (hpos : 0 < len.toNat) :
    ((fifo.kfifoInR buf len recsize).1.readRecords recsize
        (records.length + 1)).1 = records ++ [buf] ↔
      len ≤ fifo.kfifoAvailR recsize := by
  rw [UInt32.le_iff_toNat_le, toNat_kfifoAvailR]
  have hpow := Nat.pow_pos (n := recsize.size.toNat) (show 0 < 256 by decide)
  by_cases hroom : len.toNat + recsize.size.toNat > fifo.kfifoAvail.toNat
  · -- refused: behind the records nothing is found
    obtain ⟨fifo', hholds, hread⟩ := h.readRecords 1
    have hempty : fifo'.inPos = fifo'.outPos :=
      (inPos_eq_iff hholds.bounded).mpr hholds.content
    rw [kfifoInR, if_pos hroom, hread, List.append_cancel_left_eq]
    simp only [Kfifo.readRecords, kfifoOutR, if_pos hempty]
    constructor
    · intro hbuf
      obtain ⟨rfl, -⟩ := List.cons.inj hbuf
      rw [List.length_nil] at hlen
      omega
    · omega
  · obtain ⟨hbounded, hcontent⟩ := kfifoInR_spec h.bounded hlen (Nat.not_lt.mp hroom)
    rw [h.content, List.append_nil] at hcontent
    obtain ⟨fifo', hholds, hread⟩ :=
      Holds.readRecords ⟨hbounded, hcontent, h.short⟩ 1
    have hmod := Nat.mod_le len.toNat (256 ^ recsize.size.toNat)
    obtain ⟨hlast, -, -⟩ := kfifoOutR_spec hholds.bounded hholds.content (hlen ▸ hmod) 0xffffffff
    have hmax : (0xffffffff : UInt32).toNat = 4294967295 := rfl
    have hlt := len.toNat_lt
    rw [Nat.min_eq_right (by omega)] at hlast
    rw [hread, List.append_cancel_left_eq]
    simp only [Kfifo.readRecords, hlast, List.cons.injEq, and_true]
    -- the whole record comes back if its length went into the field
    rw [List.take_eq_self_iff, hlen]
    constructor
    · intro hle
      have := Nat.mod_lt len.toNat hpow
      omega
    · intro hle
      rw [Nat.mod_eq_of_lt (by omega)]

/-- An empty fifo of `2 ^ order` bytes whose counters have come to `pos`. -/
def emptyAt (order : Nat) (horder : order ≤ 31) (pos : UInt32) : Kfifo where
  inPos := pos
  outPos := pos
  mask := UInt32.ofNat (2 ^ order - 1)
  data := List.replicate (2 ^ order) 0
  order := order
  order_le := horder
  mask_eq := rfl
  length_data := List.length_replicate

theorem bounded_emptyAt (order : Nat) (horder : order ≤ 31) (pos : UInt32) :
    (emptyAt order horder pos).Bounded := by
  rw [Bounded, kfifoLen]
  show (pos - pos).toNat ≤ _
  rw [UInt32.sub_self]
  exact Nat.zero_le _

theorem content_emptyAt (order : Nat) (horder : order ≤ 31) (pos : UInt32) :
    (emptyAt order horder pos).content = [] :=
  (inPos_eq_iff (bounded_emptyAt order horder pos)).mp rfl

/-- A ring of 8 bytes that holds one record.  The length field of the next one
is in front of the wrap of the counters and its bytes are behind it: two bytes
arrive, six are one more than `kfifo_avail` says. -/
theorem record_arrives_iff_le_avail_wrapped :
    ∃ fifo : Kfifo, Holds .rec1 [[5]] [] fifo ∧ fifo.inPos = 0xffffffff ∧
      ((fifo.kfifoInR [7, 8] 2 .rec1).1.readRecords .rec1 2).1 = [[5], [7, 8]] ∧
      ((fifo.kfifoInR [1, 2, 3, 4, 5, 6] 6 .rec1).1.readRecords .rec1 2).1 ≠
        [[5], [1, 2, 3, 4, 5, 6]] := by
  let start := emptyAt 3 (by decide) 0xfffffffd
  obtain ⟨hbounded, hcontent⟩ :=
    @kfifoInR_spec start .rec1 [5] 1 (bounded_emptyAt ..) rfl (by decide)
  rw [content_emptyAt] at hcontent
  have hholds : Holds .rec1 [[5]] [] (start.kfifoInR [5] 1 .rec1).1 :=
    ⟨hbounded, hcontent, by decide⟩
  have hiff {buf : List UInt8} {len : UInt32} (hlen : buf.length = len.toNat)
      (hpos : 0 < len.toNat) := record_arrives_iff_le_avail hholds hlen hpos
  exact ⟨_, hholds, by decide, (hiff rfl (by decide)).mpr (by decide),
    mt (hiff rfl (by decide)).mp (by decide)⟩

end Kfifo
end Common
end GameServer
