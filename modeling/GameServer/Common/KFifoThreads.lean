import GameServer.Common.KFifoRecords
import GameServer.Lib.Transition

/-!
# One writer and one reader without a lock

`kfifo.h` says that a fifo with one writer and one reader needs no lock.  Here
the two run `kfifo_in` and `kfifo_out` byte by byte: the writer looks at the
free space, stores the bytes of its block one at a time and then moves `in`;
the reader looks at the fill level, loads the length field, loads the bytes of
the record one at a time and then moves `out`.  Between any two of these
accesses the other thread may take any number of steps.

`memcpy` may copy its bytes in any order, and so may the processor in front of
the barrier `smp_wmb`; so the bytes of a block are stored, and those of a record
loaded, in any order.  The counters are moved behind the barrier.

A fifo has no length fields (`none`) or such of one or two bytes.
-/

namespace GameServer
namespace Common

open Lib

/-- Where the writer is in `kfifo_in`. -/
inductive KfifoWriter where
  | idle
  /-- The bytes at the offsets `missing` of the block are still to be stored,
  then `in` is moved. -/
  | storing (buf : List UInt8) (missing : List Nat)
  deriving DecidableEq

/-- Where the reader is in `kfifo_out`.  `dst` is its buffer. -/
inductive KfifoReader where
  | idle
  /-- In `__kfifo_peek_n`, with the low byte of the length if it has it. -/
  | peeking (dst : List UInt8) (low : Option UInt8)
  /-- The record has `n` bytes, of which the first `count` are copied; those at
  the offsets `missing` are still to be loaded, then `out` is moved. -/
  | copying (n count : UInt32) (dst : List UInt8) (missing : List Nat)
  deriving DecidableEq

/-- The fifo and its two threads.  As history, what the writer has handed over
with each finished `kfifo_in`, and for each finished `kfifo_out` the size of the
reader's buffer and the bytes it was given. -/
structure KfifoThreads where
  fifo : Kfifo
  writer : KfifoWriter
  reader : KfifoReader
  written : List (List UInt8)
  read : List (Nat × List UInt8)

/-- One access of one thread. -/
inductive KfifoAction where
  /-- `kfifo_in` looks at the free space. -/
  | inStart (buf : List UInt8)
  | store (k : Nat)
  | inEnd
  /-- `kfifo_out` looks at the fill level. -/
  | outStart (dst : List UInt8)
  | peek
  | load (i : Nat)
  | outEnd
  deriving DecidableEq

/-- The condition on requests: the length of a record fits into its field, as
`kfifo_avail` promises. -/
def KfifoAction.Short (head : Option RecSize) : KfifoAction → Prop
  | .inStart buf => ∀ recsize, head = some recsize →
      buf.length < 256 ^ recsize.size.toNat
  | _ => True

namespace Kfifo

/-- The place of byte `i` of `len` bytes that are copied from or to counter
`off`, in `kfifo_copy_in` and `kfifo_copy_out`. -/
def copyPlace (fifo : Kfifo) (len off : UInt32) (i : Nat) : Nat :=
  let size := fifo.mask + 1
  let off := off &&& fifo.mask
  let l := if len < size - off then len else size - off
  if i < l.toNat then off.toNat + i else i - l.toNat

/-- The size of the length fields. -/
def headSize : Option RecSize → UInt32
  | none => 0
  | some recsize => recsize.size

/-- What `kfifo_in` stores for a block. -/
def blockBytes : Option RecSize → List UInt8 → List UInt8
  | none, buf => buf
  | some recsize, buf => recsize.recordBytes buf

/-- Where byte `k` of a block goes: the length field by `__KFIFO_POKE`, the
rest by `kfifo_copy_in`. -/
def storePlace (fifo : Kfifo) (head : Option RecSize) (buf : List UInt8)
    (k : Nat) : Nat :=
  if k < (headSize head).toNat then
    ((fifo.inPos + UInt32.ofNat k) &&& fifo.mask).toNat
  else
    fifo.copyPlace (UInt32.ofNat buf.length) (fifo.inPos + headSize head)
      (k - (headSize head).toNat)

end Kfifo

namespace KfifoThreads

open Kfifo

/-- `kfifo_in` after its test: a fifo of bytes takes what fits, a fifo of
records the whole record or nothing. -/
def startIn (head : Option RecSize) (t : KfifoThreads) (buf : List UInt8) :
    KfifoThreads :=
  match head with
  | none =>
    let l := t.fifo.kfifoAvail
    let len := if UInt32.ofNat buf.length > l then l
      else UInt32.ofNat buf.length
    { t with writer := .storing (buf.take len.toNat) (List.range len.toNat) }
  | some recsize =>
    if buf.length + recsize.size.toNat > t.fifo.kfifoAvail.toNat then t
    else
      let size := recsize.size.toNat + buf.length
      { t with writer := .storing buf (List.range size) }

/-- The reader knows the length of the record. -/
def startCopy (t : KfifoThreads) (dst : List UInt8) (n : UInt32) :
    KfifoThreads :=
  let len := UInt32.ofNat dst.length
  let count := if len > n then n else len
  { t with reader := .copying n count dst (List.range count.toNat) }

/-- `kfifo_out` after its test. -/
def startOut (head : Option RecSize) (t : KfifoThreads) (dst : List UInt8) :
    KfifoThreads :=
  match head with
  | none =>
    let l := t.fifo.kfifoLen
    let len := if UInt32.ofNat dst.length > l then l
      else UInt32.ofNat dst.length
    { t with reader := .copying len len dst (List.range len.toNat) }
  | some _ =>
    if t.fifo.inPos = t.fifo.outPos then t
    else { t with reader := .peeking dst none }

/-- One access.  A byte outside the buffer would be the end of the run. -/
def step (head : Option RecSize) (t : KfifoThreads) :
    KfifoAction → Option KfifoThreads
  | .inStart buf =>
    match t.writer with
    | .idle => if buf.length < 2 ^ 32 then some (t.startIn head buf) else none
    | .storing _ _ => none
  | .store k =>
    match t.writer with
    | .storing buf missing =>
      let place := t.fifo.storePlace head buf k
      if k ∈ missing ∧ place < t.fifo.data.length then
        (blockBytes head buf)[k]?.map fun byte =>
          { t with
            fifo := t.fifo.setByte place byte
            writer := .storing buf (missing.filter (· ≠ k)) }
      else none
    | .idle => none
  | .inEnd =>
    match t.writer with
    | .storing buf [] =>
      some { t with
        fifo := { t.fifo with
          inPos := t.fifo.inPos +
            (UInt32.ofNat buf.length + headSize head) }
        writer := .idle
        written := t.written ++ [buf] }
    | _ => none
  | .outStart dst =>
    match t.reader with
    | .idle => if dst.length < 2 ^ 32 then some (t.startOut head dst) else none
    | _ => none
  | .peek =>
    match head, t.reader with
    | some .rec1, .peeking dst none =>
      some (t.startCopy dst (t.fifo.peek t.fifo.outPos).toUInt32)
    | some .rec2, .peeking dst none =>
      some { t with
        reader := .peeking dst (some (t.fifo.peek t.fifo.outPos)) }
    | some .rec2, .peeking dst (some low) =>
      some (t.startCopy dst (low.toUInt32 |||
        ((t.fifo.peek (t.fifo.outPos + 1)).toUInt32 <<< 8)))
    | _, _ => none
  | .load i =>
    match t.reader with
    | .copying n count dst missing =>
      if i ∈ missing then
        t.fifo.data[t.fifo.copyPlace count
            (t.fifo.outPos + headSize head) i]?.map fun byte =>
          { t with
            reader := .copying n count (dst.set i byte)
              (missing.filter (· ≠ i)) }
      else none
    | _ => none
  | .outEnd =>
    match t.reader with
    | .copying n count dst [] =>
      some { t with
        fifo := t.fifo.kfifoSkipN (n + headSize head)
        reader := .idle
        read := t.read ++ [(dst.length, dst.take count.toNat)] }
    | _ => none

end KfifoThreads

namespace Kfifo

/-! ## Places -/

/-- The two pieces of a copy are consecutive places of the ring. -/
theorem copyPlace_eq (fifo : Kfifo) {len : UInt32} (off : UInt32) {i : Nat}
    (hi : i < len.toNat) (hlen : len.toNat ≤ fifo.data.length) :
    fifo.copyPlace len off i = (off.toNat + i) % fifo.data.length := by
  have hoff := Nat.mod_lt off.toNat fifo.length_data_pos
  have hmod : (off.toNat + i) % fifo.data.length =
      (off.toNat % fifo.data.length + i) % fifo.data.length := by
    rw [Nat.mod_add_mod]
  simp only [copyPlace, toNat_first_piece, toNat_and_mask, hmod]
  generalize off.toNat % fifo.data.length = place at hoff
  split_ifs with hfirst
  · rw [Nat.mod_eq_of_lt (by omega)]
  · rw [Nat.mod_eq_sub_mod (by omega), Nat.mod_eq_of_lt (by omega)]
    omega

theorem length_blockBytes (head : Option RecSize) (buf : List UInt8) :
    (blockBytes head buf).length = (headSize head).toNat + buf.length := by
  cases head with
  | none => exact (Nat.zero_add _).symm
  | some recsize =>
    rw [blockBytes, RecSize.recordBytes, List.length_append, RecSize.length_lengthField]
    rfl

variable {fifo : Kfifo} {head : Option RecSize}

/-- The bytes of a block go to consecutive places from `in` on. -/
theorem storePlace_eq {buf : List UInt8} {k : Nat} (hk : k < (blockBytes head buf).length)
    (hfits : (blockBytes head buf).length ≤ fifo.data.length) :
    fifo.storePlace head buf k = (fifo.inPos.toNat + k) % fifo.data.length := by
  have hbound := fifo.two_pow_order_le
  rw [length_blockBytes, fifo.length_data] at hfits
  rw [length_blockBytes] at hk
  have hbuf : (UInt32.ofNat buf.length).toNat = buf.length := by
    rw [UInt32.toNat_ofNat']
    omega
  have hk' : (UInt32.ofNat k).toNat = k := by
    rw [UInt32.toNat_ofNat']
    omega
  rw [storePlace]
  split_ifs with hfield
  · rw [toNat_and_mask, toNat_add_mod, hk']
  · rw [copyPlace_eq _ _ (by omega) (by rw [fifo.length_data]; omega),
      Nat.add_mod, toNat_add_mod, ← Nat.add_mod]
    congr 1
    omega

/-- A byte stored where the fifo is free. -/
theorem content_setByte {k : Nat} (h : fifo.Bounded)
    (hk : k < fifo.kfifoAvail.toNat) (val : UInt8) :
    (fifo.setByte ((fifo.inPos.toNat + k) % fifo.data.length) val).content =
      fifo.content := by
  have havail := toNat_kfifoAvail h
  have hplace : (fifo.inPos.toNat + k) % fifo.data.length =
      (fifo.outPos.toNat + (fifo.content.length + k)) % fifo.data.length := by
    rw [Nat.add_mod, inPos_mod h, ← Nat.add_mod, Nat.add_assoc]
  rw [hplace]
  refine ringRead_set ?_ ?_ val
  · rw [length_content h]
    exact Nat.le_add_right ..
  · rw [fifo.length_data]
    omega

/-- `in` moves behind what has been stored there. -/
theorem content_advance {block : List UInt8} (h : fifo.Bounded)
    (hfits : block.length ≤ fifo.kfifoAvail.toNat)
    (hstored : ∀ k < block.length,
      fifo.data[(fifo.inPos.toNat + k) % fifo.data.length]? = block[k]?)
    {fifo' : Kfifo} (hout : fifo'.outPos = fifo.outPos)
    (horder : fifo'.order = fifo.order) (hdata : fifo'.data = fifo.data)
    (hin : fifo'.inPos = fifo.inPos + UInt32.ofNat block.length) :
    fifo'.Bounded ∧ fifo'.content = fifo.content ++ block := by
  have havail := toNat_kfifoAvail h
  have hlevel := kfifoLen_advance h hout hin hfits
  have hlength : fifo.content.length ≤ 2 ^ fifo.order := by
    rw [length_content h]
    exact h
  have hblock : ringRead fifo.data fifo.inPos.toNat block.length = block := by
    apply List.ext_getElem?
    intro k
    by_cases hk : k < block.length
    · rw [getElem?_ringRead (by rw [fifo.length_data]; omega) hk, hstored k hk]
    · rw [List.getElem?_eq_none, List.getElem?_eq_none (by omega)]
      rw [length_ringRead (by rw [fifo.length_data]; omega)]
      omega
  constructor
  · rw [Bounded, hlevel, horder]
    omega
  · rw [content, hlevel, hout, hdata, ringRead_add (by rw [fifo.length_data]; omega),
      ← ringRead_congr (inPos_mod h), hblock, length_content h]
    rfl

end Kfifo

namespace KfifoThreads

open Kfifo

/-! ## The invariant -/

/-- The writer has room for its block, and what is not missing is stored. -/
structure Storing (head : Option RecSize) (fifo : Kfifo) (buf : List UInt8)
    (missing : List Nat) : Prop where
  fits : (blockBytes head buf).length ≤ fifo.kfifoAvail.toNat
  missing_lt : ∀ k ∈ missing, k < (blockBytes head buf).length
  stored : ∀ k < (blockBytes head buf).length, k ∉ missing →
    fifo.data[(fifo.inPos.toNat + k) % fifo.data.length]? =
      (blockBytes head buf)[k]?
  short : ∀ recsize, head = some recsize →
    buf.length < 256 ^ recsize.size.toNat

def WriterOk (head : Option RecSize) (fifo : Kfifo) : KfifoWriter → Prop
  | .idle => True
  | .storing buf missing => Storing head fifo buf missing

/-- The reader takes the `n` bytes behind the length field, and what is not
missing of the first `count` is in its buffer. -/
structure Copying (head : Option RecSize) (content : List UInt8)
    (n count : UInt32) (dst : List UInt8) (missing : List Nat) : Prop where
  field : ∀ recsize, head = some recsize → n.toNat < 256 ^ recsize.size.toNat ∧
    ∃ rest, content = recsize.lengthField n ++ rest
  plain : head = none → n = count
  count_le : count.toNat ≤ n.toNat
  count_eq : ∀ recsize, head = some recsize →
    count.toNat = min dst.length n.toNat
  count_dst : count.toNat ≤ dst.length
  inside : (headSize head).toNat + n.toNat ≤ content.length
  missing_lt : ∀ i ∈ missing, i < count.toNat
  loaded : ∀ i < count.toNat, i ∉ missing →
    dst[i]? = content[(headSize head).toNat + i]?

/-- The reader has found a record and knows the low byte of its length. -/
structure Peeking (head : Option RecSize) (content : List UInt8)
    (dst : List UInt8) (low : Option UInt8) : Prop where
  records : head ≠ none
  found : content ≠ []
  dst_lt : dst.length < 2 ^ 32
  low_eq : ∀ byte, low = some byte →
    head = some .rec2 ∧ content[0]? = some byte

def ReaderOk (head : Option RecSize) (content : List UInt8) :
    KfifoReader → Prop
  | .idle => True
  | .peeking dst low => Peeking head content dst low
  | .copying n count dst missing => Copying head content n count dst missing

/-- What has been read is what has been written, and the rest is in the fifo:
byte for byte, or record for record, each cut to the reader's buffer. -/
def Delivered (head : Option RecSize) (content : List UInt8)
    (written : List (List UInt8)) (read : List (Nat × List UInt8)) : Prop :=
  match head with
  | none => written.flatten = (read.map Prod.snd).flatten ++ content
  | some recsize => ∃ front pending, written = front ++ pending ∧
      List.Forall₂ (fun record result => result.2 = record.take result.1)
        front read ∧
      content = pending.flatMap recsize.recordBytes ∧
      ∀ record ∈ pending, record.length < 256 ^ recsize.size.toNat

structure Inv (head : Option RecSize) (t : KfifoThreads) : Prop where
  bounded : t.fifo.Bounded
  writer : WriterOk head t.fifo t.writer
  reader : ReaderOk head t.fifo.content t.reader
  delivered : Delivered head t.fifo.content t.written t.read

variable {head : Option RecSize} {t : KfifoThreads} {fifo : Kfifo}
  {buf content dst : List UInt8}

/-! ## The writer -/

theorem WriterOk.congr {fifo' : Kfifo} {w : KfifoWriter}
    (h : WriterOk head fifo w) (hin : fifo'.inPos = fifo.inPos)
    (hdata : fifo'.data = fifo.data)
    (havail : fifo.kfifoAvail.toNat ≤ fifo'.kfifoAvail.toNat) :
    WriterOk head fifo' w := by
  cases w with
  | idle => trivial
  | storing buf missing =>
    refine ⟨h.fits.trans havail, h.missing_lt, ?_, h.short⟩
    rw [hin, hdata]
    exact h.stored

/-- Nothing has been stored of a block that fits. -/
theorem storing_range (hfits : (blockBytes head buf).length ≤ fifo.kfifoAvail.toNat)
    (hshort : ∀ recsize, head = some recsize → buf.length < 256 ^ recsize.size.toNat) :
    Storing head fifo buf (List.range (blockBytes head buf).length) where
  fits := hfits
  missing_lt := fun _ hk => List.mem_range.mp hk
  stored := fun _ hk hmissing => absurd (List.mem_range.mpr hk) hmissing
  short := hshort

theorem inv_startIn (h : Inv head t) (hbuf : buf.length < 2 ^ 32)
    (hshort : ∀ recsize, head = some recsize → buf.length < 256 ^ recsize.size.toNat) :
    Inv head (t.startIn head buf) := by
  cases head with
  | none =>
    have hlen : (UInt32.ofNat buf.length).toNat = buf.length := by
      rw [UInt32.toNat_ofNat', Nat.mod_eq_of_lt hbuf]
    simp only [startIn]
    generalize hcut : (if UInt32.ofNat buf.length > t.fifo.kfifoAvail then
      t.fifo.kfifoAvail else UInt32.ofNat buf.length) = len
    have hle : len.toNat ≤ buf.length ∧ len.toNat ≤ t.fifo.kfifoAvail.toNat := by
      rw [← hcut, toNat_ite_gt]
      omega
    have hblock : (blockBytes none (buf.take len.toNat)).length =
        len.toNat := by
      rw [blockBytes, List.length_take]
      omega
    have hstoring : Storing none t.fifo (buf.take len.toNat)
        (List.range (blockBytes none (buf.take len.toNat)).length) :=
      storing_range (by omega) (by simp)
    rw [hblock] at hstoring
    exact ⟨h.bounded, hstoring, h.reader, h.delivered⟩
  | some recsize =>
    simp only [startIn]
    split_ifs with hfull
    · exact h
    · have hblock := length_blockBytes (some recsize) buf
      simp only [headSize] at hblock
      have hstoring : Storing (some recsize) t.fifo buf
          (List.range (blockBytes (some recsize) buf).length) :=
        storing_range (by omega) hshort
      rw [hblock] at hstoring
      exact ⟨h.bounded, hstoring, h.reader, h.delivered⟩

/-- A byte of the block is stored at its place. -/
theorem inv_store (h : Inv head t) {missing : List Nat}
    (hwriter : t.writer = .storing buf missing) {k : Nat} (hk : k ∈ missing)
    {byte : UInt8} (hbyte : (blockBytes head buf)[k]? = some byte) :
    Inv head { t with
      fifo := t.fifo.setByte (t.fifo.storePlace head buf k) byte
      writer := .storing buf (missing.filter (· ≠ k)) } := by
  have hstoring : Storing head t.fifo buf missing := by
    have := h.writer
    rwa [hwriter] at this
  have hlt := hstoring.missing_lt k hk
  have havail := toNat_kfifoAvail h.bounded
  have hfits := hstoring.fits
  have hsize : (blockBytes head buf).length ≤ t.fifo.data.length := by
    rw [t.fifo.length_data]
    omega
  rw [storePlace_eq hlt hsize]
  have hcontent := content_setByte h.bounded (hlt.trans_le hfits) byte
  refine ⟨h.bounded, ⟨hfits, ?_, ?_, hstoring.short⟩, ?_, ?_⟩
  · intro j hj
    exact hstoring.missing_lt j (List.mem_of_mem_filter hj)
  · intro j hj hmissing
    have hlength : (t.fifo.setByte ((t.fifo.inPos.toNat + k) %
        t.fifo.data.length) byte).data.length = t.fifo.data.length :=
      List.length_set
    rw [hlength]
    show (t.fifo.data.set _ _)[_]? = _
    by_cases hjk : j = k
    · subst hjk
      rw [hbyte]
      exact List.getElem?_set_self (Nat.mod_lt _ t.fifo.length_data_pos)
    · have hne := add_mod_ne t.fifo.inPos.toNat (hlt.trans_le hsize)
        (hj.trans_le hsize) (Ne.symm hjk)
      refine (List.getElem?_set_ne hne).trans (hstoring.stored j hj ?_)
      intro hmem
      exact hmissing (List.mem_filter.mpr ⟨hmem, by simpa using hjk⟩)
  · rw [hcontent]
    exact h.reader
  · rw [hcontent]
    exact h.delivered

theorem ReaderOk.append {r : KfifoReader} (h : ReaderOk head content r)
    (block : List UInt8) : ReaderOk head (content ++ block) r := by
  cases r with
  | idle => trivial
  | peeking dst low =>
    refine ⟨h.records, ?_, h.dst_lt, ?_⟩
    · intro hnil
      exact h.found (List.append_eq_nil_iff.mp hnil).1
    · intro byte hlow
      rw [List.getElem?_append_left (List.length_pos_of_ne_nil h.found)]
      exact h.low_eq byte hlow
  | copying n count dst missing =>
    refine ⟨?_, h.plain, h.count_le, h.count_eq, h.count_dst, ?_, h.missing_lt, ?_⟩
    · intro recsize hhead
      obtain ⟨hn, rest, hrest⟩ := h.field recsize hhead
      exact ⟨hn, rest ++ block, by rw [hrest, List.append_assoc]⟩
    · rw [List.length_append]
      exact h.inside.trans (Nat.le_add_right ..)
    · intro i hi hmissing
      have hinside := h.inside
      have hcount := h.count_le
      rw [List.getElem?_append_left (by omega)]
      exact h.loaded i hi hmissing

theorem Delivered.append {written : List (List UInt8)}
    {read : List (Nat × List UInt8)} (h : Delivered head content written read)
    (hshort : ∀ recsize, head = some recsize → buf.length < 256 ^ recsize.size.toNat) :
    Delivered head (content ++ blockBytes head buf) (written ++ [buf]) read := by
  cases head with
  | none =>
    show (written ++ [buf]).flatten = _ ++ (content ++ buf)
    rw [List.flatten_append, h, List.append_assoc]
    simp
  | some recsize =>
    obtain ⟨front, pending, rfl, hread, hcontent, hpending⟩ := h
    refine ⟨front, pending ++ [buf], List.append_assoc .., hread, ?_, ?_⟩
    · rw [List.flatMap_append, hcontent]
      simp [blockBytes]
    · intro record hrecord
      rcases List.mem_append.mp hrecord with hrecord | hrecord
      · exact hpending record hrecord
      · rw [List.mem_singleton.mp hrecord]
        exact hshort recsize rfl

/-- `in` is moved behind the block. -/
theorem inv_inEnd (h : Inv head t) (hwriter : t.writer = .storing buf []) :
    Inv head { t with
      fifo := { t.fifo with
        inPos := t.fifo.inPos + (UInt32.ofNat buf.length + headSize head) }
      writer := .idle
      written := t.written ++ [buf] } := by
  have hstoring : Storing head t.fifo buf [] := by
    have := h.writer
    rwa [hwriter] at this
  have hin : t.fifo.inPos + (UInt32.ofNat buf.length + headSize head) =
      t.fifo.inPos + UInt32.ofNat (blockBytes head buf).length := by
    rw [length_blockBytes, UInt32.ofNat_add, UInt32.ofNat_toNat, UInt32.add_comm (headSize head)]
  let moved : Kfifo := { t.fifo with
    inPos := t.fifo.inPos + (UInt32.ofNat buf.length + headSize head) }
  obtain ⟨hbounded, hcontent⟩ : moved.Bounded ∧
      moved.content = t.fifo.content ++ blockBytes head buf :=
    content_advance h.bounded hstoring.fits
      (fun k hk => hstoring.stored k hk List.not_mem_nil) rfl rfl rfl hin
  refine ⟨hbounded, trivial, ?_, ?_⟩
  · rw [hcontent]
    exact h.reader.append _
  · rw [hcontent]
    exact h.delivered.append hstoring.short

/-! ## The reader -/

theorem inv_startCopy (h : Inv head t) {n : UInt32} (hdst : dst.length < 2 ^ 32)
    (hrecords : head ≠ none) (hfield : ∀ recsize, head = some recsize →
      n.toNat < 256 ^ recsize.size.toNat ∧ ∃ rest, t.fifo.content = recsize.lengthField n ++ rest)
    (hinside : (headSize head).toNat + n.toNat ≤ t.fifo.content.length) :
    Inv head (t.startCopy dst n) := by
  have hlen : (UInt32.ofNat dst.length).toNat = dst.length := by
    rw [UInt32.toNat_ofNat', Nat.mod_eq_of_lt hdst]
  simp only [startCopy]
  generalize hcut : (if UInt32.ofNat dst.length > n then n
    else UInt32.ofNat dst.length) = count
  have hcount : count.toNat = min dst.length n.toNat := by
    rw [← hcut, toNat_ite_gt, hlen]
  refine ⟨h.bounded, h.writer, ?_, h.delivered⟩
  exact
    { field := hfield
      plain := fun hnone => absurd hnone hrecords
      count_le := by omega
      count_eq := fun _ _ => hcount
      count_dst := by omega
      inside := hinside
      missing_lt := fun _ hi => List.mem_range.mp hi
      loaded := fun _ hi hmissing => absurd (List.mem_range.mpr hi) hmissing }

theorem inv_startOut (h : Inv head t) (hdst : dst.length < 2 ^ 32) :
    Inv head (t.startOut head dst) := by
  cases head with
  | none =>
    have hlen : (UInt32.ofNat dst.length).toNat = dst.length := by
      rw [UInt32.toNat_ofNat', Nat.mod_eq_of_lt hdst]
    have hlevel := length_content h.bounded
    simp only [startOut]
    generalize hcut : (if UInt32.ofNat dst.length > t.fifo.kfifoLen then
      t.fifo.kfifoLen else UInt32.ofNat dst.length) = len
    have hle : len.toNat ≤ dst.length ∧ len.toNat ≤ t.fifo.content.length := by
      rw [← hcut, toNat_ite_gt]
      omega
    refine ⟨h.bounded, h.writer, ?_, h.delivered⟩
    exact
      { field := by simp
        plain := fun _ => rfl
        count_le := Nat.le_refl _
        count_eq := by simp
        count_dst := hle.1
        inside := by simpa [headSize] using hle.2
        missing_lt := fun _ hi => List.mem_range.mp hi
        loaded := fun _ hi hmissing =>
          absurd (List.mem_range.mpr hi) hmissing }
  | some recsize =>
    simp only [startOut]
    split_ifs with hempty
    · exact h
    · refine ⟨h.bounded, h.writer, ?_, h.delivered⟩
      refine ⟨by simp, ?_, hdst, by simp⟩
      rwa [inPos_eq_iff h.bounded] at hempty

/-- In front of a fifo of records that is not empty stands the next one. -/
theorem Delivered.front {recsize : RecSize} {written : List (List UInt8)}
    {read : List (Nat × List UInt8)}
    (h : Delivered (some recsize) content written read) (hfound : content ≠ []) :
    ∃ record rest, record.length < 256 ^ recsize.size.toNat ∧
      content = recsize.recordBytes record ++ rest ∧
      ∀ size, Delivered (some recsize) rest written (read ++ [(size, record.take size)]) := by
  obtain ⟨front, pending, rfl, hread, rfl, hpending⟩ := h
  cases pending with
  | nil => exact absurd rfl hfound
  | cons record pending =>
    refine ⟨record, pending.flatMap recsize.recordBytes,
      hpending record List.mem_cons_self, List.flatMap_cons .., ?_⟩
    intro size
    refine ⟨front ++ [record], pending, by simp, ?_, rfl,
      fun r hr => hpending r (List.mem_cons_of_mem _ hr)⟩
    exact List.rel_append hread (.cons rfl .nil)

/-- The length that stands in front is read back. -/
theorem toNat_kfifoPeekN_record {recsize : RecSize} {record rest : List UInt8} (h : fifo.Bounded)
    (hcontent : fifo.content = recsize.recordBytes record ++ rest)
    (hshort : record.length < 256 ^ recsize.size.toNat) :
    (fifo.kfifoPeekN recsize).toNat = record.length := by
  have hpow := recsize.pow_le
  have hnat : (UInt32.ofNat record.length).toNat = record.length := by
    rw [UInt32.toNat_ofNat']
    omega
  rw [RecSize.recordBytes, List.append_assoc] at hcontent
  rw [toNat_kfifoPeekN h hcontent, hnat, Nat.mod_eq_of_lt hshort]

theorem inv_copy_record {recsize : RecSize} (h : Inv (some recsize) t)
    (hdst : dst.length < 2 ^ 32) (hfound : t.fifo.content ≠ []) :
    Inv (some recsize) (t.startCopy dst (t.fifo.kfifoPeekN recsize)) := by
  obtain ⟨record, rest, hshort, hcontent, -⟩ := h.delivered.front hfound
  have hn := toNat_kfifoPeekN_record h.bounded hcontent hshort
  refine inv_startCopy h hdst (by simp) ?_ ?_
  · intro recsize' hhead
    cases hhead
    refine ⟨hn ▸ hshort, record ++ rest, ?_⟩
    rw [hcontent, RecSize.recordBytes, ← hn, UInt32.ofNat_toNat, List.append_assoc]
  · rw [hcontent, List.length_append, RecSize.recordBytes, List.length_append,
      RecSize.length_lengthField, hn]
    show recsize.size.toNat + _ ≤ _
    omega

/-- A byte is loaded from its place. -/
theorem inv_load (h : Inv head t) {n count : UInt32} {missing : List Nat}
    (hreader : t.reader = .copying n count dst missing) {i : Nat}
    (hi : i ∈ missing) {byte : UInt8}
    (hbyte : t.fifo.data[t.fifo.copyPlace count (t.fifo.outPos + headSize head) i]? = some byte) :
    Inv head { t with
      reader := .copying n count (dst.set i byte) (missing.filter (· ≠ i)) } := by
  have hcopying : Copying head t.fifo.content n count dst missing := by
    have := h.reader
    rwa [hreader] at this
  have hlt := hcopying.missing_lt i hi
  have hcount := hcopying.count_le
  have hdst := hcopying.count_dst
  have hinside := hcopying.inside
  have hlevel := length_content h.bounded
  have hsize : t.fifo.kfifoLen.toNat ≤ t.fifo.data.length :=
    t.fifo.length_data ▸ h.bounded
  have hvalue : t.fifo.content[(headSize head).toNat + i]? = some byte := by
    rw [copyPlace_eq _ _ hlt (by omega), Nat.add_mod, toNat_add_mod,
      ← Nat.add_mod, Nat.add_assoc] at hbyte
    rw [content, getElem?_ringRead hsize (by omega), hbyte]
  refine ⟨h.bounded, h.writer, ?_, h.delivered⟩
  refine ⟨hcopying.field, hcopying.plain, hcount, ?_, ?_, hinside, ?_, ?_⟩
  · rw [List.length_set]
    exact hcopying.count_eq
  · rw [List.length_set]
    exact hdst
  · intro j hj
    exact hcopying.missing_lt j (List.mem_of_mem_filter hj)
  · intro j hj hmissing
    by_cases hji : j = i
    · subst hji
      rw [List.getElem?_set_self (by omega), hvalue]
    · rw [List.getElem?_set_ne (Ne.symm hji)]
      refine hcopying.loaded j hj ?_
      intro hmem
      exact hmissing (List.mem_filter.mpr ⟨hmem, by simpa using hji⟩)

/-- With nothing missing the buffer holds the bytes behind the length field. -/
theorem Copying.take_eq {n count : UInt32} (h : Copying head content n count dst []) :
    dst.take count.toNat = (content.drop (headSize head).toNat).take count.toNat := by
  apply List.ext_getElem?
  intro i
  by_cases hi : i < count.toNat
  · rw [List.getElem?_take_of_lt hi, List.getElem?_take_of_lt hi, List.getElem?_drop]
    exact h.loaded i hi List.not_mem_nil
  · rw [List.getElem?_take_eq_none (by omega), List.getElem?_take_eq_none (by omega)]

/-- `out` is moved behind the record. -/
theorem inv_outEnd (h : Inv head t) {n count : UInt32}
    (hreader : t.reader = .copying n count dst []) :
    Inv head { t with
      fifo := t.fifo.kfifoSkipN (n + headSize head)
      reader := .idle
      read := t.read ++ [(dst.length, dst.take count.toNat)] } := by
  have hcopying : Copying head t.fifo.content n count dst [] := by
    have := h.reader
    rwa [hreader] at this
  have hinside := hcopying.inside
  have hskip : (n + headSize head).toNat = n.toNat + (headSize head).toNat := by
    have hlevel : t.fifo.content.length ≤ 2 ^ t.fifo.order := by
      rw [length_content h.bounded]
      exact h.bounded
    have hbound := t.fifo.two_pow_order_le
    rw [UInt32.toNat_add]
    omega
  obtain ⟨hbounded, hcontent, horder⟩ := kfifoSkipN_spec h.bounded
    (n := n + headSize head) (by omega)
  rw [hskip] at hcontent
  refine ⟨hbounded, h.writer.congr rfl rfl ?_, trivial, ?_⟩
  · -- moving `out` makes room
    rw [toNat_kfifoAvail h.bounded, toNat_kfifoAvail hbounded, horder, hcontent, List.length_drop]
    omega
  rw [hcontent, hcopying.take_eq]
  have hdelivered := h.delivered
  cases head with
  | none =>
    obtain rfl := hcopying.plain rfl
    simp only [Delivered] at hdelivered ⊢
    simp [hdelivered, headSize]
  | some recsize =>
    have hfound : t.fifo.content ≠ [] := by
      have hpos := recsize.size_pos
      simp only [headSize] at hinside
      rw [← List.length_pos_iff]
      omega
    obtain ⟨record, rest, hshort, hfront, hnext⟩ := hdelivered.front hfound
    obtain ⟨hn, rest', hfield⟩ := hcopying.field recsize rfl
    -- the length the reader has found is that of the record
    have hlength : n.toNat = record.length := by
      rw [← toNat_kfifoPeekN_record h.bounded hfront hshort,
        toNat_kfifoPeekN h.bounded hfield, Nat.mod_eq_of_lt hn]
    have hhead : (recsize.lengthField (UInt32.ofNat record.length)).length =
        recsize.size.toNat := RecSize.length_lengthField ..
    have hdrop : t.fifo.content.drop recsize.size.toNat = record ++ rest := by
      rw [hfront, RecSize.recordBytes, List.append_assoc, List.drop_left' hhead]
    simp only [headSize]
    rw [Nat.add_comm, ← List.drop_drop, hdrop, hlength, List.drop_left' rfl,
      hcopying.count_eq recsize rfl, hlength]
    convert hnext dst.length using 4
    rw [← List.take_take, List.take_left' rfl]

/-! ## Runs -/

theorem inv_peek (h : Inv head t) {t' : KfifoThreads}
    (hstep : t.step head .peek = some t') : Inv head t' := by
  have hreader := h.reader
  have hlow : ∀ dst low, t.reader = .peeking dst low → Peeking head t.fifo.content dst low := by
    intro dst low heq
    rwa [heq] at hreader
  simp only [step] at hstep
  split at hstep
  · rename_i dst heq
    cases hstep
    have hpeeking := hlow dst none heq
    exact inv_copy_record h hpeeking.dst_lt hpeeking.found
  · rename_i dst heq
    cases hstep
    have hpeeking := hlow dst none heq
    refine ⟨h.bounded, h.writer, ⟨hpeeking.records, hpeeking.found,
      hpeeking.dst_lt, ?_⟩, h.delivered⟩
    rintro byte ⟨⟩
    have hzero := getElem?_content h.bounded (List.length_pos_of_ne_nil hpeeking.found)
    exact ⟨rfl, by simpa using hzero⟩
  · rename_i dst low heq
    cases hstep
    have hpeeking := hlow dst (some low) heq
    have hzero := getElem?_content h.bounded (List.length_pos_of_ne_nil hpeeking.found)
    rw [(hpeeking.low_eq low rfl).2] at hzero
    have hbyte : low = t.fifo.peek t.fifo.outPos := by simpa using hzero
    rw [hbyte]
    exact inv_copy_record h hpeeking.dst_lt hpeeking.found
  · cases hstep

theorem inv_step (h : Inv head t) {a : KfifoAction} {t' : KfifoThreads}
    (hshort : a.Short head) (hstep : t.step head a = some t') : Inv head t' := by
  cases a with
  | inStart buf =>
    simp only [step] at hstep
    split at hstep
    · obtain ⟨hbuf, hstart⟩ := Option.ite_none_right_eq_some.mp hstep
      cases hstart
      exact inv_startIn h hbuf hshort
    · cases hstep
  | store k =>
    simp only [step] at hstep
    split at hstep
    · rename_i buf missing hwriter
      obtain ⟨⟨hk, -⟩, hmap⟩ := Option.ite_none_right_eq_some.mp hstep
      obtain ⟨byte, hbyte, rfl⟩ := Option.map_eq_some_iff.mp hmap
      exact inv_store h hwriter hk hbyte
    · cases hstep
  | inEnd =>
    simp only [step] at hstep
    split at hstep
    · rename_i buf hwriter
      cases hstep
      exact inv_inEnd h hwriter
    · cases hstep
  | outStart dst =>
    simp only [step] at hstep
    split at hstep
    · obtain ⟨hdst, hstart⟩ := Option.ite_none_right_eq_some.mp hstep
      cases hstart
      exact inv_startOut h hdst
    · cases hstep
  | peek => exact inv_peek h hstep
  | load i =>
    simp only [step] at hstep
    split at hstep
    · rename_i n count dst missing hreader
      obtain ⟨hi, hmap⟩ := Option.ite_none_right_eq_some.mp hstep
      obtain ⟨byte, hbyte, rfl⟩ := Option.map_eq_some_iff.mp hmap
      exact inv_load h hreader hi hbyte
    · cases hstep
  | outEnd =>
    simp only [step] at hstep
    split at hstep
    · rename_i n count dst hreader
      cases hstep
      exact inv_outEnd h hreader
    · cases hstep

/-- Two idle threads and a fifo with equal counters; what its buffer holds does
not matter. -/
def start (fifo : Kfifo) : KfifoThreads := ⟨fifo, .idle, .idle, [], []⟩

theorem inv_start (head : Option RecSize) (hempty : fifo.inPos = fifo.outPos) :
    Inv head (start fifo) := by
  have hbounded : fifo.Bounded := by
    rw [Bounded, kfifoLen, hempty, UInt32.sub_self]
    exact Nat.zero_le _
  have hcontent : fifo.content = [] := (inPos_eq_iff hbounded).mp hempty
  refine ⟨hbounded, trivial, trivial, ?_⟩
  show Delivered head fifo.content [] []
  rw [hcontent]
  cases head with
  | none => rfl
  | some recsize => exact ⟨[], [], rfl, .nil, rfl, List.forall_mem_nil _⟩

theorem inv_of_run (hempty : fifo.inPos = fifo.outPos)
    {actions : List KfifoAction} (hshort : ∀ a ∈ actions, a.Short head)
    (hrun : runSteps (step head) (start fifo) actions = some t) :
    Inv head t := by
  have hkeep : ∀ (t : KfifoThreads) (a : KfifoAction) (t' : KfifoThreads),
      Inv head t → a.Short head → t.step head a = some t' → Inv head t' :=
    fun _ _ _ hinv hshort hstep => inv_step hinv hshort hstep
  exact runSteps_invariant_of_meets hkeep (inv_start head hempty)
    (runMeets_of_forall (fun a ha _ => hshort a ha) _) hrun

/-- **A fifo of bytes needs no lock.**  However the accesses of one writer and
one reader are interleaved, and wherever the counters stand at the start, what
the reader has been given, in order, and behind it what is in the fifo, is what
the writer has handed over. -/
theorem bytes_in_order {fifo : Kfifo} (hempty : fifo.inPos = fifo.outPos)
    {actions : List KfifoAction}
    (hrun : runSteps (step none) (start fifo) actions = some t) :
    t.written.flatten = (t.read.map Prod.snd).flatten ++ t.fifo.content := by
  have hshort : ∀ a ∈ actions, a.Short none := by
    intro a _
    cases a <;> simp [KfifoAction.Short]
  exact (inv_of_run hempty hshort hrun).delivered

/-- A read that goes on while the next bytes are stored. -/
theorem bytes_in_order_overlapping :
    ∃ t, runSteps (step none) (start (emptyAt 1 (by decide) 0xffffffff))
        [.inStart [7, 8], .store 1, .store 0, .inEnd, .outStart [0], .load 0,
          .outEnd, .inStart [9], .outStart [0, 0], .load 0, .store 0,
          .outEnd, .inEnd] = some t ∧
      t.read = [(1, [7]), (2, [8])] ∧
      t.written.flatten = (t.read.map Prod.snd).flatten ++ t.fifo.content := by
  have hread : (runSteps (step none) (start (emptyAt 1 (by decide) 0xffffffff))
      [.inStart [7, 8], .store 1, .store 0, .inEnd, .outStart [0], .load 0,
        .outEnd, .inStart [9], .outStart [0, 0], .load 0, .store 0, .outEnd,
        .inEnd]).map read = some [(1, [7]), (2, [8])] := by
    decide +kernel
  obtain ⟨t, hrun, hread⟩ := Option.map_eq_some_iff.mp hread
  exact ⟨t, hrun, hread, bytes_in_order rfl hrun⟩

/-- **A fifo of records needs no lock.**  However the accesses of one writer and
one reader are interleaved, the reader has been given the first records of the
writer in order, each cut to the size of its buffer, and the fifo holds the
others. -/
theorem records_in_order {recsize : RecSize} {fifo : Kfifo}
    (hempty : fifo.inPos = fifo.outPos) {actions : List KfifoAction}
    (hshort : ∀ a ∈ actions, a.Short (some recsize))
    (hrun : runSteps (step (some recsize)) (start fifo) actions = some t) :
    ∃ front pending, t.written = front ++ pending ∧
      List.Forall₂ (fun record result => result.2 = record.take result.1) front t.read ∧
      t.fifo.content = pending.flatMap recsize.recordBytes := by
  obtain ⟨front, pending, hwritten, hread, hcontent, -⟩ :=
    (inv_of_run hempty hshort hrun).delivered
  exact ⟨front, pending, hwritten, hread, hcontent⟩

/-- A record that is read with a buffer too short for it, while the next one is
stored. -/
theorem records_in_order_overlapping :
    ∃ t, runSteps (step (some .rec1))
        (start (emptyAt 3 (by decide) 0xfffffffe))
        [.inStart [7, 8], .store 2, .store 0, .store 1, .inEnd, .outStart [0],
          .peek, .inStart [9], .store 1, .load 0, .store 0, .outEnd,
          .inEnd] = some t ∧
      t.read = [(1, [7])] ∧
      ∃ front pending, t.written = front ++ pending ∧
        List.Forall₂ (fun record result => result.2 = record.take result.1) front t.read ∧
        t.fifo.content = pending.flatMap RecSize.rec1.recordBytes := by
  have hread : (runSteps (step (some .rec1)) (start (emptyAt 3 (by decide) 0xfffffffe))
      [.inStart [7, 8], .store 2, .store 0, .store 1, .inEnd, .outStart [0],
        .peek, .inStart [9], .store 1, .load 0, .store 0, .outEnd,
        .inEnd]).map read = some [(1, [7])] := by
    decide +kernel
  obtain ⟨t, hrun, hread⟩ := Option.map_eq_some_iff.mp hread
  refine ⟨t, hrun, hread, records_in_order rfl ?_ hrun⟩
  simp [KfifoAction.Short, RecSize.size]

/-! ## Who touches which byte -/

/-- The places the writer may store to next. -/
def writes (head : Option RecSize) (t : KfifoThreads) : List Nat :=
  match t.writer with
  | .idle => []
  | .storing buf missing => missing.map (t.fifo.storePlace head buf)

/-- The places the reader may load from next. -/
def reads (head : Option RecSize) (t : KfifoThreads) : List Nat :=
  match t.reader with
  | .idle => []
  | .peeking _ none => [(t.fifo.outPos &&& t.fifo.mask).toNat]
  | .peeking _ (some _) => [((t.fifo.outPos + 1) &&& t.fifo.mask).toNat]
  | .copying _ count _ missing =>
    missing.map (t.fifo.copyPlace count (t.fifo.outPos + headSize head))

/-- The writer stores behind the content. -/
theorem exists_of_mem_writes (h : Inv head t) {place : Nat} (hplace : place ∈ t.writes head) :
    ∃ j, t.fifo.content.length ≤ j ∧ j < t.fifo.data.length ∧
      place = (t.fifo.outPos.toNat + j) % t.fifo.data.length := by
  have hwriter := h.writer
  unfold writes at hplace
  split at hplace
  · cases hplace
  · rename_i buf missing heq
    rw [heq] at hwriter
    obtain ⟨k, hk, rfl⟩ := List.mem_map.mp hplace
    have hlt := hwriter.missing_lt k hk
    have hfits := hwriter.fits
    have havail := toNat_kfifoAvail h.bounded
    have hlength := t.fifo.length_data
    refine ⟨t.fifo.content.length + k, Nat.le_add_right .., by omega, ?_⟩
    rw [storePlace_eq hlt (by omega), Nat.add_mod, inPos_mod h.bounded,
      ← Nat.add_mod, Nat.add_assoc]

/-- The reader loads from the content. -/
theorem exists_of_mem_reads (h : Inv head t) {place : Nat} (hplace : place ∈ t.reads head) :
    ∃ j < t.fifo.content.length, place = (t.fifo.outPos.toNat + j) % t.fifo.data.length := by
  have hreader := h.reader
  unfold reads at hplace
  split at hplace
  · cases hplace
  · rename_i dst heq
    rw [heq] at hreader
    obtain rfl := List.mem_singleton.mp hplace
    refine ⟨0, List.length_pos_of_ne_nil hreader.found, ?_⟩
    rw [toNat_and_mask, Nat.add_zero]
  · rename_i dst low heq
    rw [heq] at hreader
    obtain rfl := List.mem_singleton.mp hplace
    obtain ⟨rfl, -⟩ := hreader.low_eq low rfl
    obtain ⟨record, rest, -, hcontent, -⟩ := h.delivered.front hreader.found
    refine ⟨1, ?_, ?_⟩
    · rw [hcontent, RecSize.recordBytes, List.length_append, List.length_append,
        RecSize.length_lengthField]
      have htwo : RecSize.rec2.size.toNat = 2 := rfl
      omega
    · rw [toNat_and_mask, toNat_add_mod]
      rfl
  · rename_i n count dst missing heq
    rw [heq] at hreader
    obtain ⟨i, hi, rfl⟩ := List.mem_map.mp hplace
    have hlt := hreader.missing_lt i hi
    have hcount := hreader.count_le
    have hinside := hreader.inside
    have hlevel := length_content h.bounded
    have hsize : t.fifo.kfifoLen.toNat ≤ t.fifo.data.length :=
      t.fifo.length_data ▸ h.bounded
    refine ⟨(headSize head).toNat + i, by omega, ?_⟩
    rw [copyPlace_eq _ _ hlt (by omega), Nat.add_mod, toNat_add_mod, ← Nat.add_mod, Nat.add_assoc]

/-- **The two threads never meet at a byte.**  At every point of every run the
writer may store only inside the buffer, the reader may load only inside the
buffer, and no place is open to both. -/
theorem no_data_race {fifo : Kfifo} (hempty : fifo.inPos = fifo.outPos)
    {actions : List KfifoAction} (hshort : ∀ a ∈ actions, a.Short head)
    (hrun : runSteps (step head) (start fifo) actions = some t) :
    (∀ place ∈ t.writes head, place < t.fifo.data.length) ∧
      (∀ place ∈ t.reads head, place < t.fifo.data.length) ∧
      List.Disjoint (t.writes head) (t.reads head) := by
  have hinv := inv_of_run hempty hshort hrun
  refine ⟨?_, ?_, ?_⟩
  · intro place hplace
    obtain ⟨j, -, -, rfl⟩ := exists_of_mem_writes hinv hplace
    exact Nat.mod_lt _ t.fifo.length_data_pos
  · intro place hplace
    obtain ⟨j, -, rfl⟩ := exists_of_mem_reads hinv hplace
    exact Nat.mod_lt _ t.fifo.length_data_pos
  · intro place hwrite hread
    obtain ⟨j, hle, hlt, rfl⟩ := exists_of_mem_writes hinv hwrite
    obtain ⟨i, hi, heq⟩ := exists_of_mem_reads hinv hread
    exact add_mod_ne _ hlt (by omega) (by omega) heq

/-- Both threads in the middle of their copies. -/
theorem no_data_race_overlapping :
    ∃ t, runSteps (step none) (start (emptyAt 1 (by decide) 0xffffffff))
        [.inStart [7], .store 0, .inEnd, .inStart [8], .outStart [0]] = some t ∧
      t.writes none = [0] ∧ t.reads none = [1] ∧
      List.Disjoint (t.writes none) (t.reads none) := by
  have hplaces : (runSteps (step none) (start (emptyAt 1 (by decide) 0xffffffff))
      [.inStart [7], .store 0, .inEnd, .inStart [8], .outStart [0]]).map
        (fun t => (t.writes none, t.reads none)) = some ([0], [1]) := by
    decide +kernel
  obtain ⟨t, hrun, hplaces⟩ := Option.map_eq_some_iff.mp hplaces
  obtain ⟨hwrites, hreads⟩ := Prod.mk.inj hplaces
  refine ⟨t, hrun, hwrites, hreads, (no_data_race rfl ?_ hrun).2.2⟩
  simp [KfifoAction.Short]

end KfifoThreads
end Common
end GameServer
