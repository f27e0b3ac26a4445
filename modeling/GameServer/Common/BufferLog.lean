import GameServer.Common.KFifo
import GameServer.Common.LogBlock
import GameServer.Lib.Transition

/-!
# The log channel

`_DoKFiFoPushMsg` and `_DoKFiFoPopMsg` of `bufferlog.cpp`, run by the logic
thread and the log thread on one fifo.  Every access to the fifo is a step of
its own: the writer tests the free space, writes the header and writes the
body; the reader looks at the fill level twice, peeks at the header, skips it
and reads the body.

The reader may see a header without its body, and any other partial state.
`delivers_whole_records` says that it nevertheless pops the accepted records
one after the other, and never finds the data out of order.
-/

namespace GameServer
namespace Common

open Lib

/-- Where the writer is in `_DoKFiFoPushMsg`. -/
inductive WriterPc where
  | idle
  /-- The record fits; `kfifo_in` of the header is next. -/
  | header (record : LogRecord)
  /-- `kfifo_in` of the body is next. -/
  | body (record : LogRecord)

/-- Where the reader is in `_DoKFiFoPopMsg`. -/
inductive ReaderPc where
  | idle
  /-- There is enough for a header; `kfifo_out_peek` is next. -/
  | peek
  /-- The header has been read; the checks are next. -/
  | check (block : BufferLogBlock)
  /-- The body is there too; `kfifo_skip_n` is next. -/
  | skip (block : BufferLogBlock)
  /-- `kfifo_out` of the body is next. -/
  | out (block : BufferLogBlock)

/-- The fifo and its two threads.  As history, the records the writer did not
report as refused, the headers and messages popped by the reader, and how often
it returned -1. -/
structure LogChannel where
  fifo : Kfifo
  writer : WriterPc
  reader : ReaderPc
  accepted : List LogRecord
  popped : List (List UInt8 × List UInt8)
  invalid : Nat

/-- The accesses to the fifo. -/
inductive LogAction where
  /-- The writer calls `kfifo_avail`. -/
  | avail (record : LogRecord)
  /-- The writer calls `kfifo_in` for the header. -/
  | inHeader
  /-- The writer calls `kfifo_in` for the body. -/
  | inBody
  /-- The reader calls `kfifo_len` for the header. -/
  | len
  /-- The reader calls `kfifo_out_peek`. -/
  | peek
  /-- The reader checks the header, and calls `kfifo_reset_out`, or
  `kfifo_len` for the body. -/
  | check
  /-- The reader calls `kfifo_skip_n`. -/
  | skip
  /-- The reader calls `kfifo_out`. -/
  | out

/-- The checks of `_DoKFiFoPopMsg` on the header.  The comparison of an
unsigned length with zero is always false. -/
def BufferLogBlock.isInvalid (block : BufferLogBlock) : Bool :=
  block.ullStartToken ≠ bufferLogTokenStart ||
    block.ullEndToken ≠ bufferLogTokenEnd ||
    decide (block.iMsgLen ≥ bufferLogBlockMaxSize)

/-- `m_iMsgLen` converted to an unsigned integer. -/
def BufferLogBlock.uMsgLen (block : BufferLogBlock) : UInt32 :=
  UInt32.ofNat (block.word 8 4)

/-- `sizeof(ST_BufferLogBlock)` as an unsigned integer. -/
def uSizeofBufferLogBlock : UInt32 := 312

namespace LogChannel

/-- After `INIT_KFIFO` on an array of `2 ^ order` bytes; the log's array has
`BUFFER_LOG_SPACE_SIZE`, which is `2 ^ 28`. -/
def init (order : Nat) (horder : order ≤ 31) (data : List UInt8)
    (hdata : data.length = 2 ^ order) : LogChannel where
  fifo := ⟨0, 0, lowMask order, data, order, horder, rfl, hdata⟩
  writer := .idle
  reader := .idle
  accepted := []
  popped := []
  invalid := 0

/-- One access. -/
def step (s : LogChannel) : LogAction → Option LogChannel
  | .avail record =>
    match s.writer with
    | .idle =>
      if record.block.iMsgLen > 0 then
        if (s.fifo.kfifoAvail.toNat : Int) >
            record.block.iMsgLen + sizeofBufferLogBlock then
          some { s with
            writer := .header record
            accepted := s.accepted ++ [record] }
        else
          -- "kfifo buffer is full!"
          some s
      else
        some s
    | _ => none
  | .inHeader =>
    match s.writer with
    | .header record =>
      some { s with
        fifo := (s.fifo.kfifoIn record.block.bytes
          uSizeofBufferLogBlock).1
        writer := .body record }
    | _ => none
  | .inBody =>
    match s.writer with
    | .body record =>
      some { s with
        fifo := (s.fifo.kfifoIn record.body record.block.uMsgLen).1
        writer := .idle }
    | _ => none
  | .len =>
    match s.reader with
    | .idle =>
      if s.fifo.kfifoLen < uSizeofBufferLogBlock then
        some s
      else
        some { s with reader := .peek }
    | _ => none
  | .peek =>
    match s.reader with
    | .peek =>
      -- a short read would leave the rest of the block as it was
      if h : (s.fifo.kfifoOutPeek uSizeofBufferLogBlock).length =
          sizeofBufferLogBlock then
        some { s with
          reader := .check
            ⟨s.fifo.kfifoOutPeek uSizeofBufferLogBlock, h⟩ }
      else
        none
    | _ => none
  | .check =>
    match s.reader with
    | .check block =>
      if block.isInvalid then
        some { s with
          fifo := s.fifo.kfifoResetOut
          reader := .idle
          invalid := s.invalid + 1 }
      else if s.fifo.kfifoLen < block.uMsgLen + uSizeofBufferLogBlock then
        some { s with reader := .idle }
      else
        some { s with reader := .skip block }
    | _ => none
  | .skip =>
    match s.reader with
    | .skip block =>
      some { s with
        fifo := s.fifo.kfifoSkipN uSizeofBufferLogBlock
        reader := .out block }
    | _ => none
  | .out =>
    match s.reader with
    | .out block =>
      if block.iLogCmd = bufferLogCmdLog then
        -- a negative length would write outside `chTempRecvBuffer`
        if block.iMsgLen < 0 then
          none
        else
          some { s with
            fifo := (s.fifo.kfifoOut block.uMsgLen).2
            reader := .idle
            popped := s.popped ++
              [(block.bytes, (s.fifo.kfifoOut block.uMsgLen).1)] }
      else
        some { s with
          reader := .idle
          popped := s.popped ++ [(block.bytes, [])] }
    | _ => none

/-! ## The invariant -/

/-- What the writer still has to write of a record it has accepted. -/
def unwritten : WriterPc → List UInt8
  | .idle => []
  | .header record => record.bytes
  | .body record => record.body

/-- How many bytes of the next record the reader has taken. -/
def consumed : ReaderPc → Nat
  | .out _ => sizeofBufferLogBlock
  | _ => 0

/-- The records that have not been popped. -/
def pending (s : LogChannel) : List LogRecord :=
  s.accepted.drop s.popped.length

/-- The header and the message of a record. -/
def view (record : LogRecord) : List UInt8 × List UInt8 :=
  (record.block.bytes, record.body)

/-- What the reader knows at its position. -/
def ReaderKnows (s : LogChannel) : ReaderPc → Prop
  | .idle => True
  | .peek => sizeofBufferLogBlock ≤ s.fifo.content.length
  | .check block => ∃ record rest, s.pending = record :: rest ∧
      block = record.block ∧ sizeofBufferLogBlock ≤ s.fifo.content.length
  | .skip block => ∃ record rest, s.pending = record :: rest ∧
      block = record.block ∧ record.bytes.length ≤ s.fifo.content.length
  | .out block => ∃ record rest, s.pending = record :: rest ∧
      block = record.block ∧ record.body.length ≤ s.fifo.content.length

/-- What has been popped is a front part of what has been accepted; the fifo
holds the bytes of the rest, up to what the reader has taken and the writer has
not written yet; and there is room for the latter. -/
structure Inv (s : LogChannel) : Prop where
  bounded : s.fifo.Bounded
  room : (unwritten s.writer).length ≤ s.fifo.kfifoAvail.toNat
  popped : s.popped = (s.accepted.take s.popped.length).map view
  content : s.fifo.content ++ unwritten s.writer =
    (s.pending.flatMap LogRecord.bytes).drop (consumed s.reader)
  reader : s.ReaderKnows s.reader
  invalid : s.invalid = 0

theorem toNat_uSizeofBufferLogBlock : uSizeofBufferLogBlock.toNat = sizeofBufferLogBlock := rfl

/-- `m_iMsgLen` has 32 bits, and the conversion adds `2^32` to a negative
value. -/
theorem iMsgLen_toNat_uMsgLen (block : BufferLogBlock) :
    (0 ≤ block.iMsgLen ∧ (block.uMsgLen.toNat : Int) = block.iMsgLen ∨ block.iMsgLen < 0 ∧
        (block.uMsgLen.toNat : Int) = block.iMsgLen + 2 ^ 32) ∧
      -2 ^ 31 ≤ block.iMsgLen := by
  have hword : block.word 8 4 < 2 ^ 32 := by
    have hlt := natOfBytes_lt (field block.bytes 8 4).reverse
    rw [List.length_reverse, length_field (by
      rw [block.length_bytes]; decide)] at hlt
    exact hlt
  rw [BufferLogBlock.uMsgLen, UInt32.toNat_ofNat', Nat.mod_eq_of_lt hword,
    BufferLogBlock.iMsgLen, toSigned]
  split_ifs <;> omega

/-- The length of a record as `kfifo_in` and `kfifo_out` see it. -/
theorem toNat_uMsgLen (record : LogRecord) : record.block.uMsgLen.toNat = record.body.length := by
  have hlen := record.msgLen
  obtain ⟨⟨-, hsame⟩ | ⟨hneg, -⟩, -⟩ := iMsgLen_toNat_uMsgLen record.block
  · omega
  · omega

theorem isInvalid_block (record : LogRecord) : record.block.isInvalid = false := by
  have hlt := record.body_lt
  simp only [BufferLogBlock.isInvalid, record.startToken, record.endToken, record.msgLen]
  simp
  omega

theorem inv_init {order : Nat} (horder : order ≤ 31) {data : List UInt8}
    (hdata : data.length = 2 ^ order) : (init order horder data hdata).Inv where
  bounded := by
    show (0 - 0 : UInt32).toNat ≤ _
    simp
  room := Nat.zero_le _
  popped := rfl
  content := by
    show ringRead data 0 (0 - 0 : UInt32).toNat ++ [] = []
    simp [ringRead]
  reader := trivial
  invalid := rfl

variable {s : LogChannel} {block : BufferLogBlock}

theorem Inv.popped_le (h : s.Inv) : s.popped.length ≤ s.accepted.length := by
  have hlength := congrArg List.length h.popped
  rw [List.length_map, List.length_take] at hlength
  omega

/-- A header's worth of bytes is there, so it is the header of a record. -/
theorem Inv.exists_pending (h : s.Inv) (hreader : consumed s.reader = 0)
    (henough : sizeofBufferLogBlock ≤ s.fifo.content.length) :
    ∃ record rest, s.pending = record :: rest ∧ s.fifo.content ++ unwritten s.writer =
        record.block.bytes ++ (record.body ++ rest.flatMap LogRecord.bytes) := by
  have hcontent := h.content
  rw [hreader, List.drop_zero] at hcontent
  cases hpending : s.pending with
  | nil =>
    rw [hpending, List.flatMap_nil, List.append_eq_nil_iff] at hcontent
    rw [hcontent.1] at henough
    cases henough
  | cons record rest =>
    refine ⟨record, rest, rfl, ?_⟩
    rw [hcontent, hpending, List.flatMap_cons, LogRecord.bytes, List.append_assoc]

/-- The writer only adds to what the reader knows. -/
theorem readerKnows_of_extends {s' : LogChannel} {more : List LogRecord}
    (hpending : s'.pending = s.pending ++ more)
    (hlength : s.fifo.content.length ≤ s'.fifo.content.length)
    {pc : ReaderPc} (h : s.ReaderKnows pc) : s'.ReaderKnows pc := by
  have hmore : ∀ record rest, s.pending = record :: rest →
      s'.pending = record :: (rest ++ more) := by
    intro record rest heq
    rw [hpending, heq, List.cons_append]
  cases pc with
  | idle => trivial
  | peek => exact Nat.le_trans h hlength
  | check block =>
    obtain ⟨record, rest, heq, hblock, hle⟩ := h
    exact ⟨record, _, hmore record rest heq, hblock, hle.trans hlength⟩
  | skip block =>
    obtain ⟨record, rest, heq, hblock, hle⟩ := h
    exact ⟨record, _, hmore record rest heq, hblock, hle.trans hlength⟩
  | out block =>
    obtain ⟨record, rest, heq, hblock, hle⟩ := h
    exact ⟨record, _, hmore record rest heq, hblock, hle.trans hlength⟩

/-- The reader has not taken more than there is. -/
theorem Inv.consumed_le (h : s.Inv) :
    consumed s.reader ≤ (s.pending.flatMap LogRecord.bytes).length := by
  have hreader := h.reader
  cases hpc : s.reader with
  | out block =>
    rw [hpc] at hreader
    obtain ⟨record, rest, heq, -, -⟩ := hreader
    rw [heq, List.flatMap_cons, List.length_append, record.length_bytes]
    show sizeofBufferLogBlock ≤ _
    omega
  | _ => exact Nat.zero_le _

/-- The writer accepts a record. -/
theorem Inv.accept (h : s.Inv) (hwriter : s.writer = .idle)
    {record : LogRecord}
    (hroom : (s.fifo.kfifoAvail.toNat : Int) > record.block.iMsgLen + sizeofBufferLogBlock) :
    { s with
      writer := .header record
      accepted := s.accepted ++ [record] }.Inv := by
  have hpending : { s with
      writer := .header record
      accepted := s.accepted ++ [record] }.pending =
        s.pending ++ [record] := List.drop_append_of_le_length h.popped_le
  rw [record.msgLen] at hroom
  refine ⟨h.bounded, ?_, ?_, ?_,
    readerKnows_of_extends hpending (Nat.le_refl _) h.reader, h.invalid⟩
  · show record.bytes.length ≤ s.fifo.kfifoAvail.toNat
    rw [record.length_bytes]
    omega
  · show s.popped = ((s.accepted ++ [record]).take _).map view
    rw [List.take_append_of_le_length h.popped_le]
    exact h.popped
  · rw [hpending, List.flatMap_append]
    show s.fifo.content ++ record.bytes = _
    have hcontent := h.content
    rw [hwriter] at hcontent
    simp only [unwritten, List.append_nil] at hcontent
    rw [List.drop_append_of_le_length h.consumed_le, ← hcontent]
    simp

/-- The writer writes a part of its record. -/
theorem Inv.write (h : s.Inv) {block : List UInt8} {len : UInt32}
    (hlen : block.length = len.toNat) {writer : WriterPc}
    (hsplit : unwritten s.writer = block ++ unwritten writer) :
    { s with fifo := (s.fifo.kfifoIn block len).1, writer := writer }.Inv := by
  have hroom := h.room
  rw [hsplit, List.length_append] at hroom
  obtain ⟨hbounded, hcontent, horder⟩ :=
    Kfifo.kfifoIn_spec h.bounded hlen (by omega)
  refine ⟨hbounded, ?_, h.popped, ?_, ?_, h.invalid⟩
  · have havail := Kfifo.toNat_kfifoAvail h.bounded
    have havail' := Kfifo.toNat_kfifoAvail hbounded
    rw [hcontent, horder, List.length_append] at havail'
    show (unwritten writer).length ≤ (s.fifo.kfifoIn block len).1.kfifoAvail.toNat
    omega
  · show (s.fifo.kfifoIn block len).1.content ++ unwritten writer = _
    rw [hcontent, List.append_assoc, ← hsplit]
    exact h.content
  · have hpending : { s with
        fifo := (s.fifo.kfifoIn block len).1
        writer := writer }.pending = s.pending ++ [] :=
      (List.append_nil _).symm
    refine readerKnows_of_extends hpending ?_ h.reader
    show s.fifo.content.length ≤ (s.fifo.kfifoIn block len).1.content.length
    rw [hcontent, List.length_append]
    exact Nat.le_add_right ..

/-- The reader moves on without touching the fifo. -/
theorem Inv.move (h : s.Inv) {reader : ReaderPc} (hconsumed : consumed reader = consumed s.reader)
    (hknows : s.ReaderKnows reader) : { s with reader := reader }.Inv := by
  refine ⟨h.bounded, h.room, h.popped, ?_, ?_, h.invalid⟩
  · rw [hconsumed]
    exact h.content
  · cases reader <;> exact hknows

/-- Skipping makes room. -/
theorem room_skip (h : s.fifo.Bounded) {n : UInt32} (hn : n.toNat ≤ s.fifo.content.length) :
    s.fifo.kfifoAvail.toNat ≤ (s.fifo.kfifoSkipN n).kfifoAvail.toNat := by
  obtain ⟨hbounded, hcontent, horder⟩ := Kfifo.kfifoSkipN_spec h hn
  rw [Kfifo.toNat_kfifoAvail h, Kfifo.toNat_kfifoAvail hbounded, hcontent, horder, List.length_drop]
  omega

/-- The reader peeks at a header. -/
theorem Inv.peek (h : s.Inv) (hreader : s.reader = .peek) :
    ∃ record rest, s.pending = record :: rest ∧
      s.fifo.kfifoOutPeek uSizeofBufferLogBlock = record.block.bytes := by
  have henough := h.reader
  rw [hreader] at henough
  obtain ⟨record, rest, hpending, hcontent⟩ :=
    h.exists_pending (by rw [hreader]; rfl) henough
  refine ⟨record, rest, hpending, ?_⟩
  rw [Kfifo.kfifoOutPeek_eq h.bounded, toNat_uSizeofBufferLogBlock]
  calc s.fifo.content.take sizeofBufferLogBlock
      = (s.fifo.content ++ unwritten s.writer).take sizeofBufferLogBlock :=
        (List.take_append_of_le_length henough).symm
    _ = record.block.bytes := by
        rw [hcontent, List.take_left' record.block.length_bytes]

/-- The reader skips the header it has read. -/
theorem Inv.skip (h : s.Inv) (hreader : s.reader = .skip block) :
    { s with
      fifo := s.fifo.kfifoSkipN uSizeofBufferLogBlock
      reader := .out block }.Inv := by
  have hknows := h.reader
  rw [hreader] at hknows
  obtain ⟨record, rest, hpending, hblock, hle⟩ := hknows
  rw [record.length_bytes] at hle
  have hn : uSizeofBufferLogBlock.toNat ≤ s.fifo.content.length := by
    rw [toNat_uSizeofBufferLogBlock]
    omega
  obtain ⟨hbounded, hcontent, -⟩ := Kfifo.kfifoSkipN_spec h.bounded hn
  rw [toNat_uSizeofBufferLogBlock] at hcontent
  refine ⟨hbounded, h.room.trans (room_skip h.bounded hn), h.popped, ?_, ?_, h.invalid⟩
  · show (s.fifo.kfifoSkipN uSizeofBufferLogBlock).content ++ _ =
      (s.pending.flatMap LogRecord.bytes).drop sizeofBufferLogBlock
    have hold := h.content
    rw [hreader] at hold
    simp only [consumed, List.drop_zero] at hold
    rw [hcontent, ← hold, List.drop_append_of_le_length (by omega)]
  · refine ⟨record, rest, hpending, hblock, ?_⟩
    show record.body.length ≤ (s.fifo.kfifoSkipN uSizeofBufferLogBlock).content.length
    rw [hcontent, List.length_drop]
    omega

/-- The reader reads the message. -/
theorem Inv.out (h : s.Inv) (hreader : s.reader = .out block) :
    { s with
      fifo := (s.fifo.kfifoOut block.uMsgLen).2
      reader := .idle
      popped := s.popped ++ [(block.bytes, (s.fifo.kfifoOut block.uMsgLen).1)] }.Inv := by
  have hknows := h.reader
  rw [hreader] at hknows
  obtain ⟨record, rest, hpending, rfl, hle⟩ := hknows
  have hlen := toNat_uMsgLen record
  have hn : record.block.uMsgLen.toNat ≤ s.fifo.content.length := by
    rw [hlen]
    exact hle
  obtain ⟨hread, hskip⟩ := Kfifo.kfifoOut_spec h.bounded hn
  obtain ⟨hbounded, hcontent, -⟩ := Kfifo.kfifoSkipN_spec h.bounded hn
  rw [hlen] at hread hcontent
  -- the fifo starts with the message, because the header has been skipped
  have hstart : s.fifo.content ++ unwritten s.writer =
      record.body ++ rest.flatMap LogRecord.bytes := by
    rw [h.content, hreader, hpending, List.flatMap_cons, LogRecord.bytes, List.append_assoc]
    exact List.drop_left' record.block.length_bytes
  have hbody : s.fifo.content.take record.body.length = record.body := by
    calc s.fifo.content.take record.body.length
        = (s.fifo.content ++ unwritten s.writer).take record.body.length :=
          (List.take_append_of_le_length hle).symm
      _ = record.body := by rw [hstart, List.take_left' rfl]
  have hget : s.accepted[s.popped.length]? = some record := by
    have hhead := congrArg List.head? hpending
    rw [pending, List.head?_drop] at hhead
    exact hhead
  have hlt := (List.getElem?_eq_some_iff.mp hget).1
  refine ⟨hskip ▸ hbounded, ?_, ?_, ?_, trivial, h.invalid⟩
  · show _ ≤ ((s.fifo.kfifoOut record.block.uMsgLen).2).kfifoAvail.toNat
    rw [hskip]
    exact h.room.trans (room_skip h.bounded hn)
  · show s.popped ++ [_] = (s.accepted.take (s.popped ++ [_]).length).map view
    rw [List.length_append, List.length_singleton, List.take_add_one, hget,
      List.map_append, ← h.popped, hread, hbody]
    rfl
  · show (s.fifo.kfifoOut record.block.uMsgLen).2.content ++ _ =
      ((s.accepted.drop (s.popped ++ [_]).length).flatMap LogRecord.bytes).drop 0
    have hrest : s.accepted.drop (s.popped.length + 1) = rest := by
      have htail := congrArg List.tail hpending
      rw [pending, List.tail_drop] at htail
      exact htail
    rw [hskip, hcontent, List.length_append, List.length_singleton, hrest,
      List.drop_zero, ← List.drop_append_of_le_length hle, hstart,
      List.drop_left' rfl]

/-- The reader finds the header in order, and waits for the body or goes on. -/
theorem Inv.check (h : s.Inv) (hreader : s.reader = .check block) :
    block.isInvalid = false ∧
      (¬ s.fifo.kfifoLen < block.uMsgLen + uSizeofBufferLogBlock →
        s.ReaderKnows (.skip block)) := by
  have hknows := h.reader
  rw [hreader] at hknows
  obtain ⟨record, rest, hpending, rfl, -⟩ := hknows
  refine ⟨isInvalid_block record, fun hlen => ?_⟩
  refine ⟨record, rest, hpending, rfl, ?_⟩
  have hsum : (record.block.uMsgLen + uSizeofBufferLogBlock).toNat =
      record.bytes.length := by
    have hlt := record.body_lt
    have hmax : bufferLogBlockMaxSize = 1048576 := rfl
    have hsize : sizeofBufferLogBlock = 312 := rfl
    rw [UInt32.toNat_add, toNat_uMsgLen, toNat_uSizeofBufferLogBlock, record.length_bytes]
    omega
  rw [UInt32.lt_iff_toNat_lt, hsum] at hlen
  rw [Kfifo.length_content h.bounded]
  omega

/-- Every access keeps the invariant. -/
theorem inv_step (s : LogChannel) (a : LogAction) (s' : LogChannel)
    (h : s.Inv) (hstep : s.step a = some s') : s'.Inv := by
  cases a with
  | avail record =>
    simp only [step] at hstep
    split at hstep
    · next hwriter =>
      split_ifs at hstep with hpositive hroom
      · cases hstep
        exact h.accept hwriter hroom
      · cases hstep
        exact h
      · cases hstep
        exact h
    · cases hstep
  | inHeader =>
    simp only [step] at hstep
    split at hstep
    · next record hwriter =>
      cases hstep
      refine h.write record.block.length_bytes ?_
      rw [hwriter]
      rfl
    · cases hstep
  | inBody =>
    simp only [step] at hstep
    split at hstep
    · next record hwriter =>
      cases hstep
      refine h.write (toNat_uMsgLen record).symm ?_
      rw [hwriter]
      exact (List.append_nil _).symm
    · cases hstep
  | len =>
    simp only [step] at hstep
    split at hstep
    · next hreader =>
      split_ifs at hstep with hshort
      · cases hstep
        exact h
      · cases hstep
        refine h.move (by rw [hreader]; rfl) ?_
        rw [UInt32.lt_iff_toNat_lt, toNat_uSizeofBufferLogBlock,
          ← Kfifo.length_content h.bounded] at hshort
        exact Nat.not_lt.mp hshort
    · cases hstep
  | peek =>
    simp only [step] at hstep
    split at hstep
    · next hreader =>
      split_ifs at hstep with hlength
      cases hstep
      obtain ⟨record, rest, hpending, hpeek⟩ := h.peek hreader
      have henough := h.reader
      rw [hreader] at henough
      exact h.move (by rw [hreader]; rfl)
        ⟨record, rest, hpending, BufferLogBlock.ext hpeek, henough⟩
    · cases hstep
  | check =>
    simp only [step] at hstep
    split at hstep
    · next block hreader =>
      obtain ⟨hvalid, hskip⟩ := h.check hreader
      rw [hvalid] at hstep
      simp only [Bool.false_eq_true, if_false] at hstep
      split_ifs at hstep with hshort
      · cases hstep
        exact h.move (by rw [hreader]; rfl) trivial
      · cases hstep
        exact h.move (by rw [hreader]; rfl) (hskip hshort)
    · cases hstep
  | skip =>
    simp only [step] at hstep
    split at hstep
    · next block hreader =>
      cases hstep
      exact h.skip hreader
    · cases hstep
  | out =>
    simp only [step] at hstep
    split at hstep
    · next block hreader =>
      split_ifs at hstep with hcmd hnegative
      · cases hstep
        exact h.out hreader
      · -- a record that is no log message is not accepted
        have hknows := h.reader
        rw [hreader] at hknows
        obtain ⟨record, rest, -, rfl, -⟩ := hknows
        exact (hcmd record.cmd).elim
    · cases hstep

/-- The reader is never stopped by a short read or by a length it cannot
store. -/
theorem Inv.exists_read (h : s.Inv) :
    (s.reader = .peek → ∃ s', s.step .peek = some s') ∧
      ∀ block, s.reader = .out block → ∃ s', s.step .out = some s' := by
  constructor
  · intro hreader
    obtain ⟨record, rest, -, hpeek⟩ := h.peek hreader
    simp only [step, hreader]
    rw [dif_pos (by rw [hpeek]; exact record.block.length_bytes)]
    exact ⟨_, rfl⟩
  · intro block hreader
    have hknows := h.reader
    rw [hreader] at hknows
    obtain ⟨record, rest, -, rfl, -⟩ := hknows
    simp only [step, hreader, record.cmd, record.msgLen, if_true]
    rw [if_neg (by omega)]
    exact ⟨_, rfl⟩

/-- **The log channel delivers whole records in order.**  For every interleaving
of the two threads' accesses to a fifo after `INIT_KFIFO`, however long and
however often the counters wrap: the headers and messages popped are a front
part of the accepted records'; the bytes in the fifo, with those the writer has
still to write, are the bytes of the remaining records, without the header the
reader has just skipped; a record that is not accepted leaves the fifo as it
is; and the reader has never returned -1, nor is it ever stopped. -/
theorem delivers_whole_records (order : Nat) (horder : order ≤ 31)
    (data : List UInt8) (hdata : data.length = 2 ^ order)
    (actions : List LogAction) (s : LogChannel)
    (hrun : runSteps step (init order horder data hdata) actions = some s) :
    s.popped <+: s.accepted.map view ∧ s.fifo.content ++ unwritten s.writer =
        ((s.accepted.drop s.popped.length).flatMap LogRecord.bytes).drop (consumed s.reader) ∧
      (∀ record s', s.step (.avail record) = some s' →
        s'.accepted = s.accepted → s'.fifo = s.fifo) ∧
      s.invalid = 0 ∧
      (s.reader = .peek → ∃ s', s.step .peek = some s') ∧
      ∀ block, s.reader = .out block → ∃ s', s.step .out = some s' := by
  have hinv : s.Inv :=
    runSteps_invariant inv_step (inv_init horder hdata) hrun
  refine ⟨?_, hinv.content, ?_, hinv.invalid, hinv.exists_read⟩
  · rw [hinv.popped]
    exact (List.take_prefix _ _).map view
  · intro record s' hstep _
    simp only [step] at hstep
    split at hstep
    · split_ifs at hstep
      · cases hstep
        rfl
      · cases hstep
        rfl
      · cases hstep
        rfl
    · cases hstep

/-- The text "hi", logged with a static block that is still zero. -/
def hiRecord : LogRecord :=
  logRecord ⟨List.replicate sizeofBufferLogBlock 0, List.length_replicate⟩
    ⟨7, [109], [102], 0, 0⟩ 2 [104, 105] (List.cons_ne_nil _ _)

/-- A ring of 512 zero bytes. -/
def smallChannel : LogChannel :=
  init 9 (by decide) (List.replicate 512 0) List.length_replicate

/-- The reader comes between the header and the body, waits, and pops the
record afterwards. -/
theorem delivers_whole_records_hi :
    ∃ s, runSteps step smallChannel
        [.avail hiRecord, .inHeader, .len, .peek, .check, .inBody,
          .len, .peek, .check, .skip, .out] = some s ∧
      s.popped = [view hiRecord] ∧ s.invalid = 0 := by
  have hview : ((runSteps step smallChannel
      [.avail hiRecord, .inHeader, .len, .peek, .check, .inBody,
        .len, .peek, .check, .skip, .out]).map fun s => s.popped) =
      some [view hiRecord] := by
    decide +kernel
  obtain ⟨s, hrun, hpopped⟩ := Option.map_eq_some_iff.mp hview
  obtain ⟨-, -, -, hinvalid, -⟩ := delivers_whole_records 9 (by decide)
    (List.replicate 512 0) List.length_replicate _ s hrun
  exact ⟨s, hrun, hpopped, hinvalid⟩

end LogChannel

end Common
end GameServer
