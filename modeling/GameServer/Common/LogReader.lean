import GameServer.Common.BufferLog

/-!
# The log reader on any ring

`_DoKFiFoPopMsg` as one call, on a fifo whose bytes may be anything.  It checks
the header before it believes it.  The test for a negative length compares an
unsigned number with zero and never fires, and the next one compares signed
numbers, so a negative length passes both.  The sum with the size of the header
is reduced modulo `2^32`: below `-312` it exceeds every ring and the reader
waits, from `-312` to `-1` it is small.  Then the reader takes all that is in
the ring and writes the terminator in front of its buffer.  Behind an unknown
command it takes the header only, and returns the length of a message that it
leaves in the ring.

`survives_iff` says for which rings the call ends as it should.
-/

namespace GameServer
namespace Common

open Lib

/-! ## The call -/

/-- `chTempRecvBuffer`. -/
@[ext] structure RecvBuffer where
  bytes : List UInt8
  length_bytes : bytes.length = bufferLogBlockMaxSize

namespace RecvBuffer

/-- A store at an index, which has to be inside the buffer. -/
def store (buffer : RecvBuffer) (index : Int) (bytes : List UInt8) :
    Option RecvBuffer :=
  if 0 ≤ index ∧ index + bytes.length ≤ bufferLogBlockMaxSize then
    some ⟨memcpy buffer.bytes index.toNat bytes,
      (length_memcpy ..).trans buffer.length_bytes⟩
  else
    none

end RecvBuffer

/-- What a call leaves: the value it returns, the fifo, and its two reference
parameters. -/
structure PopResult where
  iRet : Int
  fifo : Kfifo
  block : BufferLogBlock
  recvBuffer : RecvBuffer

/-- The end of `_DoKFiFoPopMsg`, when header and body are in the fifo. -/
def popRecord (fifo : Kfifo) (block : BufferLogBlock)
    (recvBuffer : RecvBuffer) : Option PopResult :=
  let fifo := fifo.kfifoSkipN uSizeofBufferLogBlock
  if block.iLogCmd = bufferLogCmdLog then
    let out := fifo.kfifoOut block.uMsgLen
    (recvBuffer.store 0 out.1).bind fun recvBuffer =>
      (recvBuffer.store block.iMsgLen [0]).map fun recvBuffer =>
        ⟨block.iMsgLen, out.2, block, recvBuffer⟩
  else
    some ⟨block.iMsgLen, fifo, block, recvBuffer⟩

/-- `_DoKFiFoPopMsg`; `none` is a store outside the buffer. -/
def doKFiFoPopMsg (fifo : Kfifo) (block : BufferLogBlock)
    (recvBuffer : RecvBuffer) : Option PopResult :=
  if fifo.kfifoLen < uSizeofBufferLogBlock then
    some ⟨0, fifo, block, recvBuffer⟩
  else
    -- a short read would leave the rest of the block as it was
    if h : (fifo.kfifoOutPeek uSizeofBufferLogBlock).length =
        sizeofBufferLogBlock then
      let block : BufferLogBlock :=
        ⟨fifo.kfifoOutPeek uSizeofBufferLogBlock, h⟩
      if block.isInvalid then
        some ⟨-1, fifo.kfifoResetOut, block, recvBuffer⟩
      else if fifo.kfifoLen < block.uMsgLen + uSizeofBufferLogBlock then
        some ⟨0, fifo, block, recvBuffer⟩
      else
        popRecord fifo block recvBuffer
    else
      none

/-- The ways in which a call should end: there is nothing to read yet; the ring
is given up; or a message has been taken, together with its header. -/
inductive Outcome (fifo : Kfifo) (recvBuffer : RecvBuffer)
    (result : PopResult) : Prop
  | nothing (hret : result.iRet = 0) (hfifo : result.fifo = fifo)
  | emptied (hret : result.iRet = -1) (hfifo : result.fifo.kfifoLen = 0)
  | popped (copied : List UInt8)
      (hfew : copied.length < bufferLogBlockMaxSize)
      (hfront : copied <+: fifo.content.drop sizeofBufferLogBlock)
      (hret : result.iRet = copied.length)
      (hbuffer : result.recvBuffer.bytes =
        copied ++ 0 :: recvBuffer.bytes.drop (copied.length + 1))
      (hfifo : result.fifo = fifo.kfifoSkipN
        (UInt32.ofNat (sizeofBufferLogBlock + copied.length)))

/-- A ring on which the call ends as it should, whatever its parameters hold
before. -/
def Survives (fifo : Kfifo) : Prop :=
  ∀ block recvBuffer, ∃ result,
    doKFiFoPopMsg fifo block recvBuffer = some result ∧
      Outcome fifo recvBuffer result

/-! ## What the call does -/

namespace RecvBuffer

/-- A message and its terminator. -/
theorem store_store (buffer : RecvBuffer) (copied : List UInt8)
    (hfew : copied.length < bufferLogBlockMaxSize) :
    ∃ first last, buffer.store 0 copied = some first ∧ first.store copied.length [0] = some last ∧
      last.bytes = copied ++ 0 :: buffer.bytes.drop (copied.length + 1) := by
  have hlength := buffer.length_bytes
  have hfirst : memcpy buffer.bytes 0 copied = copied ++ buffer.bytes.drop copied.length := by
    rw [memcpy_eq (by omega), List.take_zero, List.nil_append, Nat.zero_add]
  have hroom : (copied.length : Int) + ([0] : List UInt8).length ≤
      bufferLogBlockMaxSize := by
    rw [List.length_singleton]
    omega
  refine ⟨_, _, if_pos ⟨Int.le_refl 0, by omega⟩, if_pos ⟨by omega, hroom⟩, ?_⟩
  show memcpy (memcpy buffer.bytes 0 copied) copied.length [0] = _
  rw [memcpy_eq (by rw [length_memcpy, List.length_singleton]; omega), hfirst,
    List.take_left' rfl, List.drop_append,
    List.drop_eq_nil_of_le (Nat.le_add_right _ _), List.nil_append,
    List.length_singleton, Nat.add_sub_cancel_left, List.drop_drop,
    List.append_assoc]
  rfl

/-- In front of the buffer nothing can be stored. -/
theorem store_of_neg (buffer : RecvBuffer) {index : Int} (hneg : index < 0)
    (bytes : List UInt8) : buffer.store index bytes = none :=
  if_neg fun h => absurd h.1 (Int.not_le.mpr hneg)

end RecvBuffer

/-- The header that `_DoKFiFoPopMsg` believes. -/
theorem isInvalid_eq_false_iff {block : BufferLogBlock} :
    block.isInvalid = false ↔ block.ullStartToken = bufferLogTokenStart ∧
      block.ullEndToken = bufferLogTokenEnd ∧
      block.iMsgLen < bufferLogBlockMaxSize := by
  simp [BufferLogBlock.isInvalid, and_assoc]

section Pop

variable {fifo : Kfifo} {header : BufferLogBlock} (block : BufferLogBlock)
  (recvBuffer : RecvBuffer)

/-- A header is at the front of the fifo. -/
theorem sizeof_le_of_header (hheader : header.bytes = fifo.content.take sizeofBufferLogBlock) :
    sizeofBufferLogBlock ≤ fifo.content.length := by
  have hlength := congrArg List.length hheader
  rw [header.length_bytes, List.length_take] at hlength
  omega

/-- The first test: less than a header. -/
theorem kfifoLen_lt_iff (h : fifo.Bounded) :
    fifo.kfifoLen < uSizeofBufferLogBlock ↔
      fifo.content.length < sizeofBufferLogBlock := by
  rw [UInt32.lt_iff_toNat_lt, ← Kfifo.length_content h]
  rfl

/-- The last test, with its sum modulo `2^32`. -/
theorem kfifoLen_lt_body_iff (h : fifo.Bounded) (hvalid : header.isInvalid = false) :
    fifo.kfifoLen < header.uMsgLen + uSizeofBufferLogBlock ↔
      header.iMsgLen < -sizeofBufferLogBlock ∨
        (fifo.content.length : Int) < header.iMsgLen + sizeofBufferLogBlock := by
  have hmax := (isInvalid_eq_false_iff.mp hvalid).2.2
  have hring : fifo.content.length ≤ 2 ^ 31 := by
    rw [Kfifo.length_content h]
    exact Nat.le_trans h fifo.two_pow_order_le
  have hblock : bufferLogBlockMaxSize = 1048576 := rfl
  have hsize : sizeofBufferLogBlock = 312 := rfl
  rw [UInt32.lt_iff_toNat_lt, ← Kfifo.length_content h, UInt32.toNat_add]
  show fifo.content.length < (header.uMsgLen.toNat + 312) % 2 ^ 32 ↔ _
  obtain ⟨⟨hpos, hlen⟩ | ⟨hneg, hlen⟩, hlow⟩ :=
    LogChannel.iMsgLen_toNat_uMsgLen header
  · omega
  · omega

/-- Less than a header: there is nothing to read. -/
theorem doKFiFoPopMsg_of_short (h : fifo.Bounded)
    (hshort : fifo.content.length < sizeofBufferLogBlock) :
    doKFiFoPopMsg fifo block recvBuffer = some ⟨0, fifo, block, recvBuffer⟩ :=
  if_pos ((kfifoLen_lt_iff h).mpr hshort)

/-- With a header at the front, the call depends on what it says. -/
theorem doKFiFoPopMsg_of_header (h : fifo.Bounded)
    (hheader : header.bytes = fifo.content.take sizeofBufferLogBlock) :
    doKFiFoPopMsg fifo block recvBuffer =
      if header.isInvalid then
        some ⟨-1, fifo.kfifoResetOut, header, recvBuffer⟩
      else if header.iMsgLen < -sizeofBufferLogBlock ∨ (fifo.content.length : Int) <
            header.iMsgLen + sizeofBufferLogBlock then
        some ⟨0, fifo, header, recvBuffer⟩
      else
        popRecord fifo header recvBuffer := by
  have hlong := sizeof_le_of_header hheader
  have hpeek : fifo.kfifoOutPeek uSizeofBufferLogBlock = header.bytes :=
    (Kfifo.kfifoOutPeek_eq h uSizeofBufferLogBlock).trans hheader.symm
  have hlength : (fifo.kfifoOutPeek uSizeofBufferLogBlock).length =
      sizeofBufferLogBlock := by
    rw [hpeek, header.length_bytes]
  have hread : (⟨fifo.kfifoOutPeek uSizeofBufferLogBlock, hlength⟩ :
      BufferLogBlock) = header := BufferLogBlock.ext hpeek
  rw [doKFiFoPopMsg, if_neg (by rw [kfifoLen_lt_iff h]; omega), dif_pos hlength, hread]
  dsimp only
  cases hvalid : header.isInvalid with
  | true => rfl
  | false =>
    simp only [kfifoLen_lt_body_iff h hvalid]

/-- Skipping the header and reading the body. -/
theorem kfifoOut_kfifoSkipN (h : fifo.Bounded) (len : UInt32)
    (hlong : sizeofBufferLogBlock + len.toNat ≤ fifo.content.length) :
    (fifo.kfifoSkipN uSizeofBufferLogBlock).kfifoOut len =
      ((fifo.content.drop sizeofBufferLogBlock).take len.toNat, fifo.kfifoSkipN
          (UInt32.ofNat (sizeofBufferLogBlock + len.toNat))) := by
  have hskip : uSizeofBufferLogBlock.toNat ≤ fifo.content.length :=
    Nat.le_trans (Nat.le_add_right _ _) hlong
  obtain ⟨hbounded, hcontent, -⟩ := Kfifo.kfifoSkipN_spec h hskip
  have hbody : len.toNat ≤ (fifo.kfifoSkipN uSizeofBufferLogBlock).content.length := by
    rw [hcontent, List.length_drop]
    exact Nat.le_sub_of_add_le' hlong
  obtain ⟨hcopied, hrest⟩ := Kfifo.kfifoOut_spec hbounded hbody
  refine Prod.ext ?_ ?_
  · rw [hcopied, hcontent]
    rfl
  · rw [hrest, Kfifo.kfifoSkipN_kfifoSkipN, UInt32.ofNat_add, UInt32.ofNat_toNat]
    rfl

/-- A whole message is taken. -/
theorem popRecord_of_log (h : fifo.Bounded) (hvalid : header.isInvalid = false)
    (hcmd : header.iLogCmd = bufferLogCmdLog) (hpos : 0 ≤ header.iMsgLen)
    (hlong : header.iMsgLen + sizeofBufferLogBlock ≤ fifo.content.length) :
    ∃ result, popRecord fifo header recvBuffer = some result ∧ Outcome fifo recvBuffer result := by
  have hmax := (isInvalid_eq_false_iff.mp hvalid).2.2
  have hlen : header.iMsgLen = header.uMsgLen.toNat := by
    obtain ⟨⟨-, hsame⟩ | ⟨hneg, -⟩, -⟩ :=
      LogChannel.iMsgLen_toNat_uMsgLen header
    · exact hsame.symm
    · omega
  have hout := kfifoOut_kfifoSkipN h header.uMsgLen (by omega)
  generalize hcopied : (fifo.content.drop sizeofBufferLogBlock).take
    header.uMsgLen.toNat = copied at hout
  have hcount : copied.length = header.uMsgLen.toNat := by
    rw [← hcopied, List.length_take, List.length_drop]
    omega
  obtain ⟨first, last, hfirst, hlast, hbytes⟩ :=
    recvBuffer.store_store copied (by omega)
  rw [hcount, ← hlen] at hlast
  refine ⟨⟨header.iMsgLen, fifo.kfifoSkipN (UInt32.ofNat
    (sizeofBufferLogBlock + header.uMsgLen.toNat)), header, last⟩, ?_,
    .popped copied (by omega) ?_ ?_ hbytes ?_⟩
  · rw [popRecord, if_pos hcmd, hout]
    dsimp only
    rw [hfirst, Option.bind_some, hlast]
    rfl
  · rw [← hcopied]
    exact List.take_prefix _ _
  · rw [hcount]
    exact hlen
  · rw [hcount]

/-- With a negative length the terminator is stored in front of the buffer. -/
theorem popRecord_of_negative (hcmd : header.iLogCmd = bufferLogCmdLog)
    (hneg : header.iMsgLen < 0) : popRecord fifo header recvBuffer = none := by
  rw [popRecord, if_pos hcmd, Option.bind_eq_none_iff]
  intro buffer _
  rw [buffer.store_of_neg hneg]
  rfl

/-- Behind an unknown command the body is left in the fifo. -/
theorem popRecord_of_unknown (hcmd : header.iLogCmd ≠ bufferLogCmdLog) :
    popRecord fifo header recvBuffer =
      some ⟨header.iMsgLen, fifo.kfifoSkipN uSizeofBufferLogBlock, header, recvBuffer⟩ :=
  if_neg hcmd

/-- The fill level behind the header. -/
theorem kfifoLen_kfifoSkipN (h : fifo.Bounded)
    (hlong : sizeofBufferLogBlock ≤ fifo.content.length) :
    (fifo.kfifoSkipN uSizeofBufferLogBlock).kfifoLen = 0 ↔
      fifo.content.length = sizeofBufferLogBlock := by
  obtain ⟨hbounded, hcontent, -⟩ :=
    Kfifo.kfifoSkipN_spec (n := uSizeofBufferLogBlock) h hlong
  rw [← UInt32.toNat_inj, ← Kfifo.length_content hbounded, hcontent, List.length_drop]
  show fifo.content.length - sizeofBufferLogBlock = 0 ↔ _
  omega

end Pop

/-! ## When the call ends as it should -/

/-- A ring with which the reader can cope.  If the header is believed and the
sum with its length does not exceed the fill level, then it announces a message
of a log command.  The only other possibility is an unknown command of length
-1 with nothing behind it, which looks like a ring that has been given up. -/
def Readable (fifo : Kfifo) : Prop :=
  ∀ header : BufferLogBlock,
    header.bytes = fifo.content.take sizeofBufferLogBlock →
    header.ullStartToken = bufferLogTokenStart →
    header.ullEndToken = bufferLogTokenEnd →
    -sizeofBufferLogBlock ≤ header.iMsgLen →
    header.iMsgLen < bufferLogBlockMaxSize →
    header.iMsgLen + sizeofBufferLogBlock ≤ fifo.content.length →
    header.iLogCmd = bufferLogCmdLog ∧ 0 ≤ header.iMsgLen ∨
      header.iLogCmd ≠ bufferLogCmdLog ∧ header.iMsgLen = -1 ∧
        fifo.content.length = sizeofBufferLogBlock

/-- A buffer full of one byte. -/
def RecvBuffer.filled (byte : UInt8) : RecvBuffer :=
  ⟨List.replicate bufferLogBlockMaxSize byte, List.length_replicate⟩

section Readable

variable {fifo : Kfifo} {header : BufferLogBlock}

/-- A believed header whose sum does not exceed the fill level leads to the end
of the function. -/
theorem doKFiFoPopMsg_of_complete (h : fifo.Bounded)
    (hheader : header.bytes = fifo.content.take sizeofBufferLogBlock)
    (hvalid : header.isInvalid = false)
    (hlow : -sizeofBufferLogBlock ≤ header.iMsgLen)
    (hlong : header.iMsgLen + sizeofBufferLogBlock ≤ fifo.content.length)
    (block : BufferLogBlock) (recvBuffer : RecvBuffer) :
    doKFiFoPopMsg fifo block recvBuffer = popRecord fifo header recvBuffer := by
  rw [doKFiFoPopMsg_of_header block recvBuffer h hheader, hvalid, if_neg Bool.false_ne_true, if_neg]
  rintro (hless | hless)
  · omega
  · omega

/-- An unknown command of a complete record is survived in one case only. -/
theorem Survives.of_unknown (hsurvives : Survives fifo) (h : fifo.Bounded)
    (hheader : header.bytes = fifo.content.take sizeofBufferLogBlock)
    (hvalid : header.isInvalid = false)
    (hlow : -sizeofBufferLogBlock ≤ header.iMsgLen)
    (hlong : header.iMsgLen + sizeofBufferLogBlock ≤ fifo.content.length)
    (hcmd : header.iLogCmd ≠ bufferLogCmdLog) :
    header.iMsgLen = -1 ∧ fifo.content.length = sizeofBufferLogBlock := by
  -- a buffer without a zero shows that no terminator is stored
  obtain ⟨result, hpop, houtcome⟩ := hsurvives header (.filled 1)
  rw [doKFiFoPopMsg_of_complete h hheader hvalid hlow hlong, popRecord_of_unknown _ hcmd] at hpop
  cases hpop
  cases houtcome with
  | nothing hret hfifo =>
    have hsame : fifo.kfifoSkipN uSizeofBufferLogBlock = fifo.kfifoSkipN 0 := by
      rw [show fifo.kfifoSkipN uSizeofBufferLogBlock = fifo from hfifo]
      simp [Kfifo.kfifoSkipN]
    exact absurd (fifo.kfifoSkipN_injective hsame) (by decide)
  | emptied hret hfifo =>
    exact ⟨hret, (kfifoLen_kfifoSkipN h (sizeof_le_of_header hheader)).mp hfifo⟩
  | popped copied hfew hfront hret hbuffer hfifo =>
    have hmem : (0 : UInt8) ∈ (RecvBuffer.filled 1).bytes := by
      rw [show (RecvBuffer.filled 1).bytes = _ from hbuffer]
      exact List.mem_append_right _ List.mem_cons_self
    exact absurd (List.eq_of_mem_replicate hmem) (by decide)

/-- **When the log reader survives a ring.**  For every content of the fifo,
every fill level and all counters: the call ends as it should exactly if the
ring is readable. -/
theorem survives_iff (h : fifo.Bounded) : Survives fifo ↔ Readable fifo := by
  constructor
  · intro hsurvives header hheader hstart hend hlow hmax hlong
    have hvalid := isInvalid_eq_false_iff.mpr ⟨hstart, hend, hmax⟩
    by_cases hcmd : header.iLogCmd = bufferLogCmdLog
    · refine .inl ⟨hcmd, ?_⟩
      by_contra hneg
      obtain ⟨result, hpop, -⟩ := hsurvives header (.filled 0)
      rw [doKFiFoPopMsg_of_complete h hheader hvalid hlow hlong,
        popRecord_of_negative _ hcmd (Int.not_le.mp hneg)] at hpop
      cases hpop
    · exact .inr ⟨hcmd, hsurvives.of_unknown h hheader hvalid hlow hlong hcmd⟩
  · intro hreadable block recvBuffer
    by_cases hshort : fifo.content.length < sizeofBufferLogBlock
    · exact ⟨_, doKFiFoPopMsg_of_short block recvBuffer h hshort, .nothing rfl rfl⟩
    obtain ⟨header, hheader⟩ : ∃ header : BufferLogBlock,
        header.bytes = fifo.content.take sizeofBufferLogBlock :=
      ⟨⟨_, List.length_take_of_le (Nat.not_lt.mp hshort)⟩, rfl⟩
    rw [doKFiFoPopMsg_of_header block recvBuffer h hheader]
    cases hvalid : header.isInvalid with
    | true =>
      refine ⟨_, if_pos rfl, .emptied rfl ?_⟩
      exact UInt32.sub_self _
    | false =>
      rw [if_neg Bool.false_ne_true]
      split_ifs with hwait
      · exact ⟨_, rfl, .nothing rfl rfl⟩
      obtain ⟨hlow, hlong⟩ := not_or.mp hwait
      rw [Int.not_lt] at hlow hlong
      obtain ⟨hstart, hend, hmax⟩ := isInvalid_eq_false_iff.mp hvalid
      rcases hreadable header hheader hstart hend hlow hmax hlong with
        ⟨hcmd, hpos⟩ | ⟨hcmd, hlen, hlength⟩
      · exact popRecord_of_log recvBuffer h hvalid hcmd hpos hlong
      · refine ⟨_, popRecord_of_unknown recvBuffer hcmd, .emptied hlen ?_⟩
        exact (kfifoLen_kfifoSkipN h (sizeof_le_of_header hheader)).mpr hlength

/-- A whole record at the front, as `Log` writes it, is readable. -/
theorem readable_of_record {record : LogRecord} {behind : List UInt8}
    (hcontent : fifo.content = record.bytes ++ behind) : Readable fifo := by
  intro header hheader _ _ _ _ _
  obtain rfl : header = record.block := by
    apply BufferLogBlock.ext
    rw [hheader, hcontent, LogRecord.bytes, List.append_assoc,
      List.take_left' record.block.length_bytes]
  refine .inl ⟨record.cmd, ?_⟩
  rw [record.msgLen]
  exact Int.natCast_nonneg _

end Readable

/-! ## The call and the channel -/

/-- The accesses of the reader. -/
def LogAction.ofReader : LogAction → Bool
  | .len => true
  | .peek => true
  | .check => true
  | .skip => true
  | .out => true
  | _ => false

/-- The end of the function, from the position behind the checks. -/
theorem runSteps_popRecord {s : LogChannel} {header : BufferLogBlock}
    (hreader : s.reader = .skip header) {recvBuffer : RecvBuffer}
    {result : PopResult}
    (hpop : popRecord s.fifo header recvBuffer = some result) :
    ∃ s', runSteps LogChannel.step s [.skip, .out] = some s' ∧
      s'.fifo = result.fifo ∧ s'.reader = .idle ∧ s'.writer = s.writer := by
  obtain ⟨fifo, writer, reader, accepted, popped, invalid⟩ := s
  cases hreader
  by_cases hcmd : header.iLogCmd = bufferLogCmdLog
  · have hpos : ¬ header.iMsgLen < 0 := by
      intro hneg
      rw [popRecord_of_negative recvBuffer hcmd hneg] at hpop
      cases hpop
    rw [popRecord, if_pos hcmd] at hpop
    obtain ⟨first, -, hlast⟩ := Option.bind_eq_some_iff.mp hpop
    obtain ⟨last, -, rfl⟩ := Option.map_eq_some_iff.mp hlast
    have hout : LogChannel.step ⟨fifo.kfifoSkipN uSizeofBufferLogBlock, writer,
        .out header, accepted, popped, invalid⟩ .out = some _ :=
      (if_pos hcmd).trans (if_neg hpos)
    refine ⟨_, runSteps_cons_eq_some_iff.mpr ⟨_, rfl,
      runSteps_cons_eq_some_iff.mpr ⟨_, hout, rfl⟩⟩, ?_⟩
    exact ⟨rfl, rfl, rfl⟩
  · rw [popRecord_of_unknown recvBuffer hcmd] at hpop
    cases hpop
    have hout : LogChannel.step ⟨fifo.kfifoSkipN uSizeofBufferLogBlock, writer,
        .out header, accepted, popped, invalid⟩ .out = some _ := if_neg hcmd
    refine ⟨_, runSteps_cons_eq_some_iff.mpr ⟨_, rfl,
      runSteps_cons_eq_some_iff.mpr ⟨_, hout, rfl⟩⟩, ?_⟩
    exact ⟨rfl, rfl, rfl⟩

/-- A header is read, and the run goes on from the checks. -/
theorem runSteps_len_peek {s s' : LogChannel} (hidle : s.reader = .idle)
    (hlen : ¬ s.fifo.kfifoLen < uSizeofBufferLogBlock)
    {header : BufferLogBlock}
    (hheader : header.bytes = s.fifo.kfifoOutPeek uSizeofBufferLogBlock)
    {rest : List LogAction}
    (hrest : runSteps LogChannel.step { s with reader := .check header } rest = some s') :
    runSteps LogChannel.step s (.len :: .peek :: rest) = some s' := by
  obtain ⟨fifo, writer, reader, accepted, popped, invalid⟩ := s
  cases hidle
  have hlength : (fifo.kfifoOutPeek uSizeofBufferLogBlock).length =
      sizeofBufferLogBlock := by
    rw [← hheader]
    exact header.length_bytes
  have hread : (⟨fifo.kfifoOutPeek uSizeofBufferLogBlock, hlength⟩ :
      BufferLogBlock) = header := BufferLogBlock.ext hheader.symm
  refine runSteps_cons_eq_some_iff.mpr ⟨_, if_neg hlen,
    runSteps_cons_eq_some_iff.mpr ⟨_, dif_pos hlength, ?_⟩⟩
  dsimp only
  rw [hread]
  exact hrest

/-- The accesses of one call that the writer does not interrupt, one after the
other, are the call. -/
theorem exists_run_doKFiFoPopMsg {s : LogChannel} (hidle : s.reader = .idle)
    {block : BufferLogBlock} {recvBuffer : RecvBuffer} {result : PopResult}
    (hpop : doKFiFoPopMsg s.fifo block recvBuffer = some result) :
    ∃ actions s', runSteps LogChannel.step s actions = some s' ∧
      (∀ a ∈ actions, a.ofReader = true) ∧ s'.fifo = result.fifo ∧
      s'.reader = .idle ∧ s'.writer = s.writer := by
  rw [doKFiFoPopMsg] at hpop
  by_cases hlen : s.fifo.kfifoLen < uSizeofBufferLogBlock
  · rw [if_pos hlen] at hpop
    cases hpop
    refine ⟨[.len], s, ?_, by decide, rfl, hidle, rfl⟩
    simp only [runSteps_cons, runSteps_nil, LogChannel.step, hidle, if_pos hlen, Option.bind_some]
  rw [if_neg hlen] at hpop
  by_cases hpeek : (s.fifo.kfifoOutPeek uSizeofBufferLogBlock).length = sizeofBufferLogBlock
  · rw [dif_pos hpeek] at hpop
    generalize hheader : BufferLogBlock.mk
      (s.fifo.kfifoOutPeek uSizeofBufferLogBlock) hpeek = header at hpop
    have hbytes : header.bytes = s.fifo.kfifoOutPeek uSizeofBufferLogBlock := by
      rw [← hheader]
    by_cases hinvalid : header.isInvalid = true
    · rw [if_pos hinvalid] at hpop
      cases hpop
      have hcheck : LogChannel.step { s with reader := .check header } .check =
          some _ := if_pos hinvalid
      refine ⟨_, _, runSteps_len_peek hidle hlen hbytes
        (runSteps_cons_eq_some_iff.mpr ⟨_, hcheck, runSteps_nil _ _⟩), ?_⟩
      exact ⟨by decide, rfl, rfl, rfl⟩
    rw [if_neg hinvalid] at hpop
    by_cases hwait : s.fifo.kfifoLen < header.uMsgLen + uSizeofBufferLogBlock
    · rw [if_pos hwait] at hpop
      cases hpop
      have hcheck : LogChannel.step { s with reader := .check header } .check =
          some _ := (if_neg hinvalid).trans (if_pos hwait)
      refine ⟨_, _, runSteps_len_peek hidle hlen hbytes
        (runSteps_cons_eq_some_iff.mpr ⟨_, hcheck, runSteps_nil _ _⟩), ?_⟩
      exact ⟨by decide, rfl, rfl, rfl⟩
    · rw [if_neg hwait] at hpop
      have hcheck : LogChannel.step { s with reader := .check header } .check =
          some { s with reader := .skip header } :=
        (if_neg hinvalid).trans (if_neg hwait)
      obtain ⟨s', hend, hrest⟩ :=
        runSteps_popRecord (s := { s with reader := .skip header }) rfl hpop
      exact ⟨_, s', runSteps_len_peek hidle hlen hbytes
        (runSteps_cons_eq_some_iff.mpr ⟨_, hcheck, hend⟩), by decide, hrest⟩
  · rw [dif_neg hpeek] at hpop
    cases hpop

/-! ## Rings with given bytes -/

theorem loaded_order_le : 9 ≤ 31 := by
  decide

theorem length_loaded {bytes : List UInt8} (hlength : bytes.length ≤ 512) :
    (bytes ++ List.replicate (512 - bytes.length) 0).length = 2 ^ 9 := by
  rw [List.length_append, List.length_replicate]
  omega

/-- A ring of 512 bytes with `bytes` in it. -/
def loaded (bytes : List UInt8) (hlength : bytes.length ≤ 512) : Kfifo where
  inPos := UInt32.ofNat bytes.length
  outPos := 0
  mask := lowMask 9
  data := bytes ++ List.replicate (512 - bytes.length) 0
  order := 9
  order_le := loaded_order_le
  mask_eq := rfl
  length_data := length_loaded hlength

section Loaded

variable {bytes : List UInt8} (hlength : bytes.length ≤ 512)

theorem toNat_kfifoLen_loaded : (loaded bytes hlength).kfifoLen.toNat = bytes.length := by
  show (UInt32.ofNat bytes.length - 0).toNat = bytes.length
  rw [UInt32.sub_zero, UInt32.toNat_ofNat', Nat.mod_eq_of_lt (by omega)]

theorem bounded_loaded : (loaded bytes hlength).Bounded := by
  rw [Kfifo.Bounded, toNat_kfifoLen_loaded]
  exact hlength

theorem content_loaded : (loaded bytes hlength).content = bytes := by
  rw [Kfifo.content, toNat_kfifoLen_loaded]
  show ringRead (bytes ++ _) 0 bytes.length = bytes
  rw [ringRead_zero (by rw [List.length_append]; omega), List.take_left' rfl]

end Loaded

theorem length_hiRecord : LogChannel.hiRecord.bytes.length ≤ 512 := by
  rw [LogRecord.length_bytes]
  decide

/-- The record of the text "hi" is survived. -/
theorem survives_iff_hi :
    (loaded LogChannel.hiRecord.bytes length_hiRecord).Bounded ∧
    Survives (loaded LogChannel.hiRecord.bytes length_hiRecord) := by
  refine ⟨bounded_loaded _, (survives_iff (bounded_loaded _)).mpr ?_⟩
  exact readable_of_record ((content_loaded _).trans (List.append_nil _).symm)

theorem length_zeroBytes : (List.replicate sizeofBufferLogBlock
    (0 : UInt8)).length = sizeofBufferLogBlock :=
  List.length_replicate

/-- A header with the tokens and the command of a log message and the length
-1. -/
def negativeBlock : BufferLogBlock :=
  BufferLogBlock.construct
    ⟨List.replicate sizeofBufferLogBlock 0, length_zeroBytes⟩
    ⟨7, [109], [102], 0, 0⟩ bufferLogCmdLog 2 (-1)

theorem length_negativeBlock : negativeBlock.bytes.length ≤ 512 := by
  rw [negativeBlock.length_bytes]
  decide

/-- With this header alone in the ring, the reader stores the terminator in
front of its buffer. -/
theorem not_survives_negative :
    (loaded negativeBlock.bytes length_negativeBlock).Bounded ∧
    negativeBlock.ullStartToken = bufferLogTokenStart ∧
    negativeBlock.ullEndToken = bufferLogTokenEnd ∧
    negativeBlock.iMsgLen = -1 ∧
    (∀ block recvBuffer, doKFiFoPopMsg
      (loaded negativeBlock.bytes length_negativeBlock) block recvBuffer = none) ∧
    ¬ Survives (loaded negativeBlock.bytes length_negativeBlock) := by
  obtain ⟨hcmd, hlen, hstart, hend⟩ := BufferLogBlock.construct_spec
    ⟨List.replicate sizeofBufferLogBlock 0, length_zeroBytes⟩
    ⟨7, [109], [102], 0, 0⟩ bufferLogCmdLog 2 (-1) (by decide) (by decide)
    (by decide) (by decide)
  have hvalid : negativeBlock.isInvalid = false := by
    refine isInvalid_eq_false_iff.mpr ⟨hstart, hend, ?_⟩
    rw [show negativeBlock.iMsgLen = -1 from hlen]
    decide
  have hcontent := content_loaded length_negativeBlock
  have hpop : ∀ block recvBuffer, doKFiFoPopMsg
      (loaded negativeBlock.bytes length_negativeBlock) block recvBuffer =
        none := by
    intro block recvBuffer
    rw [doKFiFoPopMsg_of_complete (bounded_loaded _) ?_ hvalid ?_ ?_]
    · refine popRecord_of_negative recvBuffer hcmd ?_
      rw [show negativeBlock.iMsgLen = -1 from hlen]
      decide
    · rw [hcontent, List.take_of_length_le negativeBlock.length_bytes.le]
    · rw [show negativeBlock.iMsgLen = -1 from hlen]
      decide
    · rw [hcontent, negativeBlock.length_bytes,
        show negativeBlock.iMsgLen = -1 from hlen]
      decide
  refine ⟨bounded_loaded _, hstart, hend, hlen, hpop, fun hsurvives => ?_⟩
  obtain ⟨result, hresult, -⟩ := hsurvives negativeBlock (.filled 0)
  rw [hpop] at hresult
  cases hresult

end Common
end GameServer
