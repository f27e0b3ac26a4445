import GameServer.Lib.BigEndian
import GameServer.Lib.Memory

/-!
# Log records

`ST_BufferLogBlock` and `Log` of `bufferlog.h`.  A log record travels as the
raw bytes of its block, followed by the message.  The block is laid out as on
x86-64: little-endian integers at their aligned offsets, an enumeration whose
values need more than 32 bits in eight bytes, and padding where the alignment
leaves gaps.

`Log` reuses one static block and `construct` overwrites only part of it, so
stale bytes of earlier records stay behind the names.  `LogRecord` is what the
reader relies on; every call of `Log` with a message produces one.
-/

namespace GameServer
namespace Common

open Lib

/-- `BUFFER_LOG_BLOCK_MAX_SIZE`. -/
def bufferLogBlockMaxSize : Nat := 1024 * 1024

/-- `BUFFER_LOG_FILE_FUNC_MAX_LENGTH`. -/
def bufferLogFileFuncMaxLength : Nat := 128

/-- `E_BUFFER_LOG_CMD_LOG`. -/
def bufferLogCmdLog : Int := 1

/-- `E_BUFFER_LOG_TOKEN_START`. -/
def bufferLogTokenStart : Nat := 0x123456789

/-- `E_BUFFER_LOG_TOKEN_END`. -/
def bufferLogTokenEnd : Nat := 0xfedcba987

/-- `sizeof(ST_BufferLogBlock)`. -/
def sizeofBufferLogBlock : Nat := 312

/-- The bytes of an `ST_BufferLogBlock`. -/
@[ext] structure BufferLogBlock where
  bytes : List UInt8
  length_bytes : bytes.length = sizeofBufferLogBlock

namespace BufferLogBlock

/-- The unsigned value of an integer field. -/
def word (block : BufferLogBlock) (offset size : Nat) : Nat :=
  natOfBytes (field block.bytes offset size).reverse

/-- `m_iLogCmd`. -/
def iLogCmd (block : BufferLogBlock) : Int := toSigned 32 (block.word 0 4)

/-- `m_iLogType`. -/
def iLogType (block : BufferLogBlock) : Int := toSigned 32 (block.word 4 4)

/-- `m_iMsgLen`. -/
def iMsgLen (block : BufferLogBlock) : Int := toSigned 32 (block.word 8 4)

/-- `m_ullStartToken`. -/
def ullStartToken (block : BufferLogBlock) : Nat := block.word 16 8

/-- `m_ullEndToken`. -/
def ullEndToken (block : BufferLogBlock) : Nat := block.word 24 8

/-- Store bytes at an offset. -/
def store (block : BufferLogBlock) (offset : Nat) (bytes : List UInt8) :
    BufferLogBlock where
  bytes := memcpy block.bytes offset bytes
  length_bytes := (length_memcpy ..).trans block.length_bytes

/-- Assign to an integer field. -/
def setWord (block : BufferLogBlock) (offset size value : Nat) :
    BufferLogBlock :=
  block.store offset (bytesOfNat size value).reverse

/-- `COPY_STRING_TO_ARRAY` into one of the name fields. -/
def copyString (block : BufferLogBlock) (offset : Nat) (src : List UInt8) :
    BufferLogBlock :=
  let iStrLen :=
    if src.length ≥ bufferLogFileFuncMaxLength then
      bufferLogFileFuncMaxLength - 1
    else src.length
  block.store offset (src.take iStrLen ++ [0])

/-- Where and when a message was logged; the names are C strings. -/
structure Origin where
  iLine : Int
  fileName : List UInt8
  funcName : List UInt8
  tvSec : Nat
  tvUsec : Nat

/-- `construct`, on the block as the last record left it. -/
def construct (block : BufferLogBlock) (origin : Origin)
    (iLogCmd iLogType iMsgLen : Int) : BufferLogBlock :=
  let block := block.setWord 0 4 (ofSigned 32 iLogCmd)
  let block := block.setWord 4 4 (ofSigned 32 iLogType)
  let block := block.setWord 8 4 (ofSigned 32 iMsgLen)
  let block := block.setWord 16 8 bufferLogTokenStart
  let block := block.setWord 24 8 bufferLogTokenEnd
  let block := block.setWord 32 8 origin.tvSec
  let block := block.setWord 40 8 origin.tvUsec
  let block := block.setWord 48 4 (ofSigned 32 origin.iLine)
  let block := block.copyString 52 origin.fileName
  block.copyString 180 origin.funcName

theorem word_setWord_self (block : BufferLogBlock) {offset size : Nat}
    (h : offset + size ≤ sizeofBufferLogBlock) (value : Nat) :
    (block.setWord offset size value).word offset size = value % 256 ^ size := by
  have hlength : (bytesOfNat size value).reverse.length = size := by simp
  have hfield := @field_memcpy_self _ block.bytes (bytesOfNat size value).reverse offset
    (by rw [hlength, block.length_bytes]; exact h)
  rw [hlength] at hfield
  show natOfBytes (field (memcpy _ _ _) offset size).reverse = _
  rw [hfield, List.reverse_reverse, natOfBytes_bytesOfNat]

theorem word_store_of_disjoint (block : BufferLogBlock) {offset : Nat}
    {bytes : List UInt8} (h : offset + bytes.length ≤ sizeofBufferLogBlock)
    {other size : Nat}
    (hdisjoint : other + size ≤ offset ∨ offset + bytes.length ≤ other) :
    (block.store offset bytes).word other size = block.word other size := by
  show natOfBytes (field (memcpy _ _ _) other size).reverse = _
  rw [field_memcpy_of_disjoint (by rw [block.length_bytes]; exact h) hdisjoint]
  rfl

theorem word_setWord_of_disjoint (block : BufferLogBlock)
    {offset size : Nat} (h : offset + size ≤ sizeofBufferLogBlock)
    (value : Nat) {other size' : Nat}
    (hdisjoint : other + size' ≤ offset ∨ offset + size ≤ other) :
    (block.setWord offset size value).word other size' = block.word other size' := by
  apply block.word_store_of_disjoint
  · simpa using h
  · simpa using hdisjoint

theorem word_copyString (block : BufferLogBlock) {offset : Nat}
    (h : offset + bufferLogFileFuncMaxLength ≤ sizeofBufferLogBlock)
    (src : List UInt8) {other size : Nat} (hbefore : other + size ≤ offset) :
    (block.copyString offset src).word other size = block.word other size := by
  have hlength : ∀ n, n < bufferLogFileFuncMaxLength →
      (src.take n ++ [0]).length ≤ bufferLogFileFuncMaxLength := by
    intro n hn
    simp only [List.length_append, List.length_take, List.length_singleton]
    omega
  unfold copyString
  apply block.word_store_of_disjoint _ (.inl hbefore)
  refine (Nat.add_le_add_left (hlength _ ?_) offset).trans h
  split_ifs
  · decide
  · omega

/-- What `construct` stores in the fields the reader looks at. -/
theorem construct_spec (block : BufferLogBlock) (origin : Origin)
    (iLogCmd iLogType iMsgLen : Int) (hcmd : -2 ^ 31 ≤ iLogCmd)
    (hcmd' : iLogCmd < 2 ^ 31) (hlen : -2 ^ 31 ≤ iMsgLen)
    (hlen' : iMsgLen < 2 ^ 31) :
    (block.construct origin iLogCmd iLogType iMsgLen).iLogCmd = iLogCmd ∧
      (block.construct origin iLogCmd iLogType iMsgLen).iMsgLen = iMsgLen ∧
      (block.construct origin iLogCmd iLogType iMsgLen).ullStartToken = bufferLogTokenStart ∧
      (block.construct origin iLogCmd iLogType iMsgLen).ullEndToken =
        bufferLogTokenEnd := by
  -- the fields lie in front of the names
  have hnames : ∀ {offset size : Nat}, offset + size ≤ 52 →
      ∀ block : BufferLogBlock, ((block.copyString 52 origin.fileName)
        |>.copyString 180 origin.funcName).word offset size = block.word offset size := by
    intro offset size h block
    rw [word_copyString _ (by decide) _ (by omega), word_copyString _ (by decide) _ h]
  have hword : ∀ z : Int, -2 ^ 31 ≤ z → z < 2 ^ 31 → toSigned 32 (ofSigned 32 z % 256 ^ 4) = z := by
    intro z hlow hhigh
    have hmod : ofSigned 32 z % 256 ^ 4 = ofSigned 32 z := by
      apply Nat.mod_eq_of_lt
      unfold ofSigned
      omega
    rw [hmod]
    exact toSigned_ofSigned (by decide) hlow hhigh
  simp only [construct, BufferLogBlock.iLogCmd, BufferLogBlock.iMsgLen, ullStartToken, ullEndToken]
  refine ⟨?_, ?_, ?_, ?_⟩
  · rw [hnames (by decide)]
    simp (disch := decide) only [word_setWord_of_disjoint]
    rw [word_setWord_self _ (by decide), hword _ hcmd hcmd']
  · rw [hnames (by decide)]
    simp (disch := decide) only [word_setWord_of_disjoint]
    rw [word_setWord_self _ (by decide), hword _ hlen hlen']
  · rw [hnames (by decide)]
    simp (disch := decide) only [word_setWord_of_disjoint]
    rw [word_setWord_self _ (by decide)]
    rfl
  · rw [hnames (by decide)]
    simp (disch := decide) only [word_setWord_of_disjoint]
    rw [word_setWord_self _ (by decide)]
    rfl

end BufferLogBlock

/-- A record the reader can take: a log command with both tokens, and a message
of the announced length that fits the reader's buffer. -/
structure LogRecord where
  block : BufferLogBlock
  body : List UInt8
  cmd : block.iLogCmd = bufferLogCmdLog
  startToken : block.ullStartToken = bufferLogTokenStart
  endToken : block.ullEndToken = bufferLogTokenEnd
  msgLen : block.iMsgLen = body.length
  body_pos : 0 < body.length
  body_lt : body.length < bufferLogBlockMaxSize

/-- The bytes that travel for a record. -/
def LogRecord.bytes (record : LogRecord) : List UInt8 :=
  record.block.bytes ++ record.body

theorem LogRecord.length_bytes (record : LogRecord) :
    record.bytes.length = sizeofBufferLogBlock + record.body.length := by
  rw [LogRecord.bytes, List.length_append, record.block.length_bytes]

/-- The message `Log` keeps of a formatted text: cut to the buffer, and zero
from its first zero byte on, as `strncpy` pads. -/
def logMessage (sLog : List UInt8) : List UInt8 :=
  let iSize :=
    if sLog.length ≥ bufferLogBlockMaxSize then bufferLogBlockMaxSize - 1
    else sLog.length
  ((sLog.takeWhile fun c => c ≠ 0) ++ List.replicate iSize 0).take iSize

/-- The block `Log` passes on with the message. -/
def logBlock (block : BufferLogBlock) (origin : BufferLogBlock.Origin)
    (iLogType : Int) (sLog : List UInt8) : BufferLogBlock :=
  block.construct origin bufferLogCmdLog iLogType (logMessage sLog).length

theorem length_logMessage (sLog : List UInt8) :
    (logMessage sLog).length =
      if sLog.length ≥ bufferLogBlockMaxSize then bufferLogBlockMaxSize - 1
      else sLog.length := by
  rw [logMessage, List.length_take, List.length_append, List.length_replicate]
  exact Nat.min_eq_left (Nat.le_add_left ..)

theorem logMessage_bounds {sLog : List UInt8} (h : sLog ≠ []) :
    0 < (logMessage sLog).length ∧
      (logMessage sLog).length < bufferLogBlockMaxSize := by
  have hpos := List.length_pos_iff.mpr h
  have hmax : bufferLogBlockMaxSize = 1048576 := rfl
  rw [length_logMessage]
  split_ifs
  · omega
  · omega

theorem logBlock_spec (block : BufferLogBlock)
    (origin : BufferLogBlock.Origin) (iLogType : Int) {sLog : List UInt8}
    (h : sLog ≠ []) :
    (logBlock block origin iLogType sLog).iLogCmd = bufferLogCmdLog ∧
      (logBlock block origin iLogType sLog).iMsgLen = (logMessage sLog).length ∧
      (logBlock block origin iLogType sLog).ullStartToken = bufferLogTokenStart ∧
      (logBlock block origin iLogType sLog).ullEndToken =
        bufferLogTokenEnd := by
  have hbounds := logMessage_bounds h
  have hmax : bufferLogBlockMaxSize = 1048576 := rfl
  exact block.construct_spec origin bufferLogCmdLog iLogType
    (logMessage sLog).length (by decide) (by decide) (by omega) (by omega)

/-- Every call of `Log` with a text produces a record the reader can take,
whatever the static block held before. -/
def logRecord (block : BufferLogBlock) (origin : BufferLogBlock.Origin)
    (iLogType : Int) (sLog : List UInt8) (h : sLog ≠ []) : LogRecord where
  block := logBlock block origin iLogType sLog
  body := logMessage sLog
  cmd := (logBlock_spec block origin iLogType h).1
  startToken := (logBlock_spec block origin iLogType h).2.2.1
  endToken := (logBlock_spec block origin iLogType h).2.2.2
  msgLen := (logBlock_spec block origin iLogType h).2.1
  body_pos := (logMessage_bounds h).1
  body_lt := (logMessage_bounds h).2

end Common
end GameServer
