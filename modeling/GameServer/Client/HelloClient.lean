import GameServer.Lib.CString
import GameServer.Lib.Memory
import GameServer.Service.Handle

/-!
# The example client

`client.cpp` sends numbered `CSHello` messages to the server and checks the
replies.  One thread sends; it puts every packet into a pool first.  The other
one collects the bytes of the replies in an array of 1024 bytes, cuts the
replies out, looks up the packet under the id of the reply and compares the two
texts.

The receiving loop is a `do … while` with two peculiarities.  The size of the
next reply is read from the array whether or not its two bytes have arrived.
And the loop goes on only if at least as many bytes are left as the reply just
handled had, not as the next one has.  `recvBody_of_incomplete` and
`recvBody_of_reply` say what one round does when replies have at least 256
bytes: the first of the two bytes is then enough to see that the reply is not
complete.

What the constructor of `ST_PACKET` leaves uninitialised is whatever the stack
held.
-/

namespace GameServer
namespace SocketClient

open Lib Network Gamehandle

/-- `MAX_TEST_PACKET_NUMBER`. -/
def maxTestPacketNumber : Nat := 1 * 100

/-- `PROTO_HEADER_SIZE`. -/
def protoHeaderSize : Nat := 2 * 2

/-- `PROTO_TAIL_SIZE`. -/
def protoTailSize : Nat := 8

/-- The size of `m_Buffer`, `m_SendData` and `m_RecvData`. -/
def arraySize : Nat := 1024

/-- `ST_STATISTICS`. -/
structure StStatistics where
  iTotalTTL : UInt64
  iTotalSvrTTL : UInt64
  iTotalSrvRecvTime : UInt64
  iTotalClientRecvTime : UInt64
  iTotalSrvLogicInternalCost : UInt64
  iTotalSrvNetInternalCost : UInt64
  iTotalPacketNum : UInt64
  iTotalSlowNum : UInt64
  iTotalFastNum : UInt64

/-- `ST_PACKET`. -/
structure StPacket where
  iPacketNo : Int32
  iProtoNo : Int32
  iClientSendTime : UInt64
  iClientRecvTime : UInt64
  bRecvTTLSucc : Bool
  sendData : List Byte
  recvData : List Byte
  statistics : StStatistics

/-- `ParseFromArray` on a `CSHelloRsp`, as `CSHelloParser` on a `CSHello`.  It is
only asked to decode what a server serialises. -/
structure CSHelloRspParser where
  parseFromArray : List Byte → CSHelloRsp
  parse_serialize : ∀ rsp : CSHelloRsp, (∀ c ∈ rsp.content, c < 128) →
    parseFromArray rsp.serialize = rsp

/-- Take over one decoded field; unknown fields are skipped. -/
def mergeRspField (rsp : CSHelloRsp) : WireField → CSHelloRsp
  | (1, .varint n) => { rsp with id := Int32.ofInt n }
  | (2, .bytes b) => { rsp with content := b }
  | (3, .varint n) => { rsp with unpackTimestamp := UInt64.ofNat n }
  | (4, .varint n) => { rsp with logicTimestamp := UInt64.ofNat n }
  | _ => rsp

theorem foldl_mergeRspField_fields (rsp : CSHelloRsp) :
    rsp.fields.foldl mergeRspField ⟨0, [], 0, 0⟩ = rsp := by
  rw [CSHelloRsp.fields, List.foldl_append, List.foldl_append,
    List.foldl_append, foldl_varintField (n := int32Varint rsp.id),
    foldl_bytesField, foldl_varintField (n := rsp.unpackTimestamp.toNat),
    foldl_varintField (n := rsp.logicTimestamp.toNat)]
  · show (⟨Int32.ofInt (int32Varint rsp.id), rsp.content, UInt64.ofNat rsp.unpackTimestamp.toNat,
      UInt64.ofNat rsp.logicTimestamp.toNat⟩ : CSHelloRsp) = rsp
    rw [ofInt_int32Varint, UInt64.ofNat_toNat, UInt64.ofNat_toNat]
  -- the message into which a field is merged still has the default there
  · intro hzero
    rw [hzero]
    rfl
  · intro hzero
    rw [hzero]
    rfl
  · intro hnil
    rw [hnil]
    rfl
  · intro hzero
    rw [hzero]
    rfl

/-- A decoder of `CSHelloRsp`, which stops at the first field it cannot read. -/
def decodeRsp (body : List Byte) : CSHelloRsp :=
  (readFields body.length body).foldl mergeRspField ⟨0, [], 0, 0⟩

theorem decodeRsp_serialize (rsp : CSHelloRsp) : decodeRsp rsp.serialize = rsp := by
  rw [decodeRsp, CSHelloRsp.serialize,
    readFields_writeFields (length_le_length_writeFields rsp.fields),
    foldl_mergeRspField_fields]

/-- The decoder as a `ParseFromArray`. -/
def CSHelloRspParser.decoder : CSHelloRspParser where
  parseFromArray := decodeRsp
  parse_serialize := fun rsp _ => decodeRsp_serialize rsp

namespace StPacket

/-- `CalcTTL`. -/
def calcTTL (packet : StPacket) (rstHelloRsp : CSHelloRsp)
    (iServerInternalTimestamp : UInt64) : StPacket :=
  if packet.iClientRecvTime ≤ 0 then
    { packet with bRecvTTLSucc := false }
  else
    let old := packet.statistics
    let iTotalTTL := packet.iClientRecvTime - packet.iClientSendTime
    { packet with
      bRecvTTLSucc := true
      statistics :=
        { iTotalPacketNum := 1
          iTotalTTL := iTotalTTL
          iTotalSrvRecvTime :=
            rstHelloRsp.unpackTimestamp - packet.iClientSendTime
          iTotalClientRecvTime :=
            packet.iClientRecvTime - iServerInternalTimestamp
          iTotalSrvLogicInternalCost :=
            rstHelloRsp.logicTimestamp - rstHelloRsp.unpackTimestamp
          iTotalSrvNetInternalCost :=
            iServerInternalTimestamp - rstHelloRsp.logicTimestamp
          iTotalSvrTTL := iServerInternalTimestamp - rstHelloRsp.unpackTimestamp
          -- the two counters start with what the memory held
          iTotalSlowNum :=
            if iTotalTTL ≥ 100 then old.iTotalSlowNum + 1 else old.iTotalSlowNum
          iTotalFastNum :=
            if iTotalTTL ≥ 100 then old.iTotalFastNum
            else if iTotalTTL < 50 then old.iTotalFastNum + 1
            else old.iTotalFastNum } }

/-- The string that `strcmp` reads, if it ends inside its array. -/
def stringOf (array : Text) : Option Text :=
  if 0 ∈ array then some (cString array) else none

/-- What `recv_msg` does with the packet that a reply belongs to.  `none` when
the text does not fit `m_RecvData`, when a string does not end inside its array
or when the two strings differ. -/
def takeReply (packet : StPacket) (stHelloRsp : CSHelloRsp)
    (iServerInternalTimestamp now : UInt64) : Option StPacket :=
  let text := cString stHelloRsp.content
  if arraySize < text.length then none
  else
    let recvData := memcpy (List.replicate arraySize 0) 0 text
    (stringOf recvData).bind fun received =>
      (stringOf packet.sendData).bind fun sent =>
        if received = sent then
          some (({ packet with
            iClientRecvTime := now
            recvData := recvData } : StPacket).calcTTL stHelloRsp
              iServerInternalTimestamp)
        else
          none

end StPacket

/-! ## Sending -/

/-- The array that `do_send_msg` fills: the loop writes the letter `A` and notes
the last index, where `sprintf` then puts the number. -/
def contentArray (i size : Nat) : List Byte :=
  let filled := (List.range (size - 10)).foldl
    (fun (state : List Byte × Nat) j => (state.1.set j 65, j))
    (List.replicate size 0, 0)
  memcpy filled.1 filled.2 (decimal i ++ [0])

/-- `do_send_msg` up to its call of `AddPacket`: the packet, and the bytes to be
sent.  `memory` is where the packet is constructed.  (The message is far below
the 2 ^ 15 bytes that an `int16_t` can count.) -/
def doSendMsg (memory : StPacket) (i size : Nat) (now : UInt64) :
    StPacket × List Byte :=
  let content := cString (contentArray i size)
  let stHello : CSHello := ⟨Int32.ofNat i, content⟩
  let wPacketSize := stHello.serialize.length + protoHeaderSize
  let buffer := memcpy (List.replicate wPacketSize 0) 0 (packInt 2 wPacketSize)
  let buffer := memcpy buffer 2 (packInt 2 ProtocolMessageId.csHello.value)
  let buffer := memcpy buffer protoHeaderSize stHello.serialize
  ({ memory with
      iPacketNo := Int32.ofNat i
      iProtoNo := 1
      iClientSendTime := now
      sendData := memcpy (List.replicate arraySize 0) 0 content },
    buffer)

/-- The size that `send_msg` passes for packet `i`. -/
def sendSize (i : Nat) : Nat :=
  if i < maxTestPacketNumber then 250 else 512

/-- `insert` of the `std::map` that holds the packets: sorted by number, and an
entry that is there stays. -/
def poolInsert (packet : StPacket) : List StPacket → List StPacket
  | [] => [packet]
  | entry :: rest =>
    if packet.iPacketNo < entry.iPacketNo then packet :: entry :: rest
    else if packet.iPacketNo = entry.iPacketNo then entry :: rest
    else entry :: poolInsert packet rest

/-- A change to the packet that an iterator of the map points to. -/
def poolUpdate (packet : StPacket) (pool : List StPacket) : List StPacket :=
  pool.map fun entry =>
    if entry.iPacketNo = packet.iPacketNo then packet else entry

/-! ## Receiving -/

/-- The part of `ST_CLIENT` that the receiving thread works on, and the pool. -/
structure StClient where
  recvedSize : Nat
  buffer : List Byte
  packetPool : List StPacket
  length_buffer : buffer.length = arraySize
  recvedSize_le : recvedSize ≤ arraySize

namespace StClient

/-- The constructor. -/
def construct : StClient :=
  ⟨0, List.replicate arraySize 0, [], List.length_replicate, Nat.zero_le _⟩

/-- The bytes that have been received and not handled. -/
def held (client : StClient) : List Byte :=
  client.buffer.take client.recvedSize

/-- The number of bytes that `recv_msg` asks `read` for. -/
def iReadLen (client : StClient) : Nat :=
  let iReadLen := 10240
  if iReadLen > arraySize - client.recvedSize then
    arraySize - client.recvedSize
  else
    iReadLen

theorem iReadLen_eq (client : StClient) : client.iReadLen = arraySize - client.recvedSize := by
  have hsize : arraySize = 1024 := rfl
  rw [iReadLen, if_pos (by omega)]

theorem add_length_le (client : StClient) {bytes : List Byte} (h : bytes.length ≤ client.iReadLen) :
    client.recvedSize + bytes.length ≤ arraySize := by
  have hle := client.recvedSize_le
  rw [iReadLen_eq] at h
  omega

theorem length_memcpy_buffer (client : StClient) (offset : Nat) (bytes : List Byte) :
    (memcpy client.buffer offset bytes).length = arraySize :=
  (length_memcpy client.buffer offset bytes).trans client.length_buffer

theorem sub_le_arraySize (client : StClient) (size : Nat) : client.recvedSize - size ≤ arraySize :=
  (Nat.sub_le _ _).trans client.recvedSize_le

/-- `read` has stored bytes behind those in the array. -/
def read (client : StClient) (bytes : List Byte)
    (h : bytes.length ≤ client.iReadLen) : StClient where
  recvedSize := client.recvedSize + bytes.length
  buffer := memcpy client.buffer client.recvedSize bytes
  packetPool := client.packetPool
  length_buffer := client.length_memcpy_buffer _ bytes
  recvedSize_le := client.add_length_le h

/-- The `memmove` behind a reply of `wPacketSize` bytes. -/
def moveFront (client : StClient) (wPacketSize : Nat) : StClient where
  recvedSize := client.recvedSize - wPacketSize
  buffer := memcpy client.buffer 0
    (field client.buffer wPacketSize (client.recvedSize - wPacketSize))
  packetPool := client.packetPool
  length_buffer := client.length_memcpy_buffer _ _
  recvedSize_le := client.sub_le_arraySize wPacketSize

/-- Another pool. -/
def withPool (client : StClient) (packetPool : List StPacket) : StClient :=
  { client with packetPool := packetPool }

/-- What a round of the `do … while` loop comes to. -/
inductive RecvOutcome where
  /-- The `break`: more bytes are needed. -/
  | incomplete
  /-- A reply has been handled; `again` is the condition of the loop. -/
  | handled (client : StClient) (again : Bool)

/-- One round of the loop in `recv_msg`.  `none` is the abort of an assertion or
an access outside an array; a size below that of header and tail would make
`memcpy` read in front of `m_Buffer`. -/
def recvBody (parser : CSHelloRspParser) (client : StClient) (now : UInt64) :
    Option RecvOutcome :=
  let wPacketSize := natOfBytes (client.buffer.take 2)
  if client.recvedSize < wPacketSize then
    some .incomplete
  else
    let wPortoNo : Int := natOfBytes (field client.buffer 2 2)
    if wPortoNo ≠ ProtocolMessageId.csHello.value then none
    else if wPacketSize < protoHeaderSize + protoTailSize then none
    else
      let iBufferSize := wPacketSize - protoHeaderSize - protoTailSize
      let stHelloRsp := parser.parseFromArray
        (field client.buffer protoHeaderSize iBufferSize)
      let iServerInternalTimestamp := UInt64.ofNat (natOfBytes
        (field client.buffer (protoHeaderSize + iBufferSize) protoTailSize))
      let client := client.moveFront wPacketSize
      (client.packetPool.find? fun packet =>
        packet.iPacketNo = stHelloRsp.id).bind fun packet =>
          (packet.takeReply stHelloRsp iServerInternalTimestamp now).map
            fun packet =>
              .handled (client.withPool (poolUpdate packet client.packetPool))
                (decide (client.recvedSize ≥ wPacketSize))

/-- `Statistics`: the lines written to the file.  `none` is the assertion of
`PrintTTL`. -/
def printStatistics (client : StClient) : Option (List StStatistics) :=
  if client.packetPool.all StPacket.bRecvTTLSucc then
    some (client.packetPool.map StPacket.statistics)
  else
    none

end StClient

/-! ## The text of a message -/

/-- The text of packet `i`: the letters that the number does not overwrite, and
the number. -/
def helloText (i size : Nat) : List Byte :=
  List.replicate (size - 11) 65 ++ decimal i

theorem length_helloText (i size : Nat) :
    (helloText i size).length = size - 11 + (Nat.log 10 i + 1) := by
  rw [helloText, List.length_append, List.length_replicate, length_decimal]

theorem mem_helloText {i size : Nat} {c : Byte} (h : c ∈ helloText i size) : c ≠ 0 ∧ c < 128 := by
  rcases List.mem_append.mp h with hletter | hdigit
  · rw [List.eq_of_mem_replicate hletter]
    decide
  · obtain ⟨hlow, hhigh⟩ := mem_decimal hdigit
    refine ⟨?_, ?_⟩
    · rintro rfl
      exact absurd hlow (by decide)
    · rw [UInt8.lt_iff_toNat_lt]
      exact hhigh.trans (by decide)

theorem zero_not_mem_helloText (i size : Nat) : (0 : Byte) ∉ helloText i size :=
  fun h => (mem_helloText h).1 rfl

/-- The loop writes its letters one after the other. -/
theorem foldl_letters (size : Nat) {k : Nat} (h : k ≤ size) :
    (List.range k).foldl
        (fun (state : List Byte × Nat) j => (state.1.set j 65, j))
        (List.replicate size 0, 0) =
      (List.replicate k 65 ++ List.replicate (size - k) 0, k - 1) := by
  induction k with
  | zero => rfl
  | succ k ih =>
    have hrest : List.replicate (size - k) (0 : Byte) = 0 :: List.replicate (size - (k + 1)) 0 := by
      rw [← List.replicate_succ]
      congr 1
      omega
    rw [List.range_succ, List.foldl_append, ih (by omega)]
    simp only [List.foldl_cons, List.foldl_nil, Nat.add_sub_cancel]
    rw [hrest, List.set_append_right _ _ (by simp), List.length_replicate,
      Nat.sub_self, List.set_cons_zero, List.replicate_succ',
      List.append_assoc]
    rfl

/-- What `do_send_msg` sends as content. -/
theorem cString_contentArray {i size : Nat} (hsize : 11 ≤ size)
    (hdigits : (decimal i).length ≤ 10) :
    cString (contentArray i size) = helloText i size := by
  have hletters := foldl_letters size (show size - 10 ≤ size by omega)
  rw [contentArray, hletters]
  dsimp only
  rw [memcpy_eq (by simp; omega)]
  have hfront : (List.replicate (size - 10) (65 : Byte) ++
      List.replicate (size - (size - 10)) 0).take (size - 10 - 1) =
        List.replicate (size - 11) 65 := by
    rw [List.take_append_of_le_length (by simp), List.take_replicate]
    congr 1
    omega
  rw [hfront, ← List.append_assoc, List.append_assoc _ [0]]
  exact cString_append_zero (zero_not_mem_helloText i size) _

/-- The message that `do_send_msg` sends as packet `i`. -/
def helloOf (i : Nat) : CSHello :=
  ⟨Int32.ofNat i, helloText i (sendSize i)⟩

/-- `m_SendData` of packet `i`. -/
def sendDataOf (i : Nat) : List Byte :=
  memcpy (List.replicate arraySize 0) 0 (helloText i (sendSize i))

/-- The numbers that `send_msg` uses. -/
abbrev InTest (i : Nat) : Prop := i < maxTestPacketNumber * 2

theorem log_lt_of_inTest {i : Nat} (h : InTest i) : Nat.log 10 i < 3 :=
  Nat.log_lt_of_lt_pow' (by decide) (lt_of_lt_of_le h (by decide))

theorem sendSize_cases (i : Nat) : sendSize i = 250 ∨ sendSize i = 512 := by
  unfold sendSize
  split_ifs
  · exact .inl rfl
  · exact .inr rfl

theorem length_helloText_lt {i : Nat} (h : InTest i) : (helloText i (sendSize i)).length < 505 := by
  have hlog := log_lt_of_inTest h
  rw [length_helloText]
  rcases sendSize_cases i with hsize | hsize <;> omega

/-- The array is copied from behind the header on. -/
theorem copied_eq_frameOf (iProtoNo : Int) (body : List Byte) :
    memcpy (memcpy (memcpy (List.replicate (body.length + protoHeaderSize) 0) 0
        (packInt 2 ((body.length + protoHeaderSize : Nat) : Int))) 2
          (packInt 2 iProtoNo)) protoHeaderSize body =
      frameOf iProtoNo body := by
  have hheader : protoHeaderSize = 4 := rfl
  have hsize : ((body.length + protoHeaderSize : Nat) : Int) =
      networkPacketHeaderSize + body.length := by
    have hfour : networkPacketHeaderSize = 4 := rfl
    omega
  rw [hsize]
  generalize hfirst : packInt 2 (networkPacketHeaderSize + body.length) = first
  generalize hsecond : packInt 2 iProtoNo = second
  have hfirstLength : first.length = 2 := hfirst ▸ length_packInt 2 _
  have hsecondLength : second.length = 2 := hsecond ▸ length_packInt 2 _
  have hstart := @memcpy_append _ [] (List.replicate (body.length + 4) 0) first
    (by rw [List.length_replicate]; omega)
  have hproto := @memcpy_append _ first (List.replicate (body.length + 2) 0)
    second (by rw [List.length_replicate]; omega)
  have hbody := @memcpy_append _ (first ++ second)
    (List.replicate body.length 0) body (by rw [List.length_replicate])
  rw [List.nil_append, List.nil_append, List.length_nil, hfirstLength,
    List.drop_replicate, Nat.add_sub_assoc (by decide)] at hstart
  rw [hfirstLength, hsecondLength, List.drop_replicate, Nat.add_sub_cancel] at hproto
  rw [List.length_append, hfirstLength, hsecondLength, List.drop_replicate,
    Nat.sub_self, List.replicate_zero, List.append_nil] at hbody
  rw [hheader, hstart, hproto, hbody, frameOf, hfirst, hsecond, List.append_assoc]

/-- `do_send_msg` puts the text into the pool and frames the message as the
server frames its packets. -/
theorem doSendMsg_eq {i : Nat} (h : InTest i) (memory : StPacket) (now : UInt64) :
    doSendMsg memory i (sendSize i) now = ({ memory with
          iPacketNo := Int32.ofNat i
          iProtoNo := 1
          iClientSendTime := now
          sendData := sendDataOf i },
        frameOf ProtocolMessageId.csHello.value (helloOf i).serialize) := by
  have hcontent : cString (contentArray i (sendSize i)) = helloText i (sendSize i) := by
    have hlog := log_lt_of_inTest h
    refine cString_contentArray ?_ ?_
    · rcases sendSize_cases i with hsize | hsize <;> omega
    · rw [length_decimal]
      omega
  simp only [doSendMsg, hcontent]
  rw [copied_eq_frameOf]
  rfl

/-- A packet with a new largest number goes to the end of the pool. -/
theorem poolInsert_of_forall_lt {packet : StPacket} {pool : List StPacket}
    (h : ∀ entry ∈ pool, entry.iPacketNo < packet.iPacketNo) :
    poolInsert packet pool = pool ++ [packet] := by
  induction pool with
  | nil => rfl
  | cons entry rest ih =>
    have hlt := h entry List.mem_cons_self
    rw [Int32.lt_iff_toInt_lt] at hlt
    rw [poolInsert, if_neg, if_neg, List.cons_append,
      ih fun other hother => h other (List.mem_cons_of_mem entry hother)]
    · rintro heq
      rw [heq] at hlt
      exact lt_irrefl _ hlt
    · rw [Int32.lt_iff_toInt_lt]
      omega

/-! ## A round of the receiving loop -/

namespace StClient

theorem buffer_eq_held_append (client : StClient) :
    client.buffer = client.held ++ client.buffer.drop client.recvedSize :=
  (List.take_append_drop _ _).symm

theorem length_held (client : StClient) : client.held.length = client.recvedSize := by
  rw [held, List.length_take, client.length_buffer]
  exact Nat.min_eq_left client.recvedSize_le

theorem held_read (client : StClient) {bytes : List Byte} (h : bytes.length ≤ client.iReadLen) :
    (client.read bytes h).held = client.held ++ bytes := by
  have hlength : (client.held ++ bytes).length = client.recvedSize + bytes.length := by
    rw [List.length_append, length_held]
  have hroom : client.recvedSize + bytes.length ≤ client.buffer.length :=
    client.length_buffer ▸ client.add_length_le h
  show (memcpy client.buffer client.recvedSize bytes).take _ = _
  rw [memcpy_eq hroom]
  exact List.take_left' hlength

theorem held_moveFront (client : StClient) (wPacketSize : Nat)
    (h : wPacketSize ≤ client.recvedSize) :
    (client.moveFront wPacketSize).held = client.held.drop wPacketSize := by
  have hle := client.recvedSize_le
  have hlength : (field client.buffer wPacketSize (client.recvedSize - wPacketSize)).length =
        client.recvedSize - wPacketSize :=
    length_field (by rw [client.length_buffer]; omega)
  have hcopied := @take_memcpy_zero _ client.buffer
    (field client.buffer wPacketSize (client.recvedSize - wPacketSize))
    (by rw [hlength, client.length_buffer]; omega)
  rw [hlength] at hcopied
  show (memcpy client.buffer 0 _).take (client.recvedSize - wPacketSize) = _
  rw [hcopied, field, held, List.drop_take]

end StClient

/-- The bytes of a reply, as the server sends it at the time `now`. -/
def replyBytes (rsp : CSHelloRsp) (now : UInt64) : List Byte :=
  frameOf ProtocolMessageId.csHello.value
    (rsp.serialize ++ NetPacketBuffer.prepareTail now)

theorem length_replyBytes (rsp : CSHelloRsp) (now : UInt64) :
    (replyBytes rsp now).length =
      protoHeaderSize + rsp.serialize.length + protoTailSize := by
  rw [replyBytes, length_frameOf, List.length_append,
    NetPacketBuffer.length_prepareTail, Nat.add_assoc]
  rfl

theorem natOfBytes_packInt {size n : Nat} (h : n < 256 ^ size) :
    natOfBytes (packInt size n) = n := by
  have hpow : (256 : Nat) ^ size = 2 ^ (8 * size) := by
    rw [Nat.pow_mul]
  rw [packInt, ofSigned_natCast (hpow ▸ h), natOfBytes_bytesOfNat, Nat.mod_eq_of_lt h]

/-- The layout of a reply: its size, the protocol, the message and the time. -/
theorem replyBytes_append (rsp : CSHelloRsp) (now : UInt64) (behind : List Byte) :
    replyBytes rsp now ++ behind = packInt 2 (replyBytes rsp now).length ++
      (packInt 2 ProtocolMessageId.csHello.value ++
        (rsp.serialize ++ (NetPacketBuffer.prepareTail now ++ behind))) := by
  have hsize : ((replyBytes rsp now).length : Int) = networkPacketHeaderSize +
      (rsp.serialize ++ NetPacketBuffer.prepareTail now).length := by
    rw [replyBytes, length_frameOf]
    push_cast
    rfl
  rw [hsize, replyBytes, frameOf]
  simp only [List.append_assoc]

section Layout

variable (rsp : CSHelloRsp) (now : UInt64) (behind : List Byte)

theorem natOfBytes_size_replyBytes (h : (replyBytes rsp now).length < 2 ^ 16) :
    natOfBytes ((replyBytes rsp now ++ behind).take 2) = (replyBytes rsp now).length := by
  rw [replyBytes_append, List.take_left' (length_packInt 2 _), natOfBytes_packInt h]

theorem field_protocol_replyBytes :
    field (replyBytes rsp now ++ behind) 2 2 =
      packInt 2 ProtocolMessageId.csHello.value := by
  have hfield := field_append (packInt 2 (replyBytes rsp now).length)
    (packInt 2 ProtocolMessageId.csHello.value)
    (rsp.serialize ++ (NetPacketBuffer.prepareTail now ++ behind))
  rwa [length_packInt, length_packInt, ← replyBytes_append] at hfield

theorem field_body_replyBytes :
    field (replyBytes rsp now ++ behind) protoHeaderSize rsp.serialize.length =
      rsp.serialize := by
  have hfield := field_append (packInt 2 (replyBytes rsp now).length ++
    packInt 2 ProtocolMessageId.csHello.value) rsp.serialize
    (NetPacketBuffer.prepareTail now ++ behind)
  rwa [List.length_append, length_packInt, length_packInt, List.append_assoc,
    ← replyBytes_append] at hfield

theorem field_tail_replyBytes :
    field (replyBytes rsp now ++ behind)
      (protoHeaderSize + rsp.serialize.length) protoTailSize = NetPacketBuffer.prepareTail now := by
  have hfield := field_append (packInt 2 (replyBytes rsp now).length ++
    (packInt 2 ProtocolMessageId.csHello.value ++ rsp.serialize))
    (NetPacketBuffer.prepareTail now) behind
  rw [List.length_append, List.length_append, length_packInt, length_packInt,
    ← Nat.add_assoc, NetPacketBuffer.length_prepareTail, List.append_assoc,
    List.append_assoc, ← replyBytes_append] at hfield
  exact hfield

end Layout

theorem natOfBytes_prepareTail (now : UInt64) :
    UInt64.ofNat (natOfBytes (NetPacketBuffer.prepareTail now)) = now := by
  rw [NetPacketBuffer.prepareTail, natOfBytes_packInt now.toNat_lt, UInt64.ofNat_toNat]

/-- A packet after its reply. -/
def StPacket.answered (packet : StPacket) (rsp : CSHelloRsp)
    (iServerInternalTimestamp now : UInt64) : StPacket :=
  ({ packet with
    iClientRecvTime := now
    recvData := packet.sendData } : StPacket).calcTTL rsp
      iServerInternalTimestamp

theorem StPacket.takeReply_eq {packet : StPacket} {rsp : CSHelloRsp}
    (hzero : 0 ∉ rsp.content) (hlength : rsp.content.length < arraySize)
    (hsent : packet.sendData = memcpy (List.replicate arraySize 0) 0 rsp.content)
    (iServerInternalTimestamp now : UInt64) :
    packet.takeReply rsp iServerInternalTimestamp now =
      some (packet.answered rsp iServerInternalTimestamp now) := by
  have hstring : stringOf packet.sendData = some rsp.content := by
    obtain ⟨k, hk⟩ : ∃ k, arraySize - rsp.content.length = k + 1 :=
      ⟨arraySize - rsp.content.length - 1, by omega⟩
    have hcopied := @memcpy_append _ [] (List.replicate arraySize 0)
      rsp.content (by rw [List.length_replicate]; exact hlength.le)
    rw [List.nil_append, List.nil_append, List.length_nil, List.drop_replicate,
      hk, List.replicate_succ] at hcopied
    rw [hsent, hcopied, stringOf, cString_append_zero hzero,
      if_pos (List.mem_append_right _ List.mem_cons_self)]
  rw [takeReply, cString_eq_self hzero]
  dsimp only
  rw [if_neg (Nat.not_lt.mpr hlength.le), ← hsent, hstring, Option.bind_some,
    Option.bind_some, if_pos rfl]
  rfl

namespace StClient

variable {client : StClient} {rsp : CSHelloRsp} {iServerInternalTimestamp : UInt64}
  {rest : List Byte}

/-- **A complete reply is handled.**  The reply at the front of the array is cut
out, its packet is found and updated, and the loop goes on if as many bytes are
left. -/
theorem recvBody_of_reply (parser : CSHelloRspParser)
    (hheld : client.held = replyBytes rsp iServerInternalTimestamp ++ rest)
    (hascii : ∀ c ∈ rsp.content, c < 128) (hzero : 0 ∉ rsp.content)
    (hlength : rsp.content.length < arraySize) {packet : StPacket}
    (hfind : client.packetPool.find? (fun packet =>
      packet.iPacketNo = rsp.id) = some packet)
    (hsent : packet.sendData = memcpy (List.replicate arraySize 0) 0 rsp.content) (now : UInt64) :
    ∃ client', client.recvBody parser now = some (.handled client' (decide (rest.length ≥
          (replyBytes rsp iServerInternalTimestamp).length))) ∧
      client'.held = rest ∧
      client'.packetPool = poolUpdate (packet.answered rsp iServerInternalTimestamp now)
        client.packetPool := by
  have hbuffer : client.buffer = replyBytes rsp iServerInternalTimestamp ++
      (rest ++ client.buffer.drop client.recvedSize) := by
    conv_lhs => rw [client.buffer_eq_held_append, hheld, List.append_assoc]
  have hrecved : client.recvedSize =
      (replyBytes rsp iServerInternalTimestamp).length + rest.length := by
    rw [← client.length_held, hheld, List.length_append]
  have hsmall : (replyBytes rsp iServerInternalTimestamp).length < 2 ^ 16 := by
    have hle := client.recvedSize_le
    have harray : arraySize = 1024 := rfl
    omega
  -- what the loop reads from the array
  have hwPacketSize := natOfBytes_size_replyBytes rsp iServerInternalTimestamp
    (rest ++ client.buffer.drop client.recvedSize) hsmall
  have hwPortoNo := field_protocol_replyBytes rsp iServerInternalTimestamp
    (rest ++ client.buffer.drop client.recvedSize)
  have hbody := field_body_replyBytes rsp iServerInternalTimestamp
    (rest ++ client.buffer.drop client.recvedSize)
  have hstamp := field_tail_replyBytes rsp iServerInternalTimestamp
    (rest ++ client.buffer.drop client.recvedSize)
  rw [← hbuffer] at hwPacketSize hwPortoNo hbody hstamp
  have hproto : (natOfBytes (packInt 2 ProtocolMessageId.csHello.value) : Int) =
      ProtocolMessageId.csHello.value := rfl
  have hreply := length_replyBytes rsp iServerInternalTimestamp
  generalize hsize : (replyBytes rsp iServerInternalTimestamp).length = size
    at hwPacketSize hrecved hreply
  have hbodySize : size - protoHeaderSize - protoTailSize =
      rsp.serialize.length := by
    omega
  have hpool : (client.moveFront size).packetPool = client.packetPool := rfl
  have hleft : (client.moveFront size).recvedSize = rest.length := by
    show client.recvedSize - size = _
    omega
  refine ⟨(client.moveFront size).withPool (poolUpdate
    (packet.answered rsp iServerInternalTimestamp now) client.packetPool),
    ?_, ?_, rfl⟩
  · simp only [recvBody, hwPacketSize, hwPortoNo, hproto, hbodySize, hbody,
      hstamp, natOfBytes_prepareTail, parser.parse_serialize rsp hascii, hpool,
      hfind, hleft, if_neg (show ¬ client.recvedSize < size by omega), ne_eq,
      not_true_eq_false, if_false,
      if_neg (show ¬ size < protoHeaderSize + protoTailSize by omega),
      Option.bind_some, StPacket.takeReply_eq hzero hlength hsent,
      Option.map_some]
  · show (client.moveFront size).held = rest
    rw [client.held_moveFront size (by omega), hheld, List.drop_left' hsize]

/-- **A reply that is not complete is left alone.**  Of a reply with at least
256 bytes one byte is enough: whatever the array holds behind it, the size read
is larger than one. -/
theorem recvBody_of_incomplete (parser : CSHelloRspParser) {more : List Byte}
    (hheld : client.held ++ more = replyBytes rsp iServerInternalTimestamp ++ rest)
    (hpos : 0 < client.recvedSize)
    (hshort : client.recvedSize < (replyBytes rsp iServerInternalTimestamp).length)
    (hlow : 256 ≤ (replyBytes rsp iServerInternalTimestamp).length)
    (hhigh : (replyBytes rsp iServerInternalTimestamp).length < 2 ^ 16)
    (now : UInt64) :
    client.recvBody parser now = some .incomplete := by
  generalize hsize : (replyBytes rsp iServerInternalTimestamp).length = size at hshort hlow hhigh
  suffices hlt : client.recvedSize < natOfBytes (client.buffer.take 2) by
    rw [recvBody]
    exact if_pos hlt
  obtain ⟨tail, hwords⟩ : ∃ tail, client.held ++ more = bytesOfNat 2 size ++ tail := by
    rw [hheld, replyBytes_append, hsize, packInt, ofSigned_natCast hhigh]
    exact ⟨_, rfl⟩
  have hlength := client.length_held
  have hbuffer := client.buffer_eq_held_append
  by_cases hone : client.recvedSize = 1
  · -- the second byte is an old one
    obtain ⟨a, ha⟩ := List.length_eq_one_iff.mp (hlength.trans hone)
    have hbyte : a.toNat = size / 256 := by
      rw [ha] at hwords
      have hhead : a = UInt8.ofNat (size / 256 ^ 1) := (List.cons.inj hwords).1
      rw [hhead, UInt8.toNat_ofNat']
      omega
    obtain ⟨b, hb⟩ := List.length_eq_one_iff.mp
      (show ((client.buffer.drop client.recvedSize).take 1).length = 1 by
        rw [List.length_take, List.length_drop, client.length_buffer, hone]
        rfl)
    have htake : client.buffer.take 2 = [a, b] := by
      rw [hbuffer, ha, List.singleton_append, List.take_succ_cons, hb]
    have hvalue : natOfBytes [a, b] = a.toNat * 256 + b.toNat := by
      simp [natOfBytes]
    rw [htake, hvalue, hbyte]
    omega
  · have htake : client.buffer.take 2 = bytesOfNat 2 size := by
      have hfirst : (client.held ++ more).take 2 = client.held.take 2 :=
        List.take_append_of_le_length (by omega)
      rw [hbuffer, List.take_append_of_le_length (by omega), ← hfirst, hwords,
        List.take_left' (length_bytesOfNat 2 size)]
    have hmod : size % 256 ^ 2 = size := Nat.mod_eq_of_lt hhigh
    rw [htake, natOfBytes_bytesOfNat, hmod]
    exact hshort

end StClient

end SocketClient
end GameServer
