import GameServer.Lib.Protobuf
import GameServer.Network.Framing

/-!
# The handler of client packets

`handle.cpp` answers a `CSHello` with a `CSHelloRsp` that repeats its fields and
adds two timestamps.  The request was accepted because its body has at most
`NETWORK_PACKET_BUFFER_MAX_SIZE` bytes; the reply is stored behind an assertion
with the same limit.  The reply is the longer message, so a request close to
the limit makes the server abort.

The messages are those of `hello.proto` and their bytes those of the protobuf
wire format.  `ParseFromArray` is a parameter: what it makes of a malformed body
is not fixed here, only that it decodes what a client serialises.
-/

namespace GameServer
namespace Gamehandle

open Lib Network

/-- `PROTOCOL_MESSAGE_ID` of `proto.h`. -/
inductive ProtocolMessageId where
  | csNull
  | csHello
  | csHelloRsp
  | csPlayer
  | ssHello
  | ssHelloRsp
deriving Repr, DecidableEq

/-- The number of a message on the wire. -/
def ProtocolMessageId.value : ProtocolMessageId → Int
  | .csNull => 0
  | .csHello => 1
  | .csHelloRsp => 2
  | .csPlayer => 3
  | .ssHello => 20001
  | .ssHelloRsp => 20002

/-- The varint of an `int32`: negative values are extended to 64 bits. -/
def int32Varint (value : Int32) : Nat :=
  ofSigned 64 value.toInt

/-- The message `CSHello`. -/
structure CSHello where
  id : Int32
  content : List Byte
deriving Repr, DecidableEq

/-- The message `CSHelloRsp`. -/
structure CSHelloRsp where
  id : Int32
  content : List Byte
  unpackTimestamp : UInt64
  logicTimestamp : UInt64
deriving Repr, DecidableEq

namespace CSHello

/-- The fields a `CSHello` is serialised with. -/
def fields (hello : CSHello) : List WireField :=
  varintField 1 (int32Varint hello.id) ++ bytesField 2 hello.content

/-- `SerializeToArray`. -/
def serialize (hello : CSHello) : List Byte :=
  writeFields hello.fields

/-- Take over one decoded field; unknown fields are skipped. -/
def mergeField (hello : CSHello) : WireField → CSHello
  | (1, .varint n) => { hello with id := Int32.ofInt n }
  | (2, .bytes b) => { hello with content := b }
  | _ => hello

/-- A decoder of `CSHello`, which stops at the first field it cannot read. -/
def decode (body : List Byte) : CSHello :=
  (readFields body.length body).foldl mergeField ⟨0, []⟩

end CSHello

namespace CSHelloRsp

/-- The fields a `CSHelloRsp` is serialised with. -/
def fields (rsp : CSHelloRsp) : List WireField :=
  varintField 1 (int32Varint rsp.id) ++ bytesField 2 rsp.content ++
    varintField 3 rsp.unpackTimestamp.toNat ++
    varintField 4 rsp.logicTimestamp.toNat

/-- `SerializeToArray`, whose length is `ByteSizeLong()`. -/
def serialize (rsp : CSHelloRsp) : List Byte :=
  writeFields rsp.fields

end CSHelloRsp

/-- `ParseFromArray` on a `CSHello`: the message after the call, whatever the
call returns.  Text in ASCII is decoded as it was serialised. -/
structure CSHelloParser where
  parseFromArray : List Byte → CSHello
  parse_serialize : ∀ hello : CSHello, (∀ c ∈ hello.content, c < 128) →
    parseFromArray hello.serialize = hello

/-- `HandleCSProtoHello`: `dwLogicTime` is the reading of `GetMilliSecond()` at
its start, `now` the one that stamps the reply's packet.  `none` is the abort
of a failed assertion. -/
def handleCSProtoHello (parser : CSHelloParser) (rstServerCtx : NetworkContext)
    (rstPacket : NetPacketBuffer) (dwLogicTime now : UInt64) :
    Option NetworkContext :=
  let stHello := parser.parseFromArray
    (rstPacket.buffer.take rstPacket.iBufferSize)
  let stHelloRsp : CSHelloRsp :=
    ⟨stHello.id, stHello.content, rstPacket.dwCreateTime, dwLogicTime⟩
  -- the reply goes out under the number of the request
  rstServerCtx.packetProduceProtobufPacket rstPacket.ulClientSeq
    rstPacket.iSockFd ProtocolMessageId.csHello.value stHelloRsp.serialize now

/-- `HandleCSProto`: messages other than `CSHello` are ignored. -/
def handleCSProto (parser : CSHelloParser) (rstServerCtx : NetworkContext)
    (rstPacket : NetPacketBuffer) (dwLogicTime now : UInt64) :
    Option NetworkContext :=
  if rstPacket.iProtoNo = ProtocolMessageId.csHello.value then
    handleCSProtoHello parser rstServerCtx rstPacket dwLogicTime now
  else
    some rstServerCtx

/-- The message `SSHelloRsp`. -/
structure SSHelloRsp where
  timestamp : UInt64
deriving Repr, DecidableEq

/-- `SerializeToArray`. -/
def SSHelloRsp.serialize (rsp : SSHelloRsp) : List Byte :=
  writeFields (varintField 1 rsp.timestamp.toNat)

/-- `HandleSSProtoHello`: `dwTimestamp` is the reading of `GetMilliSecond()` it
puts into the reply.  Of the request only the sender is used. -/
def handleSSProtoHello (ctx : NetworkContext) (rstPacket : NetPacketBuffer)
    (dwTimestamp now : UInt64) : Option NetworkContext :=
  let stHelloRsp : SSHelloRsp := ⟨dwTimestamp⟩
  ctx.packetProduceProtobufPacket rstPacket.ulClientSeq rstPacket.iSockFd
    ProtocolMessageId.ssHelloRsp.value stHelloRsp.serialize now

/-- `HandleSSProto`, for the context of a server or of a connector.
`HandleSSProtoHelloRsp` does nothing but write to the log. -/
def handleSSProto (ctx : NetworkContext) (rstPacket : NetPacketBuffer)
    (dwTimestamp now : UInt64) : Option NetworkContext :=
  if rstPacket.iProtoNo = ProtocolMessageId.ssHello.value then
    handleSSProtoHello ctx rstPacket dwTimestamp now
  else
    some ctx

/-! ## Serialised messages -/

/-- Truncating the varint of an `int32` gives the value back. -/
theorem ofInt_int32Varint (value : Int32) : Int32.ofInt (int32Varint value) = value := by
  have hlow := value.le_toInt
  have hhigh := value.toInt_lt
  have hsize : Int32.size = 2 ^ 32 := rfl
  apply Int32.toInt_inj.mp
  rw [Int32.toInt_ofInt, hsize, int32Varint, ofSigned, Int.bmod]
  omega

theorem int32Varint_lt (value : Int32) : int32Varint value < 2 ^ 64 := by
  unfold int32Varint ofSigned
  omega

/-- The varint of an `int32` is zero, and the field left out, for the default
value only. -/
theorem int32Varint_eq_zero_iff {value : Int32} : int32Varint value = 0 ↔ value = 0 := by
  constructor
  · intro h
    rw [← ofInt_int32Varint value, h]
    rfl
  · rintro rfl
    rfl

namespace CSHello

/-- Merging the fields of a message into the empty message gives it back. -/
theorem foldl_mergeField_fields (hello : CSHello) :
    hello.fields.foldl mergeField ⟨0, []⟩ = hello := by
  rw [fields, List.foldl_append, foldl_varintField, foldl_bytesField]
  · show (⟨Int32.ofInt (int32Varint hello.id), hello.content⟩ : CSHello) = hello
    rw [ofInt_int32Varint]
  -- the message into which a field is merged still has the default there
  · intro hnil
    rw [hnil]
    rfl
  · intro hzero
    rw [hzero]
    rfl

/-- The decoder reads every serialised message. -/
theorem decode_serialize (hello : CSHello) : decode hello.serialize = hello := by
  rw [decode, serialize, readFields_writeFields (length_le_length_writeFields hello.fields),
    foldl_mergeField_fields]

theorem length_serialize (hello : CSHello) :
    hello.serialize.length = varintFieldSize (int32Varint hello.id) +
      bytesFieldSize hello.content.length := by
  rw [serialize, fields, writeFields_append, List.length_append,
    length_writeFields_varintField (by decide),
    length_writeFields_bytesField (by decide)]

end CSHello

/-- The decoder above as a `ParseFromArray`. -/
def CSHelloParser.decoder : CSHelloParser where
  parseFromArray := CSHello.decode
  parse_serialize := fun hello _ => hello.decode_serialize

theorem CSHelloRsp.length_serialize (rsp : CSHelloRsp) :
    rsp.serialize.length = varintFieldSize (int32Varint rsp.id) +
      bytesFieldSize rsp.content.length +
      varintFieldSize rsp.unpackTimestamp.toNat +
      varintFieldSize rsp.logicTimestamp.toNat := by
  rw [serialize, fields, writeFields_append, writeFields_append,
    writeFields_append, List.length_append, List.length_append,
    List.length_append, length_writeFields_varintField (by decide),
    length_writeFields_bytesField (by decide),
    length_writeFields_varintField (by decide),
    length_writeFields_varintField (by decide)]

/-! ## The size of the reply -/

/-- The bytes a reply spends on everything but its content. -/
def replyOverhead (id : Int32) (unpackTimestamp logicTimestamp : UInt64) :
    Nat :=
  varintFieldSize (int32Varint id) + varintFieldSize unpackTimestamp.toNat +
    varintFieldSize logicTimestamp.toNat

theorem replyOverhead_le (id : Int32) (unpackTimestamp logicTimestamp : UInt64) :
    replyOverhead id unpackTimestamp logicTimestamp ≤ 33 := by
  have hid := varintFieldSize_le (int32Varint_lt id)
  have hunpack := varintFieldSize_le unpackTimestamp.toNat_lt
  have hlogic := varintFieldSize_le logicTimestamp.toNat_lt
  unfold replyOverhead
  omega

/-- Around the limit the content takes three bytes more than its length: the
tag and a length of two digits.  A shorter content is far from the limit. -/
theorem CSHelloRsp.length_serialize_le_iff (rsp : CSHelloRsp) :
    rsp.serialize.length ≤ networkPacketBufferMaxSize ↔
      rsp.content.length + 3 + replyOverhead rsp.id rsp.unpackTimestamp
        rsp.logicTimestamp ≤ networkPacketBufferMaxSize := by
  have hmax : networkPacketBufferMaxSize = 10240 := rfl
  have hoverhead := replyOverhead_le rsp.id rsp.unpackTimestamp rsp.logicTimestamp
  have hlength : rsp.serialize.length = bytesFieldSize rsp.content.length +
      replyOverhead rsp.id rsp.unpackTimestamp rsp.logicTimestamp := by
    rw [length_serialize, replyOverhead]
    ring
  rw [hlength]
  by_cases hshort : rsp.content.length < 128
  · have hsize : bytesFieldSize rsp.content.length ≤ 129 := by
      unfold bytesFieldSize
      rw [Nat.log_of_lt hshort]
      split_ifs <;> omega
    omega
  · have hdigits : 1 ≤ Nat.log 128 rsp.content.length :=
      Nat.log_pos (by decide) (by omega)
    have hsize : bytesFieldSize rsp.content.length =
        Nat.log 128 rsp.content.length + 2 + rsp.content.length := by
      rw [bytesFieldSize, if_neg (by omega)]
    by_cases hlong : rsp.content.length < 128 ^ 2
    · have hlog : Nat.log 128 rsp.content.length < 2 :=
        Nat.log_lt_of_lt_pow (by omega) hlong
      omega
    · omega

/-- The handler of a `CSHello` returns exactly when the reply fits into a memory
block. -/
theorem isSome_handleCSProtoHello_iff (parser : CSHelloParser)
    (rstServerCtx : NetworkContext) {rstPacket : NetPacketBuffer}
    (hsize : rstPacket.iBufferSize = rstPacket.buffer.length)
    (dwLogicTime now : UInt64) :
    (handleCSProtoHello parser rstServerCtx rstPacket dwLogicTime now).isSome ↔
      (parser.parseFromArray rstPacket.buffer).content.length + 3 +
        replyOverhead (parser.parseFromArray rstPacket.buffer).id
          rstPacket.dwCreateTime dwLogicTime ≤ networkPacketBufferMaxSize := by
  have hbody : rstPacket.buffer.take rstPacket.iBufferSize =
      rstPacket.buffer := by
    rw [hsize, List.take_length]
  simp only [handleCSProtoHello, hbody,
    NetworkContext.packetProduceProtobufPacket, Option.isSome_map,
    Option.isSome_iff_exists, NetPacketQueue.addPacket_eq_some_iff,
    exists_and_left, exists_eq, and_true]
  exact CSHelloRsp.length_serialize_le_iff _

/-- For a request that a client has serialised the reply is its body with the
two timestamps added. -/
theorem isSome_handleCSProtoHello_serialize_iff (parser : CSHelloParser)
    (rstServerCtx : NetworkContext) {rstPacket : NetPacketBuffer}
    {hello : CSHello} (hascii : ∀ c ∈ hello.content, c < 128)
    (hbuffer : rstPacket.buffer = hello.serialize)
    (hsize : rstPacket.iBufferSize = rstPacket.buffer.length)
    (dwLogicTime now : UInt64) :
    (handleCSProtoHello parser rstServerCtx rstPacket dwLogicTime now).isSome ↔
      rstPacket.buffer.length + varintFieldSize rstPacket.dwCreateTime.toNat +
        varintFieldSize dwLogicTime.toNat ≤ networkPacketBufferMaxSize := by
  have hreply := CSHelloRsp.length_serialize_le_iff
    ⟨hello.id, hello.content, rstPacket.dwCreateTime, dwLogicTime⟩
  rw [isSome_handleCSProtoHello_iff parser rstServerCtx hsize, hbuffer,
    parser.parse_serialize hello hascii, ← hreply, CSHelloRsp.length_serialize,
    CSHello.length_serialize]

/-- **When an accepted packet is answered.**  The server survives an accepted
packet exactly if it is not a `CSHello`, or the decoded content leaves room for
its own tag and length, the id and the two timestamps. -/
theorem isSome_handleCSProto_iff (parser : CSHelloParser)
    (rstServerCtx : NetworkContext) {rstPacket : NetPacketBuffer}
    (haccepted : AcceptedPacket rstPacket) (dwLogicTime now : UInt64) :
    (handleCSProto parser rstServerCtx rstPacket dwLogicTime now).isSome ↔
      (rstPacket.iProtoNo = ProtocolMessageId.csHello.value →
        (parser.parseFromArray rstPacket.buffer).content.length + 3 +
          replyOverhead (parser.parseFromArray rstPacket.buffer).id
            rstPacket.dwCreateTime dwLogicTime ≤
          networkPacketBufferMaxSize) := by
  obtain ⟨-, -, hsize⟩ := haccepted.bounds
  unfold handleCSProto
  split_ifs with hhello
  · rw [isSome_handleCSProtoHello_iff parser rstServerCtx hsize]
    exact ⟨fun h _ => h, fun h => h hhello⟩
  · exact ⟨fun _ h => (hhello h).elim, fun _ => rfl⟩

/-- A short greeting is answered. -/
theorem isSome_handleCSProto_iff_greeting :
    ∃ packet, AcceptedPacket packet ∧ packet.iProtoNo = 1 ∧
      packet.buffer = (CSHello.mk 5 [104, 105]).serialize ∧
      (handleCSProto .decoder .construct packet 1700000000000 1700000000000).isSome := by
  have hlength := CSHello.length_serialize ⟨5, [104, 105]⟩
  have hid := varintFieldSize_le (int32Varint_lt 5)
  have hcontent : bytesFieldSize 2 = 4 := by
    rw [bytesFieldSize, if_neg (by decide), Nat.log_of_lt (by decide)]
  have hmax : networkPacketBufferMaxSize = 10240 := rfl
  simp only [List.length_cons, List.length_nil, Nat.zero_add, Nat.reduceAdd, hcontent] at hlength
  obtain ⟨packet, haccepted, hproto, hbuffer⟩ :=
    @exists_acceptedPacket 1 (CSHello.mk 5 [104, 105]).serialize (by omega)
      (by omega) (by decide) (by decide)
  refine ⟨packet, haccepted, hproto, hbuffer,
    (isSome_handleCSProto_iff _ _ haccepted _ _).mpr fun _ => ?_⟩
  have hparse : CSHelloParser.decoder.parseFromArray packet.buffer = ⟨5, [104, 105]⟩ := by
    rw [hbuffer]
    exact CSHello.decode_serialize _
  have hoverhead := replyOverhead_le 5 packet.dwCreateTime 1700000000000
  rw [hparse, hmax]
  simp only [List.length_cons, List.length_nil]
  omega

/-- A `CSHello` with a content of 10237 letters has a body of exactly 10240
bytes and is accepted.  The reply repeats the content and adds the time, so it
does not fit and the server aborts. -/
theorem handleCSProto_eq_none_full_body :
    ∃ packet, AcceptedPacket packet ∧ packet.iProtoNo = 1 ∧
      packet.buffer = (CSHello.mk 0 (List.replicate 10237 97)).serialize ∧
      packet.buffer.length = 10240 ∧
      handleCSProto .decoder .construct packet 1700000000000 1700000000000 =
        none := by
  have hlength : (CSHello.mk 0 (List.replicate 10237 97)).serialize.length =
      10240 := by
    have hlog : Nat.log 128 10237 = 1 :=
      Nat.log_eq_of_pow_le_of_lt_pow (by decide) (by decide)
    rw [CSHello.length_serialize, List.length_replicate,
      int32Varint_eq_zero_iff.mpr rfl, bytesFieldSize, hlog]
    rfl
  have hmax : networkPacketBufferMaxSize = 10240 := rfl
  obtain ⟨packet, haccepted, hproto, hbuffer⟩ :=
    @exists_acceptedPacket 1 (CSHello.mk 0 (List.replicate 10237 97)).serialize
      (by omega) (by omega) (by decide) (by decide)
  have hascii : ∀ c ∈ List.replicate 10237 (97 : Byte), c < 128 := by
    intro c hc
    rw [List.eq_of_mem_replicate hc]
    decide
  have hlogic := @two_le_varintFieldSize (1700000000000 : UInt64).toNat (by decide)
  have hhello : packet.iProtoNo = ProtocolMessageId.csHello.value := hproto
  refine ⟨packet, haccepted, hproto, hbuffer, by rw [hbuffer, hlength], ?_⟩
  rw [handleCSProto, if_pos hhello, ← Option.not_isSome_iff_eq_none,
    isSome_handleCSProtoHello_serialize_iff _ _ hascii hbuffer
      haccepted.bounds.2.2, hbuffer, hlength]
  omega

end Gamehandle
end GameServer
