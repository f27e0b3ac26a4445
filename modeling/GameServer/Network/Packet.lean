import GameServer.Lib.BigEndian

/-!
# Packets and their wire image

The data model of the network layer: the size limits of `defines.h`, the
integer packing of `unpack.h`, the packet class of `packet.h` with the memory
block of `packet_pool.h`, and the bytes a client context writes for a packet.

A frame on the wire is a big-endian signed 16-bit total size, a big-endian
16-bit protocol number and the body.  The sending side appends a timestamp of
eight bytes to every frame and counts it in the total size.

The packet memory pool hands every packet a block of its own, so the block's
content is carried by value: `NetPacketBuffer.buffer` is what `GetBuffer()`
points to, cut at `GetBufferSize()`.  The pool itself is modelled in
`PacketPool`, and `PoolState.refines_valueQueues` says that the queues cannot
tell the difference.
-/

namespace GameServer
namespace Network

open Lib

/-- `BYTE`. -/
abbrev Byte := UInt8

/-- `NETWORK_PACKET_BUFFER_DEFAULT_SIZE`: bytes stored inline in a block. -/
def networkPacketBufferDefaultSize : Nat := 256

/-- `NETWORK_PACKET_BUFFER_MAX_SIZE`: the longest body of one packet. -/
def networkPacketBufferMaxSize : Nat := 10240

/-- `NETWORK_PACKET_BUFFER_READ_SIZE`. -/
def networkPacketBufferReadSize : Nat := 10 * 1024

/-- `NETWORK_PACKET_HEADER_SIZE`: two 16-bit integers. -/
def networkPacketHeaderSize : Nat := 2 * 2

/-- `NETWORK_PACKET_TAIL_SIZE`: one `size_t`. -/
def networkPacketTailSize : Nat := 8

/-- `UnpackInt` for a signed integer type of `size` bytes: the value at the
front of `buffer`, in network byte order. -/
def unpackInt (size : Nat) (buffer : List Byte) : Int :=
  toSigned (8 * size) (natOfBytes (buffer.take size))

/-- `PackInt` for an integer type of `size` bytes: the bytes stored for
`value`, in network byte order. -/
def packInt (size : Nat) (value : Int) : List Byte :=
  bytesOfNat size (ofSigned (8 * size) value)

@[simp] theorem length_packInt (size : Nat) (value : Int) : (packInt size value).length = size :=
  length_bytesOfNat size _

/-- Unpacking a packed 16-bit integer gives it back. -/
theorem unpackInt_packInt_append {value : Int} (hlow : -2 ^ 15 ≤ value)
    (hhigh : value < 2 ^ 15) (tail : List Byte) :
    unpackInt 2 (packInt 2 value ++ tail) = value := by
  have htake : (packInt 2 value ++ tail).take 2 = packInt 2 value :=
    List.take_left' (length_packInt 2 value)
  have hword : ofSigned 16 value % 256 ^ 2 = ofSigned 16 value := by
    apply Nat.mod_eq_of_lt
    unfold ofSigned
    omega
  rw [unpackInt, htake, packInt, natOfBytes_bytesOfNat, hword]
  exact toSigned_ofSigned (by decide) hlow hhigh

/-- Packing the 16-bit integer at the front of a buffer gives its bytes back. -/
theorem packInt_unpackInt {buffer : List Byte} (h : 2 ≤ buffer.length) :
    packInt 2 (unpackInt 2 buffer) = buffer.take 2 := by
  have hlength : (buffer.take 2).length = 2 := by
    rw [List.length_take]
    omega
  have hlt := natOfBytes_lt (buffer.take 2)
  rw [hlength] at hlt
  rw [packInt, unpackInt, ofSigned_toSigned hlt]
  have hback := bytesOfNat_natOfBytes (buffer.take 2)
  rwa [hlength] at hback

/-- A 16-bit integer read off the wire lies in the signed 16-bit range. -/
theorem unpackInt_two_bounds (buffer : List Byte) :
    -2 ^ 15 ≤ unpackInt 2 buffer ∧ unpackInt 2 buffer < 2 ^ 15 := by
  have hlt := natOfBytes_lt (buffer.take 2)
  have hpow : 256 ^ (buffer.take 2).length ≤ 256 ^ 2 :=
    Nat.pow_le_pow_right (by decide) (by simp)
  unfold unpackInt toSigned
  split <;> omega

/-- Only the first two bytes matter for a 16-bit integer. -/
theorem unpackInt_two_append {buffer : List Byte} (h : 2 ≤ buffer.length)
    (tail : List Byte) : unpackInt 2 (buffer ++ tail) = unpackInt 2 buffer := by
  rw [unpackInt, unpackInt, List.take_append_of_le_length h]

/-- `ST_PacketMemory::Init`: the bytes a memory block holds after it.  Bodies
that do not fit the inline array go to an extra allocation, behind an
assertion; `none` is the abort of the failed assertion. -/
def packetMemoryInit (iBufferSize : Nat) (pchBuffer : List Byte) :
    Option (List Byte) :=
  if networkPacketBufferDefaultSize ≤ iBufferSize then
    if networkPacketBufferMaxSize ≥ iBufferSize then
      some (pchBuffer.take iBufferSize)
    else
      none
  else
    some (pchBuffer.take iBufferSize)

/-- A block accepts exactly the bodies of at most the maximal size. -/
theorem packetMemoryInit_eq_some_iff {iBufferSize : Nat}
    {pchBuffer bytes : List Byte} :
    packetMemoryInit iBufferSize pchBuffer = some bytes ↔ iBufferSize ≤ networkPacketBufferMaxSize ∧
        bytes = pchBuffer.take iBufferSize := by
  have hsizes : networkPacketBufferDefaultSize ≤ networkPacketBufferMaxSize :=
    by decide
  unfold packetMemoryInit
  split_ifs with hinline hmax
  · rw [Option.some.injEq, eq_comm]
    exact ⟨fun h => ⟨hmax, h⟩, fun h => h.2⟩
  · constructor
    · intro h
      cases h
    · intro h
      exact (hmax h.1).elim
  · rw [Option.some.injEq, eq_comm]
    exact ⟨fun h => ⟨by omega, h⟩, fun h => h.2⟩

/-- `NetPacketBuffer`. -/
structure NetPacketBuffer where
  ulClientSeq : UInt64
  iSockFd : Int
  iProtoNo : Int
  iBufferSize : Nat
  dwCreateTime : UInt64
  buffer : List Byte
deriving Repr, DecidableEq

namespace NetPacketBuffer

/-- The constructor of `NetPacketBuffer` that fills the memory block; `now` is
the reading of `GetMilliSecond()` it stamps the packet with. -/
def create (ulClientSeq : UInt64) (iSockFd iProtoNo : Int) (iBufferSize : Nat)
    (pchBuffer : List Byte) (now : UInt64) : Option NetPacketBuffer :=
  (packetMemoryInit iBufferSize pchBuffer).map fun bytes =>
    ⟨ulClientSeq, iSockFd, iProtoNo, iBufferSize, now, bytes⟩

/-- What the wire carries of a packet: protocol number and body. -/
def wire (packet : NetPacketBuffer) : Int × List Byte :=
  (packet.iProtoNo, packet.buffer)

/-- `PrepareHeader`.  Both integers are converted to `int16_t`. -/
def prepareHeader (packet : NetPacketBuffer) : List Byte :=
  packInt 2 (packet.iBufferSize + networkPacketHeaderSize +
      networkPacketTailSize) ++
    packInt 2 packet.iProtoNo

/-- `PrepareTail`: the reading of `GetMilliSecond()` as eight bytes. -/
def prepareTail (now : UInt64) : List Byte :=
  packInt networkPacketTailSize now.toNat

/-- `PacketBufferSend` of a client context: the bytes it writes for a packet
when `GetMilliSecond()` reads `now`. -/
def packetBufferSend (packet : NetPacketBuffer) (now : UInt64) : List Byte :=
  packet.prepareHeader ++ packet.buffer ++ prepareTail now

@[simp] theorem length_prepareTail (now : UInt64) :
    (prepareTail now).length = networkPacketTailSize :=
  length_packInt _ _

/-- The constructor succeeds exactly below the size limit, and stores the front
of the bytes it is given. -/
theorem create_eq_some_iff {ulClientSeq : UInt64} {iSockFd iProtoNo : Int}
    {iBufferSize : Nat} {pchBuffer : List Byte} {now : UInt64}
    {packet : NetPacketBuffer} :
    create ulClientSeq iSockFd iProtoNo iBufferSize pchBuffer now = some packet ↔
      iBufferSize ≤ networkPacketBufferMaxSize ∧
        packet = ⟨ulClientSeq, iSockFd, iProtoNo, iBufferSize, now,
          pchBuffer.take iBufferSize⟩ := by
  unfold create
  rw [Option.map_eq_some_iff]
  constructor
  · rintro ⟨bytes, hbytes, rfl⟩
    obtain ⟨hmax, rfl⟩ := packetMemoryInit_eq_some_iff.mp hbytes
    exact ⟨hmax, rfl⟩
  · rintro ⟨hmax, rfl⟩
    exact ⟨_, packetMemoryInit_eq_some_iff.mpr ⟨hmax, rfl⟩, rfl⟩

end NetPacketBuffer

end Network
end GameServer
