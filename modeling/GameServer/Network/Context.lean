import GameServer.Lib.Memory
import GameServer.Network.Queue

/-!
# The network context

`context.h`: the receive buffer of one client (`ST_ClientContextBuffer`), the
six packet queues and the signal of a `NetworkContext`, and the functions that
move packets between them.  The centre is `UnpackPacketToRecvQueue`, which cuts
the content of a receive buffer into frames.

The buffer is the byte array of the source, its pointer arithmetic is done with
offsets, and the leftover bytes are moved to the front with `memmove`.  Bytes
behind `m_iBufferSize` are stale and keep whatever was there before.
-/

namespace GameServer
namespace Network

open Lib

/-- `sizeof(m_chBuffer)` of `ST_ClientContextBuffer`. -/
def contextBufferCapacity : Nat := networkPacketBufferReadSize * 10

/-- `ST_ClientContextBuffer`, without the printable address. -/
structure ClientContextBuffer where
  ulClientSeq : UInt64
  iClientFd : Int
  iBufferSize : Int
  chBuffer : List Byte
  length_chBuffer : chBuffer.length = contextBufferCapacity

namespace ClientContextBuffer

/-- A buffer after `construct()` and the assignments of the client context's
constructor. -/
def construct (ulClientSeq : UInt64) (iClientFd : Int) :
    ClientContextBuffer where
  ulClientSeq := ulClientSeq
  iClientFd := iClientFd
  iBufferSize := 0
  chBuffer := List.replicate contextBufferCapacity 0
  length_chBuffer := List.length_replicate

/-- A client's buffer that holds the given bytes. -/
def ofContent (ulClientSeq : UInt64) (iClientFd : Int) (bytes : List Byte)
    (h : bytes.length ≤ contextBufferCapacity) : ClientContextBuffer where
  ulClientSeq := ulClientSeq
  iClientFd := iClientFd
  iBufferSize := bytes.length
  chBuffer := bytes ++ List.replicate (contextBufferCapacity - bytes.length) 0
  length_chBuffer := by
    rw [List.length_append, List.length_replicate]
    omega

/-- The bytes received and not yet consumed. -/
def content (client : ClientContextBuffer) : List Byte :=
  client.chBuffer.take client.iBufferSize.toNat

/-- `0 <= m_iBufferSize <= sizeof(m_chBuffer)`. -/
def InBounds (client : ClientContextBuffer) : Prop :=
  0 ≤ client.iBufferSize ∧ client.iBufferSize ≤ contextBufferCapacity

/-- The buffer belongs to the connection `ulClientSeq` on `iClientFd`. -/
def OwnedBy (client : ClientContextBuffer) (ulClientSeq : UInt64)
    (iClientFd : Int) : Prop :=
  client.ulClientSeq = ulClientSeq ∧ client.iClientFd = iClientFd

/-- `MoveBufferPtr` with the pointer given as an offset into the array. -/
def moveBufferPtr (client : ClientContextBuffer) (offset : Nat)
    (iLeftSize : Int) : ClientContextBuffer :=
  if iLeftSize ≤ 0 then
    { client with
      iBufferSize := 0
      chBuffer := List.replicate contextBufferCapacity 0
      length_chBuffer := List.length_replicate }
  else
    { client with
      iBufferSize := iLeftSize
      chBuffer := memcpy client.chBuffer 0
        ((client.chBuffer.drop offset).take iLeftSize.toNat)
      length_chBuffer := by
        rw [length_memcpy]
        exact client.length_chBuffer }

/-- Store received bytes behind the content: the copy and the update of
`m_iBufferSize` that both `PacketBufferRead` functions end with. -/
def append (client : ClientContextBuffer) (bytes : List Byte) :
    ClientContextBuffer :=
  { client with
    iBufferSize := client.iBufferSize + bytes.length
    chBuffer := memcpy client.chBuffer client.iBufferSize.toNat bytes
    length_chBuffer := by
      rw [length_memcpy]
      exact client.length_chBuffer }

/-- The free space behind the content. -/
def freeSpace (client : ClientContextBuffer) : Nat :=
  (contextBufferCapacity - client.iBufferSize).toNat

@[simp] theorem content_construct (ulClientSeq : UInt64) (iClientFd : Int) :
    (construct ulClientSeq iClientFd).content = [] := rfl

@[simp] theorem freeSpace_construct (ulClientSeq : UInt64) (iClientFd : Int) :
    (construct ulClientSeq iClientFd).freeSpace = contextBufferCapacity := by
  simp [freeSpace, construct]

@[simp] theorem content_ofContent (ulClientSeq : UInt64) (iClientFd : Int)
    (bytes : List Byte) (h : bytes.length ≤ contextBufferCapacity) :
    (ofContent ulClientSeq iClientFd bytes h).content = bytes :=
  List.take_left

theorem inBounds_ofContent (ulClientSeq : UInt64) (iClientFd : Int)
    (bytes : List Byte) (h : bytes.length ≤ contextBufferCapacity) :
    (ofContent ulClientSeq iClientFd bytes h).InBounds :=
  ⟨Int.natCast_nonneg _, Int.ofNat_le.mpr h⟩

theorem inBounds_construct (ulClientSeq : UInt64) (iClientFd : Int) :
    (construct ulClientSeq iClientFd).InBounds :=
  ⟨le_refl _, by simp [construct]⟩

variable {client : ClientContextBuffer}

theorem ownedBy_moveBufferPtr {ulClientSeq : UInt64} {iClientFd : Int}
    (h : client.OwnedBy ulClientSeq iClientFd) (offset : Nat) (iLeftSize : Int) :
    (client.moveBufferPtr offset iLeftSize).OwnedBy ulClientSeq iClientFd := by
  unfold moveBufferPtr
  split
  · exact h
  · exact h

/-- As long as the size is in bounds, it is the length of the content. -/
theorem InBounds.length_content (h : client.InBounds) :
    (client.content.length : Int) = client.iBufferSize := by
  obtain ⟨hlow, hhigh⟩ := h
  have hlength := client.length_chBuffer
  simp only [content, List.length_take]
  omega

theorem InBounds.length_add_freeSpace (h : client.InBounds) :
    client.content.length + client.freeSpace = contextBufferCapacity := by
  have hlength := h.length_content
  obtain ⟨hlow, hhigh⟩ := h
  unfold freeSpace
  omega

/-- Bytes that fit are appended to the content. -/
theorem content_append (h : client.InBounds) {bytes : List Byte}
    (hfits : bytes.length ≤ client.freeSpace) :
    (client.append bytes).content = client.content ++ bytes := by
  obtain ⟨hlow, hhigh⟩ := h
  have hlength := client.length_chBuffer
  unfold freeSpace at hfits
  show (memcpy client.chBuffer client.iBufferSize.toNat bytes).take
      (client.iBufferSize + bytes.length).toNat = client.content ++ bytes
  rw [memcpy_eq (by omega)]
  apply List.take_left'
  simp only [List.length_append, List.length_take]
  omega

/-- Bytes appended to an empty buffer. -/
theorem append_construct (ulClientSeq : UInt64) (iClientFd : Int)
    {bytes : List Byte} (h : bytes.length ≤ contextBufferCapacity) :
    (construct ulClientSeq iClientFd).append bytes = ofContent ulClientSeq iClientFd bytes h := by
  have hbytes : memcpy (List.replicate contextBufferCapacity 0) 0 bytes =
      bytes ++ List.replicate (contextBufferCapacity - bytes.length) 0 := by
    rw [memcpy_eq (by rw [List.length_replicate]; omega), List.take_zero,
      List.nil_append, List.drop_replicate, Nat.zero_add]
  simp [append, construct, ofContent, hbytes]

theorem inBounds_append (h : client.InBounds) {bytes : List Byte}
    (hfits : bytes.length ≤ client.freeSpace) :
    (client.append bytes).InBounds := by
  obtain ⟨hlow, hhigh⟩ := h
  unfold freeSpace at hfits
  show 0 ≤ client.iBufferSize + bytes.length ∧
    client.iBufferSize + bytes.length ≤ contextBufferCapacity
  omega

/-- Moving the bytes from `offset` on to the front drops the bytes before. -/
theorem content_moveBufferPtr (h : client.InBounds) {offset : Nat}
    {iLeftSize : Int} (hnonneg : 0 ≤ iLeftSize)
    (hsum : offset + iLeftSize = client.iBufferSize) :
    (client.moveBufferPtr offset iLeftSize).content = client.content.drop offset := by
  obtain ⟨hlow, hhigh⟩ := h
  have hlength := client.length_chBuffer
  unfold moveBufferPtr
  by_cases hleft : iLeftSize ≤ 0
  · rw [if_pos hleft]
    symm
    show client.content.drop offset = []
    rw [List.drop_eq_nil_iff, content, List.length_take]
    omega
  · rw [if_neg hleft]
    show (memcpy client.chBuffer 0 ((client.chBuffer.drop offset).take iLeftSize.toNat)).take
          iLeftSize.toNat = (client.chBuffer.take _).drop offset
    have hmoved : ((client.chBuffer.drop offset).take
        iLeftSize.toNat).length = iLeftSize.toNat := by
      simp only [List.length_take, List.length_drop]
      omega
    rw [memcpy_eq (by omega), List.take_zero, List.nil_append,
      List.take_left' hmoved, List.drop_take]
    congr 1
    omega

theorem inBounds_moveBufferPtr (h : client.InBounds) {offset : Nat}
    {iLeftSize : Int} (hsum : offset + iLeftSize = client.iBufferSize) :
    (client.moveBufferPtr offset iLeftSize).InBounds := by
  obtain ⟨hlow, hhigh⟩ := h
  unfold moveBufferPtr InBounds
  by_cases hleft : iLeftSize ≤ 0
  · rw [if_pos hleft]
    exact ⟨le_refl _, by simp⟩
  · rw [if_neg hleft]
    show 0 ≤ iLeftSize ∧ iLeftSize ≤ contextBufferCapacity
    omega

end ClientContextBuffer

/-- The queues and the signal of a `NetworkContext`. -/
structure NetworkContext where
  netPacketRecvPrepareQueue : NetPacketQueue
  netPacketRecvQueue : NetPacketQueue
  netPacketLogicQueue : NetPacketQueue
  netPacketSendPrepareQueue : NetPacketQueue
  netPacketSendQueue : NetPacketQueue
  netPacketSendCache : NetPacketQueue
  bHasSignal : Bool

namespace NetworkContext

/-- A context after its constructor. -/
def construct : NetworkContext where
  netPacketRecvPrepareQueue := .init
  netPacketRecvQueue := .init
  netPacketLogicQueue := .init
  netPacketSendPrepareQueue := .init
  netPacketSendQueue := .init
  netPacketSendCache := .init
  bHasSignal := false

/-- `PacketRecvPrepare`: publish the prepared packets to the receive queue. -/
def packetRecvPrepare (ctx : NetworkContext) : NetworkContext :=
  let queues := ctx.netPacketRecvQueue.copyFrom ctx.netPacketRecvPrepareQueue
  { ctx with
    netPacketRecvQueue := queues.1
    netPacketRecvPrepareQueue := queues.2 }

/-- `CopyPacketsFromNetToLogic`, with the packet count it returns. -/
def copyPacketsFromNetToLogic (ctx : NetworkContext) : NetworkContext × Nat :=
  let queues := NetPacketQueue.init.copyFrom ctx.netPacketRecvQueue
  ({ ctx with
      netPacketLogicQueue := queues.1
      netPacketRecvQueue := queues.2 },
    queues.1.size)

/-- `PacketProduceProtobufPacket` for a message that serialises to `proto`, so
that `ByteSizeLong()` is its length.  `none` when an assertion fails. -/
def packetProduceProtobufPacket (ctx : NetworkContext) (ulClientSeq : UInt64)
    (iClientFd iProtoNo : Int) (proto : List Byte) (now : UInt64) :
    Option NetworkContext :=
  (ctx.netPacketSendPrepareQueue.addPacket ulClientSeq iClientFd iProtoNo
    proto.length proto now).map fun queue =>
      { ctx with netPacketSendPrepareQueue := queue }

/-- `PacketSendPrepare`: hand the produced packets to the send queue. -/
def packetSendPrepare (ctx : NetworkContext) : NetworkContext :=
  let queues := ctx.netPacketSendQueue.copyFrom ctx.netPacketSendPrepareQueue
  { ctx with
    netPacketSendQueue := queues.1
    netPacketSendPrepareQueue := queues.2 }

/-- `PacketSendPrepareCache`, with the size of the cache it returns. -/
def packetSendPrepareCache (ctx : NetworkContext) : NetworkContext × Nat :=
  let queues := ctx.netPacketSendCache.copyFrom ctx.netPacketSendQueue
  ({ ctx with
      netPacketSendCache := queues.1
      netPacketSendQueue := queues.2 },
    queues.1.size)

/-- The packets decoded and not yet taken over by the logic thread, in decode
order: those published and those still being prepared. -/
def enqueued (ctx : NetworkContext) : List NetPacketBuffer :=
  ctx.netPacketRecvQueue.vecPacketPool ++
    ctx.netPacketRecvPrepareQueue.vecPacketPool

/-- `ST_GameSingnal::Emit`. -/
def emit (ctx : NetworkContext) : NetworkContext :=
  { ctx with bHasSignal := true }

/-- `ST_GameSingnal::CheckAndSetSignalActived`. -/
def checkAndSetSignalActived (ctx : NetworkContext) : NetworkContext × Bool :=
  ({ ctx with bHasSignal := false }, ctx.bHasSignal)

end NetworkContext

/-- What one round of the loop of `UnpackPacketToRecvQueue` decides. -/
inductive UnpackStep where
  /-- The loop ends: no complete frame is left. -/
  | incomplete
  /-- The function returns this error code. -/
  | error (iRet : Int)
  /-- `AddPacket` is called with the body at `ptr`; the frame takes
  `iPacketSize` bytes. -/
  | packet (iProtoNo : Int) (iBodySize : Nat) (ptr : List Byte)
      (iPacketSize : Nat)
deriving DecidableEq

/-- The loop condition and the body of the loop of `UnpackPacketToRecvQueue` up
to the call of `AddPacket`. -/
def unpackStep (chBuffer : List Byte) (offset : Nat) (iLeftSize : Int) :
    UnpackStep :=
  if iLeftSize ≥ networkPacketHeaderSize then
    let ptr := chBuffer.drop offset
    let iPacketSize := unpackInt 2 ptr
    -- a size below the header size also ends the loop without an error
    if iLeftSize < iPacketSize ∨ iPacketSize < networkPacketHeaderSize then
      .incomplete
    else
      let ptr := ptr.drop 2
      let iProtoNo := unpackInt 2 ptr
      let iBodySize := iPacketSize - networkPacketHeaderSize
      if 0 ≥ iBodySize then
        .error (-2)
      else if networkPacketBufferMaxSize < iBodySize then
        .error (-3)
      else
        .packet iProtoNo iBodySize.toNat (ptr.drop 2) iPacketSize.toNat
  else
    .incomplete

/-- A frame the loop accepts has a body and lies within the bytes left. -/
theorem unpackStep_packet_bounds {chBuffer ptr : List Byte} {offset : Nat}
    {iLeftSize iProtoNo : Int} {iBodySize iPacketSize : Nat}
    (h : unpackStep chBuffer offset iLeftSize = .packet iProtoNo iBodySize ptr iPacketSize) :
    0 < iBodySize ∧ iBodySize ≤ networkPacketBufferMaxSize ∧
      iPacketSize = iBodySize + networkPacketHeaderSize ∧
      (iPacketSize : Int) ≤ iLeftSize := by
  unfold unpackStep at h
  dsimp only at h
  split_ifs at h with hheader hincomplete hsmall hlarge
  obtain ⟨-, hbody, -, hpacket⟩ := UnpackStep.packet.inj h
  simp only [networkPacketHeaderSize, networkPacketBufferMaxSize] at *
  omega

/-- An error code of the loop is `-2` or `-3`. -/
theorem unpackStep_error_eq {chBuffer : List Byte} {offset : Nat}
    {iLeftSize iRet : Int}
    (h : unpackStep chBuffer offset iLeftSize = .error iRet) :
    iRet = -2 ∨ iRet = -3 := by
  unfold unpackStep at h
  dsimp only at h
  split_ifs at h with hheader hincomplete hsmall hlarge
  · exact Or.inl (UnpackStep.error.inj h).symm
  · exact Or.inr (UnpackStep.error.inj h).symm

/-- The local variables of `UnpackPacketToRecvQueue` where its loop is left,
with the code it returns. -/
structure UnpackLoopResult where
  queue : NetPacketQueue
  offset : Nat
  iLeftSize : Int
  iTotalPackets : Nat
  iRet : Int

/-- The loop of `UnpackPacketToRecvQueue`.  `clock` gives the reading of
`GetMilliSecond()` for each packet added. -/
def unpackLoop (client : ClientContextBuffer) (clock : Nat → UInt64)
    (queue : NetPacketQueue) (offset : Nat) (iLeftSize : Int)
    (iTotalPackets : Nat) : Option UnpackLoopResult :=
  match h : unpackStep client.chBuffer offset iLeftSize with
  | .incomplete => some ⟨queue, offset, iLeftSize, iTotalPackets, 0⟩
  | .error iRet => some ⟨queue, offset, iLeftSize, iTotalPackets, iRet⟩
  | .packet iProtoNo iBodySize ptr iPacketSize =>
    have hbounds := unpackStep_packet_bounds h
    have : (iLeftSize - iPacketSize).toNat < iLeftSize.toNat := by omega
    match queue.addPacket client.ulClientSeq client.iClientFd iProtoNo
        iBodySize ptr (clock iTotalPackets) with
    | none => none
    | some queue =>
      unpackLoop client clock queue (offset + iPacketSize)
        (iLeftSize - iPacketSize) (iTotalPackets + 1)
termination_by iLeftSize.toNat

section UnpackLoop

variable {client : ClientContextBuffer} {queue : NetPacketQueue}
  {offset : Nat} {iLeftSize : Int}

/-- One round of the loop, by what the round finds in front of it. -/
theorem unpackLoop_eq (clock : Nat → UInt64) (iTotalPackets : Nat) :
    unpackLoop client clock queue offset iLeftSize iTotalPackets =
      match unpackStep client.chBuffer offset iLeftSize with
      | .incomplete => some ⟨queue, offset, iLeftSize, iTotalPackets, 0⟩
      | .error iRet => some ⟨queue, offset, iLeftSize, iTotalPackets, iRet⟩
      | .packet iProtoNo iBodySize ptr iPacketSize =>
        (queue.addPacket client.ulClientSeq client.iClientFd iProtoNo
          iBodySize ptr (clock iTotalPackets)).bind fun queue =>
            unpackLoop client clock queue (offset + iPacketSize)
              (iLeftSize - iPacketSize) (iTotalPackets + 1) := by
  rw [unpackLoop]
  split
  · next h => rw [h]
  · next h => rw [h]
  · next h =>
    dsimp only
    rw [h]
    dsimp only
    split
    · next hadd => rw [hadd, Option.bind_none]
    · next hadd => rw [hadd, Option.bind_some]

theorem unpackLoop_of_incomplete (clock : Nat → UInt64) (iTotalPackets : Nat)
    (h : unpackStep client.chBuffer offset iLeftSize = .incomplete) :
    unpackLoop client clock queue offset iLeftSize iTotalPackets =
      some ⟨queue, offset, iLeftSize, iTotalPackets, 0⟩ := by
  rw [unpackLoop_eq, h]

theorem unpackLoop_of_error {iRet : Int} (clock : Nat → UInt64) (iTotalPackets : Nat)
    (h : unpackStep client.chBuffer offset iLeftSize = .error iRet) :
    unpackLoop client clock queue offset iLeftSize iTotalPackets =
      some ⟨queue, offset, iLeftSize, iTotalPackets, iRet⟩ := by
  rw [unpackLoop_eq, h]

theorem unpackLoop_of_packet {iProtoNo : Int} {iBodySize iPacketSize : Nat}
    {ptr : List Byte} {clock : Nat → UInt64} {iTotalPackets : Nat}
    {after : NetPacketQueue}
    (h : unpackStep client.chBuffer offset iLeftSize = .packet iProtoNo iBodySize ptr iPacketSize)
    (hadd : queue.addPacket client.ulClientSeq client.iClientFd iProtoNo
      iBodySize ptr (clock iTotalPackets) = some after) :
    unpackLoop client clock queue offset iLeftSize iTotalPackets =
      unpackLoop client clock after (offset + iPacketSize)
        (iLeftSize - iPacketSize) (iTotalPackets + 1) := by
  rw [unpackLoop_eq, h]
  dsimp only
  rw [hadd, Option.bind_some]

end UnpackLoop

/-- The state after a call of `UnpackPacketToRecvQueue`, and its result. -/
structure UnpackResult where
  ctx : NetworkContext
  client : ClientContextBuffer
  iRet : Int

/-- `UnpackPacketToRecvQueue`.  On an error the function returns at once: the
packets found so far stay in the prepare queue, the client's buffer keeps its
content and nothing is published.  (`GetContextBuffer` of both client classes
returns the address of a member, so the `NULL` check never fires.) -/
def unpackPacketToRecvQueue (ctx : NetworkContext)
    (client : ClientContextBuffer) (clock : Nat → UInt64) :
    Option UnpackResult :=
  (unpackLoop client clock ctx.netPacketRecvPrepareQueue 0 client.iBufferSize
    0).map fun loop =>
      let ctx := { ctx with netPacketRecvPrepareQueue := loop.queue }
      if loop.iRet ≠ 0 then
        ⟨ctx, client, loop.iRet⟩
      else
        let client := client.moveBufferPtr loop.offset loop.iLeftSize
        let ctx := ctx.packetRecvPrepare
        ⟨if loop.iTotalPackets > 0 then ctx.emit else ctx, client, 0⟩

end Network
end GameServer
