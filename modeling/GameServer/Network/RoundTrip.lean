import GameServer.Network.Framing

/-!
# What a peer decodes of the packets sent to it

`PacketBufferSend` writes a header, the body and a timestamp of eight bytes,
and counts all three in the size field.  `UnpackPacketToRecvQueue` takes
everything behind the header for the body.  The frame boundaries therefore
agree, but the timestamp ends up in the body of the decoded packet: a packet
never comes back as it was sent.  (The example client strips the timestamp
itself; no receiving path of the server library does.)

For the same reason the two sides do not agree on the size limit: the sender
applies it to the body, the receiver to the body with the timestamp.
-/

namespace GameServer
namespace Network

/-- A packet given to `PacketBufferSend`, with the reading of
`GetMilliSecond()` at that moment.  The size is that of the body, and the
frame the packet becomes is one the receiver accepts. -/
structure Transmission where
  packet : NetPacketBuffer
  now : UInt64
  sized : packet.iBufferSize = packet.buffer.length
  nonempty : 0 < packet.buffer.length
  fits : packet.buffer.length + networkPacketTailSize ≤
    networkPacketBufferMaxSize
  protoNo : -2 ^ 15 ≤ packet.iProtoNo ∧ packet.iProtoNo < 2 ^ 15

/-- What a handler reads of a packet: `GetProtoNo()`, `GetBufferSize()` and the
bytes at `GetBuffer()`. -/
def NetPacketBuffer.delivered (packet : NetPacketBuffer) :
    Int × Nat × List Byte :=
  (packet.iProtoNo, packet.iBufferSize, packet.buffer)

/-- What `PacketBufferSend` writes is one frame, whose body is the packet's body
with the timestamp behind it. -/
theorem NetPacketBuffer.packetBufferSend_eq_frameOf (packet : NetPacketBuffer)
    (hsized : packet.iBufferSize = packet.buffer.length) (now : UInt64) :
    packet.packetBufferSend now = frameOf packet.iProtoNo (packet.buffer ++ prepareTail now) := by
  have hsize : (packet.iBufferSize + networkPacketHeaderSize + networkPacketTailSize : Int) =
        networkPacketHeaderSize + (packet.buffer ++ prepareTail now).length := by
    rw [List.length_append, length_prepareTail, hsized]
    push_cast
    ring
  simp only [packetBufferSend, prepareHeader, hsize, frameOf, List.append_assoc]

namespace Transmission

/-- The bytes written for one packet. -/
def bytes (sent : Transmission) : List Byte :=
  sent.packet.packetBufferSend sent.now

/-- The bytes written for a list of packets, one after the other. -/
def stream (sents : List Transmission) : List Byte :=
  (sents.map bytes).flatten

/-- The body as the receiver cuts it out of the frame. -/
def receivedBody (sent : Transmission) : List Byte :=
  sent.packet.buffer ++ NetPacketBuffer.prepareTail sent.now

theorem length_receivedBody (sent : Transmission) :
    sent.receivedBody.length =
      sent.packet.buffer.length + networkPacketTailSize := by
  rw [receivedBody, List.length_append, NetPacketBuffer.length_prepareTail]

/-- The bytes written are one frame around the received body. -/
theorem bytes_eq_frameOf (sent : Transmission) :
    sent.bytes = frameOf sent.packet.iProtoNo sent.receivedBody :=
  sent.packet.packetBufferSend_eq_frameOf sent.sized sent.now

/-- The receiver finds the frame boundary where the sender put it, and the
timestamp in the body. -/
theorem scanFrame_bytes_append (sent : Transmission) (rest : List Byte) :
    scanFrame (sent.bytes ++ rest) = .frame (sent.packet.iProtoNo, sent.receivedBody) rest := by
  have hbody := sent.length_receivedBody
  have hfits := sent.fits
  have hnonempty := sent.nonempty
  rw [sent.bytes_eq_frameOf]
  exact scanFrame_frameOf_append (by omega) (by omega) sent.protoNo.1 sent.protoNo.2 rest

/-- A stream of sent packets parses into as many frames, without an error and
without a remainder. -/
theorem referenceParse_stream (sents : List Transmission) :
    referenceParse (stream sents) =
      ⟨sents.map fun sent => (sent.packet.iProtoNo, sent.receivedBody), none, []⟩ := by
  induction sents with
  | nil => exact referenceParse_of_more rfl
  | cons sent sents ih =>
    have hframe := sent.scanFrame_bytes_append (stream sents)
    have hstream : stream (sent :: sents) = sent.bytes ++ stream sents := rfl
    rw [hstream, referenceParse_of_frame hframe, ih]
    rfl

end Transmission

/-- The size of a decoded packet is the length of its body, so the wire image
determines what a handler reads. -/
theorem map_delivered_of_cameFrom {ulClientSeq : UInt64} {iClientFd : Int}
    {packets : List NetPacketBuffer}
    (h : ∀ packet ∈ packets, CameFrom ulClientSeq iClientFd packet) :
    packets.map NetPacketBuffer.delivered = (packets.map NetPacketBuffer.wire).map
        fun p => (p.1, p.2.length, p.2) := by
  rw [List.map_map]
  apply List.map_congr_left
  intro packet hpacket
  obtain ⟨-, -, hsize⟩ := h packet hpacket
  simp only [NetPacketBuffer.delivered, NetPacketBuffer.wire, Function.comp_apply, hsize]

/-- **What the receiver decodes.**  Whatever the cut of the bytes sent, a fresh
client decodes one packet for each one sent, in order and with its protocol
number, but with the timestamp appended to the body. -/
theorem feedChunks_stream (api : BuffereventRead) (clock : Nat → Nat → UInt64)
    {ctx : NetworkContext} (hctx : ctx.netPacketRecvQueue.Counted)
    (ulClientSeq : UInt64) (iClientFd : Int) (sents : List Transmission)
    {chunks : List (List Byte)}
    (hcut : chunks.flatten = Transmission.stream sents)
    (hfit : ChunksFit api clock ctx (.construct ulClientSeq iClientFd) chunks) :
    ∃ result added, feedChunks api clock ctx (.construct ulClientSeq iClientFd) chunks =
          some result ∧
        result.ctx.enqueued = ctx.enqueued ++ added ∧
        added.map NetPacketBuffer.delivered = sents.map fun sent =>
          (sent.packet.iProtoNo, sent.packet.iBufferSize + networkPacketTailSize,
            sent.receivedBody) := by
  obtain ⟨result, added, hfeed, henqueued, hwire, hcame, -, -, -⟩ :=
    feedChunks_construct api clock hctx.noneHidden ulClientSeq iClientFd hcut hfit
  refine ⟨result, added, hfeed, henqueued, ?_⟩
  rw [map_delivered_of_cameFrom hcame, hwire, Transmission.referenceParse_stream, List.map_map]
  apply List.map_congr_left
  intro sent _
  rw [sent.sized, ← sent.length_receivedBody]
  rfl

/-- The receiver decodes the packets that were sent: as many, in the same
order, each with its protocol number, its size and its body. -/
def DecodesAsSent (api : BuffereventRead) (clock : Nat → Nat → UInt64)
    (ctx : NetworkContext) (ulClientSeq : UInt64) (iClientFd : Int)
    (sents : List Transmission) (chunks : List (List Byte)) : Prop :=
  ∃ result added,
    feedChunks api clock ctx (.construct ulClientSeq iClientFd) chunks =
        some result ∧
      result.ctx.enqueued = ctx.enqueued ++ added ∧
      added.map NetPacketBuffer.delivered =
        sents.map fun sent => sent.packet.delivered

/-- A packet's size never survives the way over the wire. -/
theorem not_decodesAsSent_cons {api : BuffereventRead}
    {clock : Nat → Nat → UInt64} {ctx : NetworkContext}
    (hctx : ctx.netPacketRecvQueue.Counted) {ulClientSeq : UInt64}
    {iClientFd : Int} {sent : Transmission} {sents : List Transmission}
    {chunks : List (List Byte)}
    (hcut : chunks.flatten = Transmission.stream (sent :: sents))
    (hfit : ChunksFit api clock ctx (.construct ulClientSeq iClientFd) chunks) :
    ¬ DecodesAsSent api clock ctx ulClientSeq iClientFd (sent :: sents)
      chunks := by
  rintro ⟨result, added, hfeed, henqueued, hsame⟩
  obtain ⟨result', added', hfeed', henqueued', hdecoded⟩ :=
    feedChunks_stream api clock hctx ulClientSeq iClientFd _ hcut hfit
  obtain rfl : result' = result :=
    Option.some.inj (hfeed'.symm.trans hfeed)
  obtain rfl : added' = added :=
    List.append_cancel_left (henqueued'.symm.trans henqueued)
  -- the two descriptions of the first decoded packet differ in its size
  rw [hdecoded, List.map_cons, List.map_cons] at hsame
  have hfirst := (List.cons.inj hsame).1
  have hsize := congrArg (fun packet => packet.2.1) hfirst
  have htail : networkPacketTailSize = 8 := rfl
  simp only [NetPacketBuffer.delivered] at hsize
  omega

/-- **Decoding undoes encoding only when nothing was sent.**  The receiver
decodes exactly the packets sent if and only if there were none. -/
theorem decodesAsSent_iff_eq_nil (api : BuffereventRead)
    (clock : Nat → Nat → UInt64) (ctx : NetworkContext)
    (hctx : ctx.netPacketRecvQueue.Counted) (ulClientSeq : UInt64)
    (iClientFd : Int) (sents : List Transmission) (chunks : List (List Byte))
    (hcut : chunks.flatten = Transmission.stream sents)
    (hfit : ChunksFit api clock ctx (.construct ulClientSeq iClientFd) chunks) :
    DecodesAsSent api clock ctx ulClientSeq iClientFd sents chunks ↔ sents = [] := by
  constructor
  · intro hdecodes
    cases sents with
    | nil => rfl
    | cons sent sents =>
      exact (not_decodesAsSent_cons hctx hcut hfit hdecodes).elim
  · rintro rfl
    obtain ⟨result, added, hfeed, henqueued, hdecoded⟩ :=
      feedChunks_stream api clock hctx ulClientSeq iClientFd [] hcut hfit
    exact ⟨result, added, hfeed, henqueued, hdecoded⟩

/-- A request of two bytes under protocol number 20001, sent at time 5. -/
def sampleTransmission : Transmission where
  packet := ⟨3, 9, 20001, 2, 0, [8, 1]⟩
  now := 5
  sized := rfl
  nonempty := by decide
  fits := by decide
  protoNo := by decide

theorem decodesAsSent_iff_eq_nil_sample :
    DecodesAsSent .ofList (fun _ _ => 0) .construct 1 7 [sampleTransmission]
        [sampleTransmission.bytes] ↔
      [sampleTransmission] = [] :=
  decodesAsSent_iff_eq_nil .ofList (fun _ _ => 0) .construct
    NetPacketQueue.counted_init 1 7 [sampleTransmission]
    [sampleTransmission.bytes] rfl
    (chunksFit_of_length_le _ _ NetPacketQueue.counted_init.noneHidden
      (ClientContextBuffer.inBounds_construct 1 7) _
      (by rw [ClientContextBuffer.freeSpace_construct]; decide))

/-- The request comes back with ten bytes instead of two. -/
theorem not_decodesAsSent_sample :
    ¬ DecodesAsSent .ofList (fun _ _ => 0) .construct 1 7
      [sampleTransmission] [sampleTransmission.bytes] :=
  not_decodesAsSent_cons NetPacketQueue.counted_init rfl
    (chunksFit_of_length_le _ _ NetPacketQueue.counted_init.noneHidden
      (ClientContextBuffer.inBounds_construct 1 7) _
      (by rw [ClientContextBuffer.freeSpace_construct]; decide))

/-! ## The size limit -/

/-- The frame of a packet, at the front of the client's buffer and followed by
`rest`, is accepted: it is enqueued as one packet, and the call goes on with
`rest`, whose verdict it returns. -/
def AcceptsFrame (ctx : NetworkContext) (client : ClientContextBuffer)
    (clock : Nat → UInt64) (frame rest : List Byte) : Prop :=
  ∃ result received later,
    unpackPacketToRecvQueue ctx client clock = some result ∧
      result.ctx.enqueued = ctx.enqueued ++ received :: later ∧
      frameOf received.iProtoNo received.buffer = frame ∧
      later.map NetPacketBuffer.wire = (referenceParse rest).packets ∧
      result.iRet = (referenceParse rest).error.getD 0 ∧
      (result.iRet = 0 →
        result.client.content = (referenceParse rest).rest)

section SizeLimit

variable {ctx : NetworkContext} {client : ClientContextBuffer}
  {iProtoNo : Int} {body rest : List Byte}

/-- A frame within the receiver's limits is accepted. -/
theorem acceptsFrame_of_length_le (hctx : ctx.netPacketRecvQueue.NoneHidden)
    (hclient : client.InBounds) (clock : Nat → UInt64)
    (hcontent : client.content = frameOf iProtoNo body ++ rest)
    (hproto : -2 ^ 15 ≤ iProtoNo ∧ iProtoNo < 2 ^ 15)
    (hpos : 0 < body.length)
    (hmax : body.length ≤ networkPacketBufferMaxSize) :
    AcceptsFrame ctx client clock (frameOf iProtoNo body) rest := by
  obtain ⟨result, added, hcall, henqueued, hwire, -, hret, hrest, -⟩ :=
    unpackPacketToRecvQueue_spec hctx hclient clock
  have hframe := scanFrame_frameOf_append hpos hmax hproto.1 hproto.2 rest
  rw [hcontent, referenceParse_of_frame hframe] at hwire hret hrest
  obtain ⟨received, later, rfl, hfirst, hlater⟩ :=
    List.map_eq_cons_iff.mp hwire
  obtain ⟨hno, hbuffer⟩ := Prod.mk.inj hfirst
  refine ⟨result, received, later, hcall, henqueued, ?_, hlater, hret, hrest⟩
  rw [hno, hbuffer]

/-- A frame above the limit makes the call return an error, and nothing of it
is enqueued. -/
theorem not_acceptsFrame_of_length_lt (hctx : ctx.netPacketRecvQueue.NoneHidden)
    (hclient : client.InBounds) (clock : Nat → UInt64)
    (hcontent : client.content = frameOf iProtoNo body ++ rest)
    (hmax : networkPacketBufferMaxSize < body.length)
    (hsize : networkPacketHeaderSize + body.length < 2 ^ 15) :
    ¬ AcceptsFrame ctx client clock (frameOf iProtoNo body) rest := by
  rintro ⟨result, received, later, hcall, henqueued, -⟩
  obtain ⟨result', added, hcall', henqueued', hwire, -⟩ :=
    unpackPacketToRecvQueue_spec hctx hclient clock
  obtain rfl : result = result' := Option.some.inj (hcall.symm.trans hcall')
  have hread : unpackInt 2 (frameOf iProtoNo body ++ rest) =
      networkPacketHeaderSize + body.length := by
    rw [frameOf, List.append_assoc, unpackInt_packInt_append (by omega) (by omega)]
  have hfail : scanFrame (frameOf iProtoNo body ++ rest) = .fail (-3) := by
    rw [scanFrame_eq_fail_iff, hread, List.length_append, length_frameOf]
    exact ⟨by omega, by omega, .inr ⟨by omega, rfl⟩⟩
  rw [hcontent, referenceParse_of_fail hfail, List.map_eq_nil_iff] at hwire
  have hnone := List.append_cancel_left (henqueued.symm.trans henqueued')
  rw [hwire] at hnone
  cases hnone

/-- **Which packets the receiver accepts.**  A packet that `AddPacket` admits on
the sending side, under any 16-bit protocol number, is accepted by the receiver
of its frame, whatever follows the frame, exactly when its body and the
timestamp together stay within the limit. -/
theorem acceptsFrame_iff (ctx : NetworkContext)
    (hctx : ctx.netPacketRecvQueue.NoneHidden) (client : ClientContextBuffer)
    (hclient : client.InBounds) (clock : Nat → UInt64) (ulClientSeq : UInt64)
    (iSockFd iProtoNo : Int) (hproto : -2 ^ 15 ≤ iProtoNo ∧ iProtoNo < 2 ^ 15)
    (body : List Byte) (created now : UInt64) (packet : NetPacketBuffer)
    (hadmitted : NetPacketBuffer.create ulClientSeq iSockFd iProtoNo
      body.length body created = some packet)
    (rest : List Byte)
    (hcontent : client.content = packet.packetBufferSend now ++ rest) :
    AcceptsFrame ctx client clock (packet.packetBufferSend now) rest ↔
      body.length + networkPacketTailSize ≤ networkPacketBufferMaxSize := by
  obtain ⟨hmax, rfl⟩ := NetPacketBuffer.create_eq_some_iff.mp hadmitted
  have hframe := NetPacketBuffer.packetBufferSend_eq_frameOf
    ⟨ulClientSeq, iSockFd, iProtoNo, body.length, created,
      body.take body.length⟩ (by rw [List.take_length]) now
  dsimp only at hframe
  rw [List.take_length] at hframe hcontent ⊢
  rw [hframe] at hcontent ⊢
  have hlength : (body ++ NetPacketBuffer.prepareTail now).length =
      body.length + networkPacketTailSize := by
    rw [List.length_append, NetPacketBuffer.length_prepareTail]
  have htail : networkPacketTailSize = 8 := rfl
  have hheader : networkPacketHeaderSize = 4 := rfl
  have hlimit : networkPacketBufferMaxSize = 10240 := rfl
  constructor
  · intro haccepts
    by_contra hlarge
    exact not_acceptsFrame_of_length_lt hctx hclient clock hcontent (by omega) (by omega) haccepts
  · intro hsmall
    exact acceptsFrame_of_length_le hctx hclient clock hcontent hproto (by omega) (by omega)

end SizeLimit

/-- A body of two bytes is accepted, with half a frame behind it. -/
theorem acceptsFrame_iff_two_bytes :
    AcceptsFrame .construct
        (.ofContent 1 7 (sampleTransmission.bytes ++ [0, 5]) (by decide))
        (fun _ => 0) sampleTransmission.bytes [0, 5] ↔
      [8, 1].length + networkPacketTailSize ≤ networkPacketBufferMaxSize :=
  acceptsFrame_iff .construct NetPacketQueue.counted_init.noneHidden _
    (ClientContextBuffer.inBounds_ofContent 1 7 _ (by decide)) (fun _ => 0)
    3 9 20001 (by decide) [8, 1] 0 5 sampleTransmission.packet rfl [0, 5]
    (ClientContextBuffer.content_ofContent 1 7 _ (by decide))

/-- The largest packet that `AddPacket` admits: 10240 zero bytes. -/
def largestPacket : NetPacketBuffer :=
  ⟨3, 9, 20001, networkPacketBufferMaxSize, 0,
    List.replicate networkPacketBufferMaxSize 0⟩

/-- It is admitted on the sending side and rejected by the receiver. -/
theorem not_acceptsFrame_largest :
    NetPacketBuffer.create 3 9 20001 networkPacketBufferMaxSize
        (List.replicate networkPacketBufferMaxSize 0) 0 = some largestPacket ∧
      ∃ hroom, ¬ AcceptsFrame .construct
        (.ofContent 1 7 (largestPacket.packetBufferSend 5) hroom) (fun _ => 0)
        (largestPacket.packetBufferSend 5) [] := by
  have hbuffer : largestPacket.buffer.length = networkPacketBufferMaxSize :=
    List.length_replicate
  have hframe := largestPacket.packetBufferSend_eq_frameOf hbuffer.symm 5
  have hlength : (largestPacket.buffer ++ NetPacketBuffer.prepareTail 5).length = 10248 := by
    rw [List.length_append, hbuffer, NetPacketBuffer.length_prepareTail]
    rfl
  have hroom : (largestPacket.packetBufferSend 5).length ≤
      contextBufferCapacity := by
    rw [hframe, length_frameOf, hlength]
    decide
  have hrejected : ∀ client : ClientContextBuffer, client.InBounds →
      client.content = largestPacket.packetBufferSend 5 ++ [] →
      ¬ AcceptsFrame .construct client (fun _ => 0) (largestPacket.packetBufferSend 5) [] := by
    intro client hclient hcontent
    rw [hframe] at hcontent ⊢
    refine not_acceptsFrame_of_length_lt NetPacketQueue.counted_init.noneHidden
      hclient (fun _ => 0) hcontent ?_ ?_
    · rw [hlength]
      decide
    · rw [hlength]
      decide
  refine ⟨?_, hroom, hrejected _ (ClientContextBuffer.inBounds_ofContent 1 7 _ hroom) ?_⟩
  · rw [NetPacketBuffer.create_eq_some_iff]
    refine ⟨le_refl _, ?_⟩
    rw [List.take_of_length_le List.length_replicate.le]
    rfl
  · rw [ClientContextBuffer.content_ofContent, List.append_nil]

end Network
end GameServer
