import GameServer.Network.Framing

/-!
# The loop of the read callback

`OnBufferEventRead` of `libevent_handle.cpp` moves the input of a connection to
the client's buffer and unpacks it, over and over, until nothing more can be
read.  However the input is cut by the free space of the buffer, the loop
amounts to one parse of what the buffer held followed by the input.

The unpacking stops without an error at a size field below the header size,
and no further byte gets it going again.  Such a prefix is called wedged; every
other incomplete prefix can be completed within the free space of the buffer.
-/

namespace GameServer
namespace Network

open Lib

/-! ## Prefixes that no input completes -/

/-- The size field is below the header size, or will be: it is negative as soon
as its first byte has the sign bit set. -/
def Wedged (bytes : List Byte) : Prop :=
  2 ≤ bytes.length ∧ unpackInt 2 bytes < networkPacketHeaderSize ∨
    ∃ b, bytes = [b] ∧ 128 ≤ b.toNat

/-- The size field by its two bytes. -/
theorem unpackInt_two_cons (b c : Byte) (rest : List Byte) :
    unpackInt 2 (b :: c :: rest) =
      if b.toNat < 128 then (b.toNat * 256 + c.toNat : Int)
      else b.toNat * 256 + c.toNat - 65536 := by
  have hc := c.toNat_lt
  have hword : natOfBytes [b, c] = b.toNat * 256 + c.toNat := by
    simp [natOfBytes]
  show toSigned 16 (natOfBytes [b, c]) = _
  rw [hword, toSigned]
  split_ifs <;> push_cast <;> omega

variable {bytes : List Byte} {client : ClientContextBuffer}
  {ctx : NetworkContext}

/-- A wedged prefix stays wedged whatever follows. -/
theorem Wedged.append (h : Wedged bytes) (tail : List Byte) : Wedged (bytes ++ tail) := by
  rcases h with ⟨hlength, hsize⟩ | ⟨b, rfl, hb⟩
  · left
    rw [unpackInt_two_append hlength, List.length_append]
    exact ⟨by omega, hsize⟩
  · cases tail with
    | nil => exact Or.inr ⟨b, rfl, hb⟩
    | cons c rest =>
      have hlt := b.toNat_lt
      have hlt' := c.toNat_lt
      refine Or.inl ⟨by simp, ?_⟩
      show unpackInt 2 (b :: c :: rest) < networkPacketHeaderSize
      rw [unpackInt_two_cons, if_neg (by omega)]
      simp only [networkPacketHeaderSize]
      omega

/-- A wedged prefix is undecided. -/
theorem Wedged.scanFrame_eq (h : Wedged bytes) : scanFrame bytes = .more := by
  rw [scanFrame_eq_more_iff]
  rcases h with ⟨-, hsize⟩ | ⟨b, rfl, -⟩
  · exact Or.inr (Or.inl hsize)
  · exact Or.inl (by simp [networkPacketHeaderSize])

/-- A prefix of this length that needs more input is wedged: frames are shorter
than that. -/
theorem wedged_of_length_le (h : scanFrame bytes = .more)
    (hlength : 2 ^ 15 ≤ bytes.length) : Wedged bytes := by
  have hbounds := unpackInt_two_bounds bytes
  have hfour : networkPacketHeaderSize = 4 := rfl
  refine Or.inl ⟨by omega, ?_⟩
  rcases scanFrame_eq_more_iff.mp h with hshort | hsmall | hincomplete
  · omega
  · exact hsmall
  · omega

/-- The bytes are one complete frame, accepted or rejected. -/
def OneFrame (bytes : List Byte) : Prop :=
  (∃ e, scanFrame bytes = .fail e) ∨ ∃ p, scanFrame bytes = .frame p []

/-- Bytes that are exactly as long as their size field says are one frame. -/
theorem oneFrame_of_length_eq (hheader : networkPacketHeaderSize ≤ bytes.length)
    (hsize : unpackInt 2 bytes = bytes.length) : OneFrame bytes := by
  by_cases hempty : unpackInt 2 bytes = networkPacketHeaderSize
  · exact Or.inl ⟨-2, scanFrame_eq_fail_iff.mpr ⟨hheader, hsize.le, Or.inl ⟨hempty, rfl⟩⟩⟩
  · by_cases hlarge : networkPacketHeaderSize + networkPacketBufferMaxSize < unpackInt 2 bytes
    · exact Or.inl ⟨-3, scanFrame_eq_fail_iff.mpr ⟨hheader, hsize.le, Or.inr ⟨hlarge, rfl⟩⟩⟩
    · right
      have hbody : (bytes.drop networkPacketHeaderSize).length =
          bytes.length - networkPacketHeaderSize := List.length_drop
      refine ⟨(unpackInt 2 (bytes.drop 2), bytes.drop networkPacketHeaderSize),
        scanFrame_eq_frame_iff.mpr ?_⟩
      dsimp only
      refine ⟨by omega, by omega, by omega, by omega, rfl, List.take_length.symm, ?_⟩
      symm
      rw [List.drop_eq_nil_iff]
      omega

/-- With the size field in place, zeros up to that size complete the frame. -/
theorem exists_completion_of_size {header : List Byte} (hlength : 2 ≤ header.length)
    (hsize : networkPacketHeaderSize ≤ unpackInt 2 header)
    (hincomplete : header.length < unpackInt 2 header) :
    ∃ tail, tail ≠ [] ∧ (header ++ tail).length < 2 ^ 15 ∧ OneFrame (header ++ tail) := by
  have hbounds := unpackInt_two_bounds header
  have hsum : (header ++ List.replicate ((unpackInt 2 header).toNat - header.length) 0).length =
        (unpackInt 2 header).toNat := by
    rw [List.length_append, List.length_replicate]
    omega
  refine ⟨List.replicate ((unpackInt 2 header).toNat - header.length) 0,
    ?_, by omega, oneFrame_of_length_eq (by omega) ?_⟩
  · rw [← List.length_pos_iff_ne_nil, List.length_replicate]
    omega
  · rw [unpackInt_two_append hlength, hsum]
    omega

/-- A first byte without the sign bit can be completed to a small size. -/
theorem exists_completion_of_first {b : Byte} (hb : b.toNat < 128) :
    ∃ tail, tail ≠ [] ∧ ([b, 5] ++ tail).length < 2 ^ 15 ∧ OneFrame ([b, 5] ++ tail) := by
  have hfour : networkPacketHeaderSize = 4 := rfl
  have hsize : unpackInt 2 [b, 5] = b.toNat * 256 + 5 := by
    rw [unpackInt_two_cons, if_pos hb]
    rfl
  have htwo : [b, 5].length = 2 := rfl
  exact exists_completion_of_size htwo.ge (by omega) (by omega)

/-- **What a prefix lacks.**  An incomplete prefix that is not wedged can be
completed to exactly one frame. -/
theorem exists_completion (hmore : scanFrame bytes = .more) (hwedged : ¬ Wedged bytes) :
    ∃ tail, tail ≠ [] ∧ (bytes ++ tail).length < 2 ^ 15 ∧ OneFrame (bytes ++ tail) := by
  cases bytes with
  | nil =>
    have hzero : (0 : Byte).toNat < 128 := by decide
    obtain ⟨tail, -, hlength, hframe⟩ := exists_completion_of_first hzero
    exact ⟨[0, 5] ++ tail, by simp, hlength, hframe⟩
  | cons b rest =>
    cases rest with
    | nil =>
      have hb : b.toNat < 128 := by
        by_contra hge
        exact hwedged (Or.inr ⟨b, rfl, by omega⟩)
      obtain ⟨tail, -, hlength, hframe⟩ := exists_completion_of_first hb
      exact ⟨5 :: tail, by simp, hlength, hframe⟩
    | cons c rest =>
      have htwo : 2 ≤ (b :: c :: rest).length := by simp
      have hsize : ¬ unpackInt 2 (b :: c :: rest) <
          networkPacketHeaderSize :=
        fun hsmall => hwedged (Or.inl ⟨htwo, hsmall⟩)
      refine exists_completion_of_size htwo (by omega) ?_
      rcases scanFrame_eq_more_iff.mp hmore with hshort | hsmall | hlong
      · omega
      · exact (hsize hsmall).elim
      · exact hlong

/-- Some further bytes that fit into the free space would be unpacked: into one
packet and nothing else, or with an error. -/
def ClientContextBuffer.Completable (client : ClientContextBuffer) : Prop :=
  ∃ tail, tail ≠ [] ∧ tail.length ≤ client.freeSpace ∧
    ∀ (ctx : NetworkContext) (clock : Nat → UInt64),
      ctx.netPacketRecvQueue.NoneHidden →
      ∃ result,
        unpackPacketToRecvQueue ctx (client.append tail) clock = some result ∧
          (result.iRet ≠ 0 ∨
            ∃ packet, result.ctx.enqueued = ctx.enqueued ++ [packet] ∧
              result.client.content = [])

/-- **Completable means not wedged.** -/
theorem completable_iff_not_wedged (hclient : client.InBounds)
    (hmore : scanFrame client.content = .more) :
    client.Completable ↔ ¬ Wedged client.content := by
  constructor
  · rintro ⟨tail, -, hroom, hunpack⟩ hwedged
    have hcontent := ClientContextBuffer.content_append hclient hroom
    have hnone := referenceParse_of_more (hwedged.append tail).scanFrame_eq
    obtain ⟨result, hresult, houtcome⟩ := hunpack .construct (fun _ => 0)
      NetPacketQueue.counted_init.noneHidden
    obtain ⟨result', added, hresult', henqueued, hwire, -, hret, -⟩ :=
      unpackPacketToRecvQueue_spec (show NetworkContext.construct.netPacketRecvQueue.NoneHidden from
          NetPacketQueue.counted_init.noneHidden)
        (ClientContextBuffer.inBounds_append hclient hroom) (fun _ => 0)
    obtain rfl : result = result' :=
      Option.some.inj (hresult.symm.trans hresult')
    rw [hcontent, hnone] at hwire hret
    rcases houtcome with herror | ⟨packet, hpacket, -⟩
    · exact herror hret
    · rw [List.map_eq_nil_iff.mp hwire, List.append_nil] at henqueued
      rw [henqueued] at hpacket
      simp at hpacket
  · intro hwedged
    obtain ⟨tail, hne, hlength, hframe⟩ := exists_completion hmore hwedged
    have hspace := hclient.length_add_freeSpace
    have hcapacity : 2 ^ 15 ≤ contextBufferCapacity := by decide
    have hroom : tail.length ≤ client.freeSpace := by
      rw [List.length_append] at hlength
      omega
    have hcontent := ClientContextBuffer.content_append hclient hroom
    refine ⟨tail, hne, hroom, ?_⟩
    intro ctx clock hctx
    obtain ⟨result, added, hresult, henqueued, hwire, -, hret, hrest, -⟩ :=
      unpackPacketToRecvQueue_spec hctx (ClientContextBuffer.inBounds_append hclient hroom) clock
    rw [hcontent] at hwire hret hrest
    refine ⟨result, hresult, ?_⟩
    rcases hframe with ⟨e, hfail⟩ | ⟨p, hframe⟩
    · have herror : (referenceParse (client.content ++ tail)).error = some e := by
        rw [referenceParse_of_fail hfail]
      rw [herror] at hret
      left
      rw [hret]
      exact referenceParse_error_ne_zero herror
    · have hempty : scanFrame [] = .more := rfl
      rw [referenceParse_of_frame hframe, referenceParse_of_more hempty] at hwire hret hrest
      obtain ⟨packet, rfl, -⟩ := List.map_eq_singleton_iff.mp hwire
      exact Or.inr ⟨packet, henqueued, hrest hret⟩

/-! ## The loop -/

/-- Where the loop of `OnBufferEventRead` is left: the state, the input not
read, and zero or the error for which the client is going to be closed. -/
structure ReadLoopResult where
  ctx : NetworkContext
  client : ClientContextBuffer
  input : List Byte
  iRet : Int

theorem length_input_packetBufferRead_le (api : BuffereventRead)
    (client : ClientContextBuffer) (input : List Byte) :
    (packetBufferRead api client input).input.length ≤ input.length := by
  rw [input_packetBufferRead, List.length_drop]
  omega

/-- A read that reports bytes has taken them from the input. -/
theorem length_input_packetBufferRead_lt (api : BuffereventRead)
    (client : ClientContextBuffer) (input : List Byte)
    (h : (packetBufferRead api client input).iReadLen > 0) :
    (packetBufferRead api client input).input.length < input.length := by
  have hmoved := (iReadLen_packetBufferRead_pos_iff api input).mp h
  rw [← List.length_pos_iff_ne_nil, List.length_take] at hmoved
  rw [input_packetBufferRead, List.length_drop]
  omega

/-- A read that reports none has left the content as it was, because there is
no input or no room. -/
theorem content_packetBufferRead_of_none (api : BuffereventRead)
    (hclient : client.InBounds) (input : List Byte)
    (h : ¬ (packetBufferRead api client input).iReadLen > 0) :
    (packetBufferRead api client input).client.content = client.content ∧
      ((packetBufferRead api client input).input = [] ∨
        (packetBufferRead api client input).client.freeSpace = 0) := by
  have hnone : input.take client.freeSpace = [] := by
    by_contra hmoved
    exact h ((iReadLen_packetBufferRead_pos_iff api input).mpr hmoved)
  refine ⟨by rw [content_packetBufferRead api hclient, hnone, List.append_nil], ?_⟩
  rcases List.take_eq_nil_iff.mp hnone with hfull | hempty
  · right
    rw [packetBufferRead_of_full api hfull]
    exact hfull
  · left
    rw [input_packetBufferRead, hempty, List.drop_nil]

/-- The loop of `OnBufferEventRead`.  `clock i j` is the time of packet `j` of
round `i`. -/
def readLoop (api : BuffereventRead) (clock : Nat → Nat → UInt64)
    (ctx : NetworkContext) (client : ClientContextBuffer)
    (input : List Byte) : Option ReadLoopResult :=
  let first := packetBufferRead api client input
  match unpackPacketToRecvQueue ctx first.client (clock 0) with
  | none => none
  | some unpacked =>
    if unpacked.iRet ≠ 0 then
      some ⟨unpacked.ctx, unpacked.client, first.input, unpacked.iRet⟩
    else
      -- the buffer may have been full before it was unpacked
      let second := packetBufferRead api unpacked.client first.input
      if h : second.iReadLen > 0 then
        have hshort : second.input.length < input.length :=
          (length_input_packetBufferRead_lt api unpacked.client first.input
            h).trans_le (length_input_packetBufferRead_le api client input)
        readLoop api (fun i => clock (i + 1)) unpacked.ctx second.client
          second.input
      else
        some ⟨unpacked.ctx, second.client, second.input, 0⟩
termination_by input.length

/-- Where one round of the loop ends: the state, the input not read, zero or
the error of `ExecuteCmdRecvAllPacket`, and whether there is another round. -/
structure ReadRoundResult where
  ctx : NetworkContext
  client : ClientContextBuffer
  input : List Byte
  iRet : Int
  again : Bool

/-- One round of the loop. -/
def readRound (api : BuffereventRead) (clock : Nat → UInt64)
    (ctx : NetworkContext) (client : ClientContextBuffer)
    (input : List Byte) : Option ReadRoundResult :=
  let first := packetBufferRead api client input
  (unpackPacketToRecvQueue ctx first.client clock).map fun unpacked =>
    if unpacked.iRet ≠ 0 then
      ⟨unpacked.ctx, unpacked.client, first.input, unpacked.iRet, false⟩
    else
      let second := packetBufferRead api unpacked.client first.input
      ⟨unpacked.ctx, second.client, second.input, 0, second.iReadLen > 0⟩

/-- The loop is one round, and the loop again if there is another round. -/
theorem readLoop_eq (api : BuffereventRead) (clock : Nat → Nat → UInt64)
    (ctx : NetworkContext) (client : ClientContextBuffer)
    (input : List Byte) :
    readLoop api clock ctx client input =
      (readRound api (clock 0) ctx client input).bind fun round =>
        if round.again then
          readLoop api (fun i => clock (i + 1)) round.ctx round.client round.input
        else
          some ⟨round.ctx, round.client, round.input, round.iRet⟩ := by
  rw [readLoop, readRound]
  cases unpackPacketToRecvQueue ctx (packetBufferRead api client input).client (clock 0) with
  | none => rfl
  | some unpacked =>
    by_cases hret : unpacked.iRet = 0
    · by_cases hagain : (packetBufferRead api unpacked.client
          (packetBufferRead api client input).input).iReadLen > 0
      · simp [hret, hagain]
      · simp [hret, hagain]
    · simp [hret]

/-- What the loop has done with the buffer and the input it started from. -/
structure ReadLoopResult.Parses (result : ReadLoopResult)
    (ctx : NetworkContext) (client : ClientContextBuffer)
    (input : List Byte) : Prop where
  /-- The packets of one parse have been enqueued. -/
  enqueued : ∃ added, result.ctx.enqueued = ctx.enqueued ++ added ∧
    added.map NetPacketBuffer.wire =
      (referenceParse (client.content ++ input)).packets ∧
    ∀ packet ∈ added, CameFrom client.ulClientSeq client.iClientFd packet
  /-- The verdict is that of the parse. -/
  iRet : result.iRet =
    (referenceParse (client.content ++ input)).error.getD 0
  /-- Without an error what the parse left over is in the buffer, unless the
  buffer is full. -/
  rest : result.iRet = 0 →
    result.client.content ++ result.input =
        (referenceParse (client.content ++ input)).rest ∧
      scanFrame result.client.content = .more ∧
      (result.input = [] ∨ result.client.freeSpace = 0)
  inBounds : result.client.InBounds
  ownedBy : result.client.OwnedBy client.ulClientSeq client.iClientFd
  recv : result.ctx.netPacketRecvQueue.NoneHidden

/-- Where nothing more can be read or unpacked, the loop has nothing to do. -/
theorem ReadLoopResult.parses_of_more {input : List Byte}
    (hctx : ctx.netPacketRecvQueue.NoneHidden) (hclient : client.InBounds)
    (hmore : scanFrame client.content = .more)
    (hend : input = [] ∨ client.freeSpace = 0) :
    ReadLoopResult.Parses ⟨ctx, client, input, 0⟩ ctx client input := by
  have hall : scanFrame (client.content ++ input) = .more := by
    rcases hend with rfl | hfull
    · rw [List.append_nil]
      exact hmore
    · -- a full buffer is longer than any frame
      have hspace := hclient.length_add_freeSpace
      have hcapacity : 2 ^ 15 ≤ contextBufferCapacity := by decide
      have hwedged := wedged_of_length_le hmore (by omega)
      exact (hwedged.append input).scanFrame_eq
  have hparse := referenceParse_of_more hall
  refine ⟨⟨[], by simp, by rw [hparse]; rfl, by simp⟩, by rw [hparse]; rfl, ?_,
    hclient, ⟨rfl, rfl⟩, hctx⟩
  intro _
  rw [hparse]
  exact ⟨rfl, hmore, hend⟩

/-- What one round has done. -/
structure ReadRoundResult.Unpacks (round : ReadRoundResult)
    (ctx : NetworkContext) (client : ClientContextBuffer)
    (input : List Byte) (added : List NetPacketBuffer) : Prop where
  enqueued : round.ctx.enqueued = ctx.enqueued ++ added
  cameFrom : ∀ packet ∈ added,
    CameFrom client.ulClientSeq client.iClientFd packet
  inBounds : round.client.InBounds
  ownedBy : round.client.OwnedBy client.ulClientSeq client.iClientFd
  recv : round.ctx.netPacketRecvQueue.NoneHidden
  /-- An error ends the loop and is the verdict on everything received. -/
  error : round.iRet ≠ 0 → round.again = false ∧
    added.map NetPacketBuffer.wire =
      (referenceParse (client.content ++ input)).packets ∧
    (referenceParse (client.content ++ input)).error = some round.iRet
  /-- Otherwise the rest of the bytes is still to be parsed. -/
  parse : round.iRet = 0 → referenceParse (client.content ++ input) =
    let later := referenceParse (round.client.content ++ round.input)
    ⟨added.map NetPacketBuffer.wire ++ later.packets, later.error, later.rest⟩
  /-- Another round has less input, and there is one unless nothing more can
  be read or unpacked. -/
  again : round.again = true → round.input.length < input.length
  done : round.iRet = 0 → round.again = false →
    scanFrame round.client.content = .more ∧
      (round.input = [] ∨ round.client.freeSpace = 0)

/-- **One round.**  It returns, and unpacks what the buffer holds after the
first read. -/
theorem readRound_unpacks (api : BuffereventRead) (clock : Nat → UInt64)
    (input : List Byte) (hctx : ctx.netPacketRecvQueue.NoneHidden)
    (hclient : client.InBounds) :
    ∃ round added, readRound api clock ctx client input = some round ∧
      round.Unpacks ctx client input added := by
  -- the first read
  obtain ⟨first, hfirst⟩ : ∃ first, packetBufferRead api client input = first := ⟨_, rfl⟩
  have hread : first.client.InBounds :=
    hfirst ▸ inBounds_packetBufferRead api hclient input
  have hsplit : client.content ++ input = first.client.content ++ first.input := by
    rw [← hfirst, content_packetBufferRead api hclient,
      input_packetBufferRead, List.append_assoc, List.take_append_drop]
  obtain ⟨hseq, hfd⟩ : first.client.OwnedBy client.ulClientSeq
      client.iClientFd :=
    hfirst ▸ ownedBy_packetBufferRead api ⟨rfl, rfl⟩ input
  have hless : first.input.length ≤ input.length :=
    hfirst ▸ length_input_packetBufferRead_le api client input
  -- the call of `UnpackPacketToRecvQueue`
  obtain ⟨unpacked, added, hunpack, henqueued, hwire, hcame, hret, hrest,
      -, hbounds, howner, hhidden⟩ :=
    unpackPacketToRecvQueue_spec hctx hread clock
  rw [hseq, hfd] at hcame howner
  have hround : readRound api clock ctx client input = some (if unpacked.iRet ≠ 0 then
        ⟨unpacked.ctx, unpacked.client, first.input, unpacked.iRet, false⟩
      else
        let second := packetBufferRead api unpacked.client first.input
        ⟨unpacked.ctx, second.client, second.input, 0, second.iReadLen > 0⟩) := by
    rw [readRound, hfirst, hunpack, Option.map_some]
  refine ⟨_, added, hround, ?_⟩
  cases herror : (referenceParse first.client.content).error with
  | some e =>
    have hparse : referenceParse (first.client.content ++ first.input) =
        _ := wireFramer.parse_append_of_error_some herror first.input
    rw [herror, Option.getD_some] at hret
    have hne : unpacked.iRet ≠ 0 := by
      rw [hret]
      exact referenceParse_error_ne_zero herror
    rw [if_pos hne]
    refine ⟨henqueued, hcame, hbounds, howner, hhidden, fun _ => ?_,
      fun h => (hne h).elim, fun h => (by cases h), fun h => (hne h).elim⟩
    rw [hsplit, hparse]
    exact ⟨rfl, hwire, by rw [hret]⟩
  | none =>
    have hparse : referenceParse (first.client.content ++ first.input) =
        _ := wireFramer.parse_append_of_error_none herror first.input
    have hmore : scanFrame (referenceParse first.client.content).rest =
        .more := wireFramer.next_rest_of_error_none herror
    rw [herror, Option.getD_none] at hret
    rw [← hrest hret] at hmore
    rw [if_neg (not_not.mpr hret)]
    -- the second read
    obtain ⟨second, hsecond⟩ : ∃ second,
        packetBufferRead api unpacked.client first.input = second :=
      ⟨_, rfl⟩
    have hsplit' : unpacked.client.content ++ first.input =
        second.client.content ++ second.input := by
      rw [← hsecond, content_packetBufferRead api hbounds,
        input_packetBufferRead, List.append_assoc, List.take_append_drop]
    rw [hsecond]
    refine ⟨henqueued, hcame, ?_, ?_, hhidden, fun h => (h rfl).elim, ?_,
      fun hagain => ?_, fun _ hdone => ?_⟩
    · exact hsecond ▸ inBounds_packetBufferRead api hbounds first.input
    · exact hsecond ▸ ownedBy_packetBufferRead api howner first.input
    · intro _
      rw [hsplit, hparse, hwire, ← hsplit', hrest hret]
      rfl
    · have hshort : second.input.length < first.input.length :=
        hsecond ▸ length_input_packetBufferRead_lt api unpacked.client
          first.input (hsecond ▸ of_decide_eq_true hagain)
      exact hshort.trans_le hless
    · obtain ⟨hcontent, hend⟩ := content_packetBufferRead_of_none api
        hbounds first.input (hsecond ▸ of_decide_eq_false hdone)
      rw [hsecond] at hcontent hend
      exact ⟨hcontent ▸ hmore, hend⟩

/-- A round followed by the rest of the loop. -/
theorem ReadLoopResult.Parses.of_round {result : ReadLoopResult}
    {round : ReadRoundResult} {input : List Byte} {added : List NetPacketBuffer}
    (h : result.Parses round.ctx round.client round.input)
    (hround : round.Unpacks ctx client input added) (hret : round.iRet = 0) :
    result.Parses ctx client input := by
  obtain ⟨hseq, hfd⟩ := hround.ownedBy
  obtain ⟨more, hqueued, hwire, hmore⟩ := h.enqueued
  have hparse := hround.parse hret
  refine ⟨⟨added ++ more, ?_, ?_, ?_⟩, ?_, ?_, h.inBounds, ?_, h.recv⟩
  · rw [hqueued, hround.enqueued, List.append_assoc]
  · rw [hparse, List.map_append, hwire]
  · intro packet hpacket
    rcases List.mem_append.mp hpacket with hin | hin
    · exact hround.cameFrom packet hin
    · exact hseq ▸ hfd ▸ hmore packet hin
  · rw [hparse]
    exact h.iRet
  · rw [hparse]
    exact h.rest
  · exact hseq ▸ hfd ▸ h.ownedBy

/-- **The loop is one parse.**  It always ends, and whatever the free space
was, it has parsed the content of the buffer followed by the input. -/
theorem readLoop_parses (api : BuffereventRead) (clock : Nat → Nat → UInt64)
    (input : List Byte) (hctx : ctx.netPacketRecvQueue.NoneHidden)
    (hclient : client.InBounds) :
    ∃ result, readLoop api clock ctx client input = some result ∧
      result.Parses ctx client input := by
  induction hn : input.length using Nat.strong_induction_on generalizing clock ctx client input with
  | _ n ih =>
    subst hn
    obtain ⟨round, added, hround, hunpacks⟩ :=
      readRound_unpacks api (clock 0) input hctx hclient
    rw [readLoop_eq, hround, Option.bind_some]
    by_cases hret : round.iRet = 0
    · cases hagain : round.again with
      | true =>
        obtain ⟨result, hloop, hparses⟩ := ih round.input.length
          (hunpacks.again hagain) (fun i => clock (i + 1)) round.input
          hunpacks.recv hunpacks.inBounds rfl
        exact ⟨result, hloop, hparses.of_round hunpacks hret⟩
      | false =>
        obtain ⟨hmore, hend⟩ := hunpacks.done hret hagain
        have hlast := ReadLoopResult.parses_of_more hunpacks.recv hunpacks.inBounds hmore hend
        rw [← hret] at hlast
        exact ⟨_, rfl, hlast.of_round hunpacks hret⟩
    · obtain ⟨hagain, hwire, herror⟩ := hunpacks.error hret
      rw [hagain]
      refine ⟨_, rfl, ⟨added, hunpacks.enqueued, hwire, hunpacks.cameFrom⟩, ?_,
        fun hzero => (hret hzero).elim, hunpacks.inBounds, hunpacks.ownedBy,
        hunpacks.recv⟩
      rw [herror, Option.getD_some]

/-- When the loop ends without an error, it has drained the input and left a
prefix that can be completed, unless what the parse left over is wedged. -/
theorem ReadLoopResult.Parses.waits_iff {result : ReadLoopResult}
    {input : List Byte} (h : result.Parses ctx client input)
    (hret : result.iRet = 0) :
    result.input = [] ∧ result.client.Completable ↔
      ¬ Wedged (referenceParse (client.content ++ input)).rest := by
  obtain ⟨hrest, hmore, hend⟩ := h.rest hret
  have hcompletable := completable_iff_not_wedged h.inBounds hmore
  rw [← hrest]
  constructor
  · rintro ⟨hdrained, hwaits⟩
    rw [hdrained, List.append_nil]
    exact hcompletable.mp hwaits
  · intro hwedged
    rcases hend with hdrained | hfull
    · rw [hdrained, List.append_nil] at hwedged
      exact ⟨hdrained, hcompletable.mpr hwedged⟩
    · -- a full buffer is wedged, and so is everything that starts with it
      have hspace := h.inBounds.length_add_freeSpace
      have hcapacity : 2 ^ 15 ≤ contextBufferCapacity := by decide
      have hcontent := wedged_of_length_le hmore (by omega)
      exact (hwedged (hcontent.append result.input)).elim

/-! ## Streams with the same verdict -/

/-- Two streams that a parse cannot tell apart, now or later: both end in the
same error, or leave the same bytes over. -/
def SameVerdict (stream bytes : List Byte) : Prop :=
  (referenceParse stream).error = (referenceParse bytes).error ∧
    ((referenceParse stream).error = none →
      (referenceParse stream).rest = (referenceParse bytes).rest)

/-- Further input does not change that. -/
theorem SameVerdict.append {stream : List Byte} (h : SameVerdict stream bytes)
    (tail : List Byte) : SameVerdict (stream ++ tail) (bytes ++ tail) := by
  obtain ⟨herror, hrest⟩ := h
  cases hstream : (referenceParse stream).error with
  | some e =>
    have hbytes := herror.symm.trans hstream
    have hleft : referenceParse (stream ++ tail) = _ :=
      wireFramer.parse_append_of_error_some hstream tail
    have hright : referenceParse (bytes ++ tail) = _ :=
      wireFramer.parse_append_of_error_some hbytes tail
    rw [SameVerdict, hleft, hright]
    exact ⟨rfl, fun hnone => by cases hnone⟩
  | none =>
    have hbytes := herror.symm.trans hstream
    have hleft : referenceParse (stream ++ tail) = _ :=
      wireFramer.parse_append_of_error_none hstream tail
    have hright : referenceParse (bytes ++ tail) = _ :=
      wireFramer.parse_append_of_error_none hbytes tail
    have hsame : (wireFramer.parse stream).rest = (wireFramer.parse bytes).rest := hrest hstream
    rw [SameVerdict, hleft, hright, hsame]
    exact ⟨rfl, fun _ => rfl⟩

/-- The bytes left over have the verdict of the stream they are left from. -/
theorem SameVerdict.rest {stream : List Byte} (h : SameVerdict stream bytes)
    (hnone : (referenceParse bytes).error = none) :
    SameVerdict stream (referenceParse bytes).rest := by
  obtain ⟨herror, hrest⟩ := h
  have hmore := referenceParse_of_more (wireFramer.next_rest_of_error_none hnone)
  have hparse : referenceParse (referenceParse bytes).rest =
      ⟨[], none, (referenceParse bytes).rest⟩ := hmore
  rw [SameVerdict, hparse]
  exact ⟨herror.trans hnone, hrest⟩

/-- The stream has come to a wedged prefix. -/
def WedgedStream (stream : List Byte) : Prop :=
  (referenceParse stream).error = none ∧ Wedged (referenceParse stream).rest

/-- It will not get beyond it. -/
theorem WedgedStream.append {stream : List Byte} (h : WedgedStream stream)
    (tail : List Byte) : WedgedStream (stream ++ tail) := by
  obtain ⟨hnone, hwedged⟩ := h
  have hparse : referenceParse (stream ++ tail) = _ :=
    wireFramer.parse_append_of_error_none hnone tail
  have hlater : wireFramer.parse ((wireFramer.parse stream).rest ++ tail) = _ :=
    wireFramer.parse_of_more (hwedged.append tail).scanFrame_eq
  rw [WedgedStream, hparse, hlater]
  exact ⟨rfl, hwedged.append tail⟩

end Network
end GameServer
