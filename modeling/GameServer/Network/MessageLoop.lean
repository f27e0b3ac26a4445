import GameServer.Network.Transports

/-!
# The loop over a received block

`_ProcessMessageData` of `server_logic.cpp` passes a block that has been read
from a socket on to the client's buffer: it copies the block, unpacks the
buffer, and starts over until nothing is left of the block or unpacking fails.

`PacketBufferRead` copies the block as a whole or not at all.  Whatever a client
holds between two blocks is an incomplete frame, so that unpacking does not
make room.  Hence a block that fits is done after one round, and a block that
does not fit is tried forever.
-/

namespace GameServer
namespace Network

open Lib

/-- The loop of `_ProcessMessageData`: what is left of the block, the last value
of `ExecuteCmdRecvAllPacket`, and as history the bytes that have come into the
client's buffer. -/
structure MessageLoop where
  ctx : NetworkContext
  client : SocketClientCtx
  pchBufferPtr : List Byte
  iRet : Int
  appended : List Byte

namespace MessageLoop

/-- In front of the loop. -/
def enter (ctx : NetworkContext) (client : SocketClientCtx)
    (block : List Byte) : MessageLoop :=
  ⟨ctx, client, block, 0, []⟩

/-- There is another round. -/
def Again (m : MessageLoop) : Prop :=
  m.iRet = 0 ∧ m.pchBufferPtr ≠ []

instance (m : MessageLoop) : Decidable m.Again :=
  inferInstanceAs (Decidable (_ ∧ _))

/-- One round. -/
def round (clock : Nat → UInt64) (m : MessageLoop) : Option MessageLoop :=
  let read := m.client.packetBufferRead m.pchBufferPtr
  (unpackPacketToRecvQueue m.ctx read.1.contextBuffer clock).map
    fun unpacked =>
      { ctx := unpacked.ctx
        client := { read.1 with contextBuffer := unpacked.client }
        pchBufferPtr := if read.2 > 0 then m.pchBufferPtr.drop read.2.toNat
          else m.pchBufferPtr
        iRet := unpacked.iRet
        appended := m.appended ++ read.1.contextBuffer.content.drop
          m.client.contextBuffer.content.length }

/-- At most so many rounds.  `clock i j` is the time of packet `j` of round
`i`. -/
def rounds : (clock : Nat → Nat → UInt64) → Nat → MessageLoop →
    Option MessageLoop
  | _, 0, m => some m
  | clock, n + 1, m =>
    if m.Again then
      (m.round (clock 0)).bind (rounds (fun i => clock (i + 1)) n)
    else
      some m

/-- The loop, if it has come to an end after so many rounds. -/
def loop (clock : Nat → Nat → UInt64) (n : Nat) (m : MessageLoop) :
    Option MessageLoop :=
  (m.rounds clock n).bind fun m' => if m'.Again then none else some m'

variable {m m' : MessageLoop}

/-- What the client's buffer and the receive queue are like between two
messages. -/
structure Waiting (ctx : NetworkContext) (client : SocketClientCtx) : Prop where
  recv : ctx.netPacketRecvQueue.NoneHidden
  inBounds : client.contextBuffer.InBounds
  more : scanFrame client.contextBuffer.content = .more

/-- A round has copied the block and parsed it behind what was there. -/
structure Copied (m m' : MessageLoop) : Prop where
  block : m'.pchBufferPtr = []
  appended : m'.appended = m.appended ++ m.pchBufferPtr
  iRet : m'.iRet = (referenceParse
    (m.client.contextBuffer.content ++ m.pchBufferPtr)).error.getD 0
  recv : m'.ctx.netPacketRecvQueue.NoneHidden
  content : m'.iRet = 0 → m'.client.contextBuffer.content = (referenceParse
    (m.client.contextBuffer.content ++ m.pchBufferPtr)).rest
  waiting : m'.iRet = 0 → Waiting m'.ctx m'.client
  seq : m'.client.ulClientUniqSeq = m.client.ulClientUniqSeq
  fd : m'.client.contextBuffer.iClientFd = m.client.contextBuffer.iClientFd

/-- A round has done nothing. -/
structure Stuck (m m' : MessageLoop) : Prop where
  block : m'.pchBufferPtr = m.pchBufferPtr
  appended : m'.appended = m.appended
  iRet : m'.iRet = 0
  content : m'.client.contextBuffer.content = m.client.contextBuffer.content
  waiting : Waiting m'.ctx m'.client

theorem packetBufferRead_of_fits {client : SocketClientCtx}
    {bytes : List Byte} (h : client.contextBuffer.InBounds)
    (hfits : bytes.length ≤ client.contextBuffer.freeSpace) :
    client.packetBufferRead bytes =
      ({ client with contextBuffer := client.contextBuffer.append bytes },
        (bytes.length : Int)) := by
  obtain ⟨hlow, hhigh⟩ := h
  unfold ClientContextBuffer.freeSpace at hfits
  unfold SocketClientCtx.packetBufferRead
  dsimp only
  rw [if_neg (by omega)]

theorem packetBufferRead_of_long {client : SocketClientCtx}
    {bytes : List Byte} (h : client.contextBuffer.InBounds)
    (hlong : client.contextBuffer.freeSpace < bytes.length) :
    client.packetBufferRead bytes = (client, -1) := by
  obtain ⟨hlow, hhigh⟩ := h
  unfold ClientContextBuffer.freeSpace at hlong
  unfold SocketClientCtx.packetBufferRead
  dsimp only
  rw [if_pos (by omega)]

/-- **A block that fits** is copied and parsed in one round. -/
theorem exists_copied (clock : Nat → UInt64) (h : Waiting m.ctx m.client)
    (hfits : m.pchBufferPtr.length ≤ m.client.contextBuffer.freeSpace) :
    ∃ m', m.round clock = some m' ∧ m.Copied m' := by
  have hcontent := ClientContextBuffer.content_append h.inBounds hfits
  obtain ⟨unpacked, -, hcall, -, -, -, hret, hrest, -, hbounds, howned,
      hhidden⟩ := unpackPacketToRecvQueue_spec h.recv
    (ClientContextBuffer.inBounds_append h.inBounds hfits) clock
  rw [hcontent] at hret hrest
  have hround : m.round clock = some
      { ctx := unpacked.ctx
        client := { m.client with contextBuffer := unpacked.client }
        pchBufferPtr := []
        iRet := unpacked.iRet
        appended := m.appended ++ m.pchBufferPtr } := by
    simp only [round, packetBufferRead_of_fits h.inBounds hfits, hcall,
      Option.map_some, hcontent, List.drop_left, Int.toNat_natCast,
      List.drop_length]
    split_ifs with hread
    · rfl
    · have hempty : m.pchBufferPtr = [] := by
        rw [← List.length_eq_zero_iff]
        omega
      rw [hempty]
  refine ⟨_, hround, rfl, rfl, hret, hhidden, hrest, fun hzero => ?_, rfl, howned.2⟩
  have herror : (referenceParse
      (m.client.contextBuffer.content ++ m.pchBufferPtr)).error = none := by
    cases hparse : (referenceParse (m.client.contextBuffer.content ++ m.pchBufferPtr)).error with
    | none => rfl
    | some e =>
      rw [hparse] at hret
      exact (referenceParse_error_ne_zero hparse (hret.symm.trans hzero)).elim
  refine ⟨hhidden, hbounds, ?_⟩
  rw [show unpacked.client.content = _ from hrest hzero]
  exact wireFramer.next_rest_of_error_none herror

/-- **A block that does not fit** leaves everything as it is: the buffer holds
an incomplete frame, so that unpacking makes no room. -/
theorem exists_stuck (clock : Nat → UInt64) (h : Waiting m.ctx m.client)
    (hlong : m.client.contextBuffer.freeSpace < m.pchBufferPtr.length) :
    ∃ m', m.round clock = some m' ∧ m.Stuck m' := by
  obtain ⟨unpacked, -, hcall, -, -, -, hret, hrest, -, hbounds, -, hhidden⟩ :=
    unpackPacketToRecvQueue_spec h.recv h.inBounds clock
  have hparse := referenceParse_of_more h.more
  rw [hparse] at hret hrest
  have hround : m.round clock = some
      { ctx := unpacked.ctx
        client := { m.client with contextBuffer := unpacked.client }
        pchBufferPtr := m.pchBufferPtr
        iRet := unpacked.iRet
        appended := m.appended } := by
    simp only [round, packetBufferRead_of_long h.inBounds hlong, hcall,
      Option.map_some, List.drop_length, List.append_nil]
    rfl
  have hcontent := hrest hret
  refine ⟨_, hround, rfl, rfl, hret, hcontent, hhidden, hbounds, ?_⟩
  show scanFrame unpacked.client.content = .more
  rw [hcontent]
  exact h.more

/-- A block that does not fit is tried again and again. -/
theorem exists_rounds_again (clock : Nat → Nat → UInt64) (n : Nat)
    (h : Waiting m.ctx m.client) (hagain : m.Again)
    (hlong : m.client.contextBuffer.freeSpace < m.pchBufferPtr.length) :
    ∃ m', m.rounds clock n = some m' ∧ m'.Again ∧ m'.appended = m.appended := by
  induction n generalizing m clock with
  | zero => exact ⟨m, rfl, hagain, rfl⟩
  | succ n ih =>
    obtain ⟨m₁, hround, hstuck⟩ := exists_stuck (clock 0) h hlong
    have hroom := h.inBounds.length_add_freeSpace
    have hroom₁ := hstuck.waiting.inBounds.length_add_freeSpace
    rw [hstuck.content] at hroom₁
    have hlong₁ : m₁.client.contextBuffer.freeSpace <
        m₁.pchBufferPtr.length := by
      rw [hstuck.block]
      omega
    obtain ⟨m₂, hrounds, hagain₂, happended⟩ :=
      ih (fun i => clock (i + 1)) hstuck.waiting ⟨hstuck.iRet, hstuck.block ▸ hagain.2⟩ hlong₁
    refine ⟨m₂, ?_, hagain₂, happended.trans hstuck.appended⟩
    rw [rounds, if_pos hagain, hround, Option.bind_some, hrounds]

/-- The loop over a block that fits is one round. -/
theorem exists_loop (clock : Nat → Nat → UInt64) (n : Nat)
    (h : Waiting m.ctx m.client) (hagain : m.Again)
    (hfits : m.pchBufferPtr.length ≤ m.client.contextBuffer.freeSpace) :
    ∃ m', m.loop clock (n + 1) = some m' ∧ m.Copied m' := by
  obtain ⟨m₁, hround, hcopied⟩ := exists_copied (clock 0) h hfits
  have hdone : ¬ m₁.Again := fun hmore => hmore.2 hcopied.block
  refine ⟨m₁, ?_, hcopied⟩
  rw [loop, rounds, if_pos hagain, hround, Option.bind_some]
  cases n with
  | zero => simp [rounds, hdone]
  | succ n => simp [rounds, hdone]

/-- **When the loop ends.** -/
theorem loop_eq_some_iff {clock : Nat → Nat → UInt64} {n : Nat}
    (h : Waiting m.ctx m.client) (hagain : m.Again) :
    (∃ m', m.loop clock n = some m') ↔ 0 < n ∧
      m.pchBufferPtr.length ≤ m.client.contextBuffer.freeSpace := by
  constructor
  · rintro ⟨m', hloop⟩
    obtain ⟨last, hrounds, hlast⟩ := Option.bind_eq_some_iff.mp hloop
    constructor
    · rw [Nat.pos_iff_ne_zero]
      rintro rfl
      cases hrounds
      rw [if_pos hagain] at hlast
      cases hlast
    · by_contra hlong
      obtain ⟨m₁, hrounds₁, hagain₁, -⟩ :=
        exists_rounds_again clock n h hagain (by omega)
      obtain rfl : last = m₁ := Option.some.inj (hrounds.symm.trans hrounds₁)
      rw [if_pos hagain₁] at hlast
      cases hlast
  · rintro ⟨hpos, hfits⟩
    obtain ⟨n, rfl⟩ := Nat.exists_eq_succ_of_ne_zero hpos.ne'
    obtain ⟨m', hloop, -⟩ := exists_loop clock n h hagain hfits
    exact ⟨m', hloop⟩

theorem copied_of_loop {clock : Nat → Nat → UInt64} {n : Nat}
    (h : Waiting m.ctx m.client) (hagain : m.Again)
    (hloop : m.loop clock n = some m') : m.Copied m' := by
  obtain ⟨hpos, hfits⟩ := (loop_eq_some_iff h hagain).mp ⟨m', hloop⟩
  obtain ⟨n, rfl⟩ := Nat.exists_eq_succ_of_ne_zero hpos.ne'
  obtain ⟨m₁, hloop₁, hcopied⟩ := exists_loop clock n h hagain hfits
  obtain rfl : m' = m₁ := Option.some.inj (hloop.symm.trans hloop₁)
  exact hcopied

end MessageLoop

end Network
end GameServer
