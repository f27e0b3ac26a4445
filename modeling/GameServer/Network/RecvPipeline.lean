import GameServer.Lib.Transition
import GameServer.Network.Framing

/-!
# The receive pipeline

The network thread decodes packets into the prepare queue, publishes them to
the receive queue under the read lock and raises the signal.  The logic thread
polls the signal, takes the receive queue over under the same lock, handles the
packets by index and releases them.

The step function has one action for each locked section, for each round of the
unpack loop and for each packet handled.  The network thread may call
`UnpackPacketToRecvQueue` for any client with any buffer, so the buffers of the
clients are not part of the state.  As history the state carries the packets
decoded and the packets handled.

When nothing comes between them, the steps of one call are the function
`unpackPacketToRecvQueue`.  Two results are about all interleavings.  The pipeline neither loses,
duplicates nor reorders a packet.  A published packet is announced by the
signal, except for one that was left in the prepare queue by a call that
failed and published by a later call that decoded nothing.
-/

namespace GameServer
namespace Network

open Lib

/-- Where the network thread stands. -/
inductive NetPc where
  | idle
  /-- In the loop of `UnpackPacketToRecvQueue`, with its local variables. -/
  | unpacking (client : ClientContextBuffer) (offset : Nat) (iLeftSize : Int)
      (iTotalPackets : Nat)
  /-- Packets have been published, the signal has not been raised yet. -/
  | emitting

/-- Where the logic thread stands. -/
inductive LogicPc where
  | idle
  /-- `CheckAndSetSignalActived` has returned true. -/
  | checked
  /-- About to handle packet `i` of `iPacketNum`. -/
  | handling (i iPacketNum : Nat)

/-- The context, the position of the two threads and the history. -/
structure RecvState where
  ctx : NetworkContext
  net : NetPc
  logic : LogicPc
  decoded : List NetPacketBuffer
  handled : List NetPacketBuffer

/-- The actions of the two threads. -/
inductive RecvAction where
  /-- The network thread calls `UnpackPacketToRecvQueue`. -/
  | call (client : ClientContextBuffer)
  /-- One round of its loop, or what follows the loop up to the unlock in
  `PacketRecvPrepare`; `now` is the time a packet is stamped with. -/
  | unpack (now : UInt64)
  /-- The network thread raises the signal. -/
  | emit
  /-- The logic thread calls `CheckAndSetSignalActived`. -/
  | check
  /-- The logic thread calls `CopyPacketsFromNetToLogic`. -/
  | copy
  /-- The logic thread handles the next packet. -/
  | handle
  /-- The logic thread calls `ReleaseAllPackets`. -/
  | release

namespace RecvState

/-- A fresh context with both threads idle. -/
def fresh : RecvState := ⟨.construct, .idle, .idle, [], []⟩

/-- Replace the prepare queue, recording what was appended to it. -/
def prepare (s : RecvState) (queue : NetPacketQueue) (net : NetPc) :
    RecvState :=
  { s with
    ctx := { s.ctx with netPacketRecvPrepareQueue := queue }
    net := net
    decoded := s.decoded ++ queue.vecPacketPool.drop
      s.ctx.netPacketRecvPrepareQueue.vecPacketPool.length }

/-- One action.  `none` means that it is not enabled, that an assertion fails
or that an index is out of range. -/
def step (s : RecvState) : RecvAction → Option RecvState
  | .call client =>
    match s.net with
    | .idle =>
      some { s with net := .unpacking client 0 client.iBufferSize 0 }
    | _ => none
  | .unpack now =>
    match s.net with
    | .unpacking client offset iLeftSize iTotalPackets =>
      match unpackStep client.chBuffer offset iLeftSize with
      | .incomplete =>
        some { s with
          ctx := s.ctx.packetRecvPrepare
          net := if iTotalPackets > 0 then .emitting else .idle }
      | .error _ => some { s with net := .idle }
      | .packet iProtoNo iBodySize ptr iPacketSize =>
        (s.ctx.netPacketRecvPrepareQueue.addPacket client.ulClientSeq
          client.iClientFd iProtoNo iBodySize ptr now).map fun queue =>
            s.prepare queue (.unpacking client (offset + iPacketSize)
              (iLeftSize - iPacketSize) (iTotalPackets + 1))
    | _ => none
  | .emit =>
    match s.net with
    | .emitting => some { s with ctx := s.ctx.emit, net := .idle }
    | _ => none
  | .check =>
    match s.logic with
    | .idle =>
      let checked := s.ctx.checkAndSetSignalActived
      some { s with
        ctx := checked.1
        logic := if checked.2 then .checked else .idle }
    | _ => none
  | .copy =>
    match s.logic with
    | .checked =>
      let copied := s.ctx.copyPacketsFromNetToLogic
      -- the assertion of `_ProcessCSNetworkPacketHandle`
      if copied.2 = copied.1.netPacketLogicQueue.size then
        some { s with ctx := copied.1, logic := .handling 0 copied.2 }
      else
        none
    | _ => none
  | .handle =>
    match s.logic with
    | .handling i iPacketNum =>
      if i < iPacketNum then
        s.ctx.netPacketLogicQueue.vecPacketPool[i]?.map fun packet =>
          { s with
            logic := .handling (i + 1) iPacketNum
            handled := s.handled ++ [packet] }
      else
        none
    | _ => none
  | .release =>
    match s.logic with
    | .handling i iPacketNum =>
      if i < iPacketNum then
        none
      else
        some { s with
          ctx := { s.ctx with netPacketLogicQueue :=
            s.ctx.netPacketLogicQueue.releaseAllPackets }
          logic := .idle }
    | _ => none

/-- The packets of the logic queue that are not handled yet. -/
def unhandled (s : RecvState) : List NetPacketBuffer :=
  match s.logic with
  | .handling i _ => s.ctx.netPacketLogicQueue.vecPacketPool.drop i
  | _ => s.ctx.netPacketLogicQueue.vecPacketPool

/-- The steps of the pipeline, one constructor for each thing that can
happen. -/
inductive Transition (s : RecvState) : RecvAction → RecvState → Prop where
  | call (client : ClientContextBuffer) (hnet : s.net = .idle) :
      Transition s (.call client)
        { s with net := .unpacking client 0 client.iBufferSize 0 }
  /-- A complete frame becomes a packet of the prepare queue. -/
  | decode (now : UInt64) (client : ClientContextBuffer) (offset : Nat)
      (iLeftSize : Int) (iTotalPackets : Nat) (packet : NetPacketBuffer)
      (ptr : List Byte) (iPacketSize : Nat)
      (hnet : s.net = .unpacking client offset iLeftSize iTotalPackets)
      (hframe : unpackStep client.chBuffer offset iLeftSize =
        .packet packet.iProtoNo packet.iBufferSize ptr iPacketSize) :
      Transition s (.unpack now)
        { s with
          ctx := { s.ctx with netPacketRecvPrepareQueue :=
            ⟨s.ctx.netPacketRecvPrepareQueue.iPacketNum + 1,
              s.ctx.netPacketRecvPrepareQueue.vecPacketPool ++ [packet]⟩ }
          net := .unpacking client (offset + iPacketSize)
            (iLeftSize - iPacketSize) (iTotalPackets + 1)
          decoded := s.decoded ++ [packet] }
  /-- No complete frame is left: the prepared packets are published. -/
  | publish (now : UInt64) (client : ClientContextBuffer) (offset : Nat)
      (iLeftSize : Int) (iTotalPackets : Nat)
      (hnet : s.net = .unpacking client offset iLeftSize iTotalPackets)
      (hframe : unpackStep client.chBuffer offset iLeftSize = .incomplete) :
      Transition s (.unpack now)
        { s with
          ctx := s.ctx.packetRecvPrepare
          net := if iTotalPackets > 0 then .emitting else .idle }
  /-- An invalid frame: the call returns, the prepared packets stay. -/
  | reject (now : UInt64) (client : ClientContextBuffer) (offset : Nat)
      (iLeftSize : Int) (iTotalPackets : Nat) (iRet : Int)
      (hnet : s.net = .unpacking client offset iLeftSize iTotalPackets)
      (hframe : unpackStep client.chBuffer offset iLeftSize = .error iRet) :
      Transition s (.unpack now) { s with net := .idle }
  | emit (hnet : s.net = .emitting) :
      Transition s .emit { s with ctx := s.ctx.emit, net := .idle }
  | check (hlogic : s.logic = .idle) :
      Transition s .check
        { s with
          ctx := s.ctx.checkAndSetSignalActived.1
          logic := if s.ctx.bHasSignal then .checked else .idle }
  | copy (hlogic : s.logic = .checked) :
      Transition s .copy
        { s with
          ctx := s.ctx.copyPacketsFromNetToLogic.1
          logic := .handling 0 s.ctx.copyPacketsFromNetToLogic.2 }
  | handle (i iPacketNum : Nat) (packet : NetPacketBuffer)
      (hlogic : s.logic = .handling i iPacketNum) (hlt : i < iPacketNum)
      (hpacket : s.ctx.netPacketLogicQueue.vecPacketPool[i]? = some packet) :
      Transition s .handle
        { s with
          logic := .handling (i + 1) iPacketNum
          handled := s.handled ++ [packet] }
  | release (i iPacketNum : Nat) (hlogic : s.logic = .handling i iPacketNum)
      (hdone : ¬ i < iPacketNum) :
      Transition s .release
        { s with
          ctx := { s.ctx with netPacketLogicQueue :=
            s.ctx.netPacketLogicQueue.releaseAllPackets }
          logic := .idle }

variable {s : RecvState}

/-- Every step is one of these. -/
theorem transition_of_step {s' : RecvState} {a : RecvAction}
    (h : s.step a = some s') : Transition s a s' := by
  cases a with
  | call client =>
    simp only [step] at h
    split at h
    · rename_i hnet
      cases h
      exact .call client hnet
    · cases h
  | unpack now =>
    simp only [step] at h
    split at h
    · rename_i client offset iLeftSize iTotalPackets hnet
      split at h
      · rename_i hframe
        cases h
        exact .publish now client offset iLeftSize iTotalPackets hnet hframe
      · rename_i iRet hframe
        cases h
        exact .reject now client offset iLeftSize iTotalPackets iRet hnet hframe
      · rename_i iProtoNo iBodySize ptr iPacketSize hframe
        obtain ⟨queue, hadd, rfl⟩ := Option.map_eq_some_iff.mp h
        obtain ⟨-, rfl⟩ := NetPacketQueue.addPacket_eq_some_iff.mp hadd
        have hdecode := Transition.decode now client offset iLeftSize
          iTotalPackets ⟨client.ulClientSeq, client.iClientFd, iProtoNo,
            iBodySize, now, ptr.take iBodySize⟩ ptr iPacketSize hnet hframe
        simpa only [prepare, List.drop_left] using hdecode
    · cases h
  | emit =>
    simp only [step] at h
    split at h
    · rename_i hnet
      cases h
      exact .emit hnet
    · cases h
  | check =>
    simp only [step] at h
    split at h
    · rename_i hlogic
      cases h
      exact .check hlogic
    · cases h
  | copy =>
    simp only [step] at h
    split at h
    · rename_i hlogic
      split at h
      · cases h
        exact .copy hlogic
      · cases h
    · cases h
  | handle =>
    simp only [step] at h
    split at h
    · rename_i i iPacketNum hlogic
      split at h
      · rename_i hlt
        obtain ⟨packet, hpacket, rfl⟩ := Option.map_eq_some_iff.mp h
        exact .handle i iPacketNum packet hlogic hlt hpacket
      · cases h
    · cases h
  | release =>
    simp only [step] at h
    split at h
    · rename_i i iPacketNum hlogic
      split at h
      · cases h
      · rename_i hdone
        cases h
        exact .release i iPacketNum hlogic hdone
    · cases h

/-! ## The steps of one call -/

/-- `t` differs from `s` in what the network thread works on only. -/
structure SameLogic (s t : RecvState) : Prop where
  logic : t.logic = s.logic
  handled : t.handled = s.handled

/-- The rounds of the loop, taken one after the other, are `unpackLoop`: they
end where it ends, with its local variables and its queue. -/
theorem exists_run_unpackLoop (client : ClientContextBuffer)
    (clock : Nat → UInt64) {queue : NetPacketQueue} {offset : Nat}
    {iLeftSize : Int} {iTotalPackets : Nat} {loop : UnpackLoopResult}
    {s : RecvState} (hqueue : s.ctx.netPacketRecvPrepareQueue = queue)
    (hnet : s.net = .unpacking client offset iLeftSize iTotalPackets)
    (hloop : unpackLoop client clock queue offset iLeftSize iTotalPackets = some loop) :
    ∃ (rounds : List RecvAction) (t : RecvState), runSteps step s rounds = some t ∧
        t.ctx = { s.ctx with netPacketRecvPrepareQueue := loop.queue } ∧
        t.net = .unpacking client loop.offset loop.iLeftSize loop.iTotalPackets ∧
        SameLogic s t ∧
        (loop.iRet = 0 → unpackStep client.chBuffer loop.offset loop.iLeftSize = .incomplete) ∧
        (loop.iRet ≠ 0 → unpackStep client.chBuffer loop.offset
          loop.iLeftSize = .error loop.iRet) := by
  fun_induction unpackLoop client clock queue offset iLeftSize iTotalPackets generalizing s with
  | case1 queue offset iLeftSize iTotalPackets hstep =>
    cases hloop
    exact ⟨[], s, rfl, by rw [← hqueue], hnet, ⟨rfl, rfl⟩, fun _ => hstep,
      fun hne => (hne rfl).elim⟩
  | case2 queue offset iLeftSize iTotalPackets iRet hstep =>
    cases hloop
    refine ⟨[], s, rfl, by rw [← hqueue], hnet, ⟨rfl, rfl⟩, ?_, fun _ => hstep⟩
    intro hzero
    have hcode := unpackStep_error_eq hstep
    dsimp only at hzero
    omega
  | case3 => cases hloop
  | case4 queue offset iLeftSize iTotalPackets iProtoNo iBodySize ptr
      iPacketSize hstep _ _ after hadd ih =>
      have hfirst : s.step (.unpack (clock iTotalPackets)) =
          some (s.prepare after (.unpacking client (offset + iPacketSize)
            (iLeftSize - iPacketSize) (iTotalPackets + 1))) := by
        simp only [step, hnet, hstep, hqueue, hadd, Option.map_some]
      obtain ⟨rounds, t, hrun, hctx, hnet', hsame, hzero, herror⟩ :=
        @ih (s.prepare after _) rfl rfl hloop
      exact ⟨.unpack (clock iTotalPackets) :: rounds, t,
        runSteps_cons_eq_some_iff.mpr ⟨_, hfirst, hrun⟩, hctx, hnet',
        ⟨hsame.logic, hsame.handled⟩, hzero, herror⟩

/-- What follows the loop: after an error the call returns at once, otherwise it
publishes, and raises the signal if it has decoded packets. -/
theorem exists_run_after_loop {client : ClientContextBuffer}
    {loop : UnpackLoopResult}
    (hnet : s.net = .unpacking client loop.offset loop.iLeftSize loop.iTotalPackets)
    (hzero : loop.iRet = 0 → unpackStep client.chBuffer loop.offset loop.iLeftSize = .incomplete)
    (herror : loop.iRet ≠ 0 → unpackStep client.chBuffer loop.offset
      loop.iLeftSize = .error loop.iRet) :
    ∃ (last : List RecvAction) (t : RecvState),
      runSteps step s last = some t ∧ t.net = .idle ∧ SameLogic s t ∧ t.ctx =
          if loop.iRet ≠ 0 then s.ctx
          else if loop.iTotalPackets > 0 then s.ctx.packetRecvPrepare.emit
          else s.ctx.packetRecvPrepare := by
  by_cases hret : loop.iRet = 0
  · have hpublish : s.step (.unpack 0) = some { s with
          ctx := s.ctx.packetRecvPrepare
          net := if loop.iTotalPackets > 0 then .emitting else .idle } := by
      simp only [step, hnet, hzero hret]
    by_cases hpackets : loop.iTotalPackets > 0
    · rw [if_pos hpackets] at hpublish
      refine ⟨[.unpack 0, .emit], _,
        runSteps_cons_eq_some_iff.mpr ⟨_, hpublish, rfl⟩, rfl, ⟨rfl, rfl⟩, ?_⟩
      rw [if_neg (not_not.mpr hret), if_pos hpackets]
    · rw [if_neg hpackets] at hpublish
      refine ⟨[.unpack 0], _, runSteps_cons_eq_some_iff.mpr ⟨_, hpublish, rfl⟩, rfl, ⟨rfl, rfl⟩, ?_⟩
      rw [if_neg (not_not.mpr hret), if_neg hpackets]
  · have hreject : s.step (.unpack 0) = some { s with net := .idle } := by
      simp only [step, hnet, herror hret]
    refine ⟨[.unpack 0], _, runSteps_cons_eq_some_iff.mpr ⟨_, hreject, rfl⟩,
      rfl, ⟨rfl, rfl⟩, ?_⟩
    rw [if_pos hret]

/-- **The steps are the code's.**  When nothing comes between them, the steps of
a call have the effect of `UnpackPacketToRecvQueue` on the context. -/
theorem exists_run_unpackPacketToRecvQueue (hnet : s.net = .idle)
    {client : ClientContextBuffer} {clock : Nat → UInt64}
    {result : UnpackResult}
    (hcall : unpackPacketToRecvQueue s.ctx client clock = some result) :
    ∃ (actions : List RecvAction) (t : RecvState),
      runSteps step s (.call client :: actions) = some t ∧
        t.ctx = result.ctx ∧ t.net = .idle ∧ SameLogic s t := by
  rw [unpackPacketToRecvQueue, Option.map_eq_some_iff] at hcall
  obtain ⟨loop, hloop, rfl⟩ := hcall
  have hfirst : s.step (.call client) =
      some { s with net := .unpacking client 0 client.iBufferSize 0 } := by
    simp only [step, hnet]
  obtain ⟨rounds, t, hrun, hctx, hnet', hsame, hzero, herror⟩ :=
    @exists_run_unpackLoop client clock _ _ _ _ loop
      { s with net := .unpacking client 0 client.iBufferSize 0 } rfl rfl hloop
  obtain ⟨last, t', hlast, hidle, hsame', hctx'⟩ :=
    exists_run_after_loop hnet' hzero herror
  refine ⟨rounds ++ last, t', ?_, ?_, hidle,
    ⟨hsame'.logic.trans hsame.logic, hsame'.handled.trans hsame.handled⟩⟩
  · rw [runSteps_cons_eq_some_iff]
    refine ⟨_, hfirst, ?_⟩
    rw [runSteps_append, hrun, Option.bind_some, hlast]
  · rw [hctx', hctx]
    dsimp only
    split_ifs
    · rfl
    · rfl
    · rfl

/-! ## No packet is lost, duplicated or reordered -/

/-- The packets in the pipeline and those handled are the packets decoded; the
logic queue is empty outside the handling loop, and inside it the count is its
length. -/
structure Conserves (s : RecvState) : Prop where
  packets : s.handled ++ s.unhandled ++
    s.ctx.netPacketRecvQueue.vecPacketPool ++
    s.ctx.netPacketRecvPrepareQueue.vecPacketPool = s.decoded
  recv : s.ctx.netPacketRecvQueue.NoneHidden
  empty : (∀ i iPacketNum, s.logic ≠ .handling i iPacketNum) →
    s.ctx.netPacketLogicQueue.vecPacketPool = []
  counted : ∀ i iPacketNum, s.logic = .handling i iPacketNum →
    i ≤ iPacketNum ∧
      iPacketNum = s.ctx.netPacketLogicQueue.vecPacketPool.length

theorem conserves_fresh : Conserves fresh where
  packets := rfl
  recv := NetPacketQueue.counted_init.noneHidden
  empty := fun _ => rfl
  counted := by
    intro i iPacketNum h
    cases h

theorem conserves_step (s : RecvState) (a : RecvAction) (s' : RecvState)
    (h : s.Conserves) (hstep : s.step a = some s') : s'.Conserves := by
  cases transition_of_step hstep with
  | call client hnet => exact ⟨h.packets, h.recv, h.empty, h.counted⟩
  | decode now client offset iLeftSize iTotalPackets packet ptr iPacketSize hnet hframe =>
      refine ⟨?_, h.recv, h.empty, h.counted⟩
      show s.handled ++ s.unhandled ++ _ ++ (_ ++ [packet]) = s.decoded ++ _
      rw [← List.append_assoc, h.packets]
  | publish now client offset iLeftSize iTotalPackets hnet hframe =>
    refine ⟨?_, ?_, h.empty, h.counted⟩
    · have hpublished := enqueued_packetRecvPrepare h.recv
      simp only [NetworkContext.enqueued] at hpublished
      show s.handled ++ s.unhandled ++ _ ++ _ = s.decoded
      rw [List.append_assoc, hpublished, ← List.append_assoc]
      exact h.packets
    · exact (NetPacketQueue.counted_copyFrom _ _).noneHidden
  | reject now client offset iLeftSize iTotalPackets iRet hnet hframe =>
    exact ⟨h.packets, h.recv, h.empty, h.counted⟩
  | emit hnet => exact ⟨h.packets, h.recv, h.empty, h.counted⟩
  | check hlogic =>
    have hempty := h.empty (by simp [hlogic])
    refine ⟨?_, h.recv, fun _ => hempty, ?_⟩
    · have hpackets := h.packets
      simp only [unhandled, hlogic] at hpackets
      show s.handled ++ unhandled _ ++ _ ++ _ = s.decoded
      simp only [unhandled]
      split
      · rename_i hsplit
        split at hsplit <;> cases hsplit
      · exact hpackets
    · intro i iPacketNum hhandling
      dsimp only at hhandling
      split at hhandling <;> cases hhandling
  | copy hlogic =>
    have hempty := h.empty (by simp [hlogic])
    have hpackets := h.packets
    simp only [unhandled, hlogic, hempty, List.append_nil] at hpackets
    have hcopied := NetPacketQueue.vecPacketPool_init_copyFrom s.ctx.netPacketRecvQueue
    refine ⟨?_, ?_, ?_, ?_⟩
    · show s.handled ++ List.drop 0 (NetPacketQueue.copyFrom _ _).1.vecPacketPool ++
        (NetPacketQueue.copyFrom _ _).2.vecPacketPool ++
        s.ctx.netPacketRecvPrepareQueue.vecPacketPool = s.decoded
      rw [hcopied, NetPacketQueue.copyFrom_snd, List.drop_zero]
      simpa using hpackets
    · show (NetPacketQueue.copyFrom _ _).2.NoneHidden
      rw [NetPacketQueue.copyFrom_snd]
      exact NetPacketQueue.counted_init.noneHidden
    · intro hnot
      exact (hnot _ _ rfl).elim
    · intro i iPacketNum hhandling
      cases hhandling
      exact ⟨Nat.zero_le _, NetPacketQueue.counted_copyFrom _ _⟩
  | handle i iPacketNum packet hlogic hlt hpacket =>
    have hpackets := h.packets
    simp only [unhandled, hlogic] at hpackets
    refine ⟨?_, h.recv, ?_, ?_⟩
    · show (s.handled ++ [packet]) ++
        s.ctx.netPacketLogicQueue.vecPacketPool.drop (i + 1) ++ _ ++ _ = s.decoded
      rw [← hpackets, NetPacketQueue.drop_of_getElem? hpacket]
      simp
    · intro hnot
      exact (hnot _ _ rfl).elim
    · intro i' iPacketNum' hhandling
      cases hhandling
      exact ⟨hlt, (h.counted i iPacketNum hlogic).2⟩
  | release i iPacketNum hlogic hdone =>
    have hpackets := h.packets
    obtain ⟨hle, hlength⟩ := h.counted i iPacketNum hlogic
    have hnone : s.ctx.netPacketLogicQueue.vecPacketPool.drop i = [] := by
      rw [List.drop_eq_nil_iff]
      omega
    simp only [unhandled, hlogic, hnone] at hpackets
    refine ⟨hpackets, h.recv, fun _ => rfl, ?_⟩
    intro i' iPacketNum' hhandling
    cases hhandling

/-- **The receive pipeline is a queue.**  At every point of every interleaving
the packets handled, followed by the rest of the logic queue, the receive queue
and the prepare queue, are the packets decoded, in decode order.  The count
that `CopyPacketsFromNetToLogic` returns is the length of the logic queue, also
while the packets are being handled, so that no index is out of range. -/
theorem packets_conserved (actions : List RecvAction) (s : RecvState)
    (hrun : runSteps step fresh actions = some s) :
    s.handled ++ s.unhandled ++ s.ctx.netPacketRecvQueue.vecPacketPool ++
        s.ctx.netPacketRecvPrepareQueue.vecPacketPool = s.decoded ∧
      s.ctx.copyPacketsFromNetToLogic.2 =
        s.ctx.copyPacketsFromNetToLogic.1.netPacketLogicQueue.vecPacketPool.length ∧
      (∀ i iPacketNum, s.logic = .handling i iPacketNum →
        iPacketNum = s.ctx.netPacketLogicQueue.vecPacketPool.length) ∧
      (∀ i iPacketNum, s.logic = .handling i iPacketNum → i < iPacketNum →
        s.step .handle ≠ none) := by
  have hinv : s.Conserves := runSteps_invariant conserves_step conserves_fresh hrun
  refine ⟨hinv.packets, NetPacketQueue.counted_copyFrom _ _,
    fun i iPacketNum hlogic => (hinv.counted i iPacketNum hlogic).2, ?_⟩
  intro i iPacketNum hlogic hlt
  have hlength := (hinv.counted i iPacketNum hlogic).2
  have hget : s.ctx.netPacketLogicQueue.vecPacketPool[i]? ≠ none := by
    rw [Ne, List.getElem?_eq_none_iff]
    omega
  simp only [step, hlogic, if_pos hlt, Ne, Option.map_eq_none_iff]
  exact hget

/-- One packet on its way through the whole pipeline. -/
theorem packets_conserved_one_packet :
    ∃ s, runSteps step fresh
        [.call (.ofContent 1 7 [0, 5, 0, 1, 42] (by decide)), .unpack 3,
          .unpack 3, .emit, .check, .copy, .handle] = some s ∧
      s.handled = [⟨1, 7, 1, 1, 3, [42]⟩] ∧
      s.handled ++ s.unhandled ++ s.ctx.netPacketRecvQueue.vecPacketPool ++
        s.ctx.netPacketRecvPrepareQueue.vecPacketPool = s.decoded := by
  obtain ⟨s, hrun⟩ : ∃ s, runSteps step fresh
      [.call (.ofContent 1 7 [0, 5, 0, 1, 42] (by decide)), .unpack 3,
        .unpack 3, .emit, .check, .copy, .handle] = some s := ⟨_, rfl⟩
  refine ⟨s, hrun, ?_, (packets_conserved _ s hrun).1⟩
  cases hrun
  rfl

/-! ## Published packets and the signal -/

/-- Between the calls of both threads a non-empty receive queue has the signal
up.  While the logic thread handles packets it is between two calls. -/
def WakesLogic (s : RecvState) : Prop :=
  s.net = .idle → s.logic ≠ .checked →
    s.ctx.netPacketRecvQueue.vecPacketPool ≠ [] → s.ctx.bHasSignal = true

/-- A call that has decoded nothing publishes, without raising the signal,
what earlier calls left in the prepare queue when they failed.  When it does
so, there is nothing left there, or the signal is up, or the logic thread is
about to copy. -/
def LeftoversAnnounced (s : RecvState) : RecvAction → Prop
  | .unpack _ => ∀ client offset iLeftSize,
      s.net = .unpacking client offset iLeftSize 0 →
      unpackStep client.chBuffer offset iLeftSize = .incomplete →
        s.ctx.netPacketRecvPrepareQueue.vecPacketPool = [] ∨
          s.ctx.bHasSignal = true ∨ s.logic = .checked
  | _ => True

/-- A published packet is announced: the signal is up, or the logic thread has
seen it, or the network thread is about to raise it. -/
def Announced (s : RecvState) : Prop :=
  s.ctx.netPacketRecvQueue.vecPacketPool ≠ [] →
    s.ctx.bHasSignal = true ∨ s.logic = .checked ∨ s.net = .emitting

theorem announced_fresh : Announced fresh := fun h => (h rfl).elim

/-- Outside the window before `Emit`, an announcement does not depend on the
network thread. -/
theorem Announced.of_net (h : s.Announced) (hnet : s.net ≠ .emitting)
    (hrecv : s.ctx.netPacketRecvQueue.vecPacketPool ≠ []) :
    s.ctx.bHasSignal = true ∨ s.logic = .checked := by
  rcases h hrecv with hsignal | hchecked | hemitting
  · exact Or.inl hsignal
  · exact Or.inr hchecked
  · exact (hnet hemitting).elim

/-- Unless the logic thread has seen the signal, an announcement does not depend
on it. -/
theorem Announced.of_logic (h : s.Announced) (hlogic : s.logic ≠ .checked)
    (hrecv : s.ctx.netPacketRecvQueue.vecPacketPool ≠ []) :
    s.ctx.bHasSignal = true ∨ s.net = .emitting := by
  rcases h hrecv with hsignal | hchecked | hemitting
  · exact Or.inl hsignal
  · exact (hlogic hchecked).elim
  · exact Or.inr hemitting

theorem Announced.wakesLogic (h : s.Announced) : s.WakesLogic := by
  intro hnet hlogic hrecv
  rcases h.of_logic hlogic hrecv with hsignal | hemitting
  · exact hsignal
  · rw [hnet] at hemitting
    cases hemitting

/-- The receive queue after `PacketRecvPrepare`. -/
theorem vecPacketPool_packetRecvPrepare {ctx : NetworkContext}
    (hrecv : ctx.netPacketRecvQueue.NoneHidden) :
    ctx.packetRecvPrepare.netPacketRecvQueue.vecPacketPool = ctx.netPacketRecvQueue.vecPacketPool ++
        ctx.netPacketRecvPrepareQueue.vecPacketPool := by
  show (ctx.netPacketRecvQueue.copyFrom _).1.vecPacketPool = _
  rw [NetPacketQueue.vecPacketPool_copyFrom hrecv]

/-- One step keeps the announcement if it announces its leftovers. -/
theorem announced_step (s : RecvState) (a : RecvAction) (s' : RecvState)
    (hrecv : s.ctx.netPacketRecvQueue.NoneHidden) (h : s.Announced)
    (hcond : s.LeftoversAnnounced a) (hstep : s.step a = some s') :
    s'.Announced := by
  intro hne
  cases transition_of_step hstep with
  | call client hnet =>
    exact (h.of_net (by simp [hnet]) hne).imp_right Or.inl
  | decode now client offset iLeftSize iTotalPackets packet ptr iPacketSize hnet hframe =>
      exact (h.of_net (by simp [hnet]) hne).imp_right Or.inl
  | publish now client offset iLeftSize iTotalPackets hnet hframe =>
    by_cases htotal : iTotalPackets > 0
    · exact Or.inr (Or.inr (if_pos htotal))
    · -- nothing was decoded: what is published now are leftovers
      obtain rfl : iTotalPackets = 0 := by omega
      rcases hcond client offset iLeftSize hnet hframe with hnone | hannounced
      · have hpublished := vecPacketPool_packetRecvPrepare hrecv
        rw [hnone, List.append_nil] at hpublished
        have hbefore := h.of_net (by simp [hnet]) (hpublished ▸ hne)
        exact hbefore.imp_right Or.inl
      · exact hannounced.imp_right Or.inl
  | reject now client offset iLeftSize iTotalPackets iRet hnet hframe =>
    exact (h.of_net (by simp [hnet]) hne).imp_right Or.inl
  | emit hnet => exact Or.inl rfl
  | check hlogic =>
    rcases h.of_logic (by simp [hlogic]) hne with hsignal | hemitting
    · exact Or.inr (Or.inl (if_pos hsignal))
    · exact Or.inr (Or.inr hemitting)
  | copy hlogic =>
    refine (hne ?_).elim
    show (NetPacketQueue.copyFrom _ _).2.vecPacketPool = []
    rw [NetPacketQueue.copyFrom_snd]
    rfl
  | handle i iPacketNum packet hlogic hlt hpacket =>
    exact (h.of_logic (by simp [hlogic]) hne).imp_right Or.inr
  | release i iPacketNum hlogic hdone =>
    exact (h.of_logic (by simp [hlogic]) hne).imp_right Or.inr

/-- A step after which the logic thread is woken has announced its
leftovers. -/
theorem leftoversAnnounced_of_wakesLogic (s : RecvState) (a : RecvAction)
    (s' : RecvState) (hrecv : s.ctx.netPacketRecvQueue.NoneHidden)
    (hstep : s.step a = some s') (hwakes : s'.WakesLogic) :
    s.LeftoversAnnounced a := by
  cases a with
  | unpack now =>
    intro client offset iLeftSize hnet hframe
    simp only [step, hnet, hframe, Option.some.injEq] at hstep
    subst hstep
    by_contra hnot
    obtain ⟨hleft, hsignal, hlogic⟩ := by
      simpa only [not_or] using hnot
    have hpublished := vecPacketPool_packetRecvPrepare hrecv
    refine hsignal (hwakes rfl hlogic ?_)
    show s.ctx.packetRecvPrepare.netPacketRecvQueue.vecPacketPool ≠ []
    rw [hpublished]
    exact List.append_ne_nil_of_right_ne_nil _ hleft
  | _ => trivial

/-- **When no wakeup is lost.**  All along an interleaving a non-empty receive
queue has the signal up between calls, exactly when every call that decodes
nothing finds no leftovers to publish, or finds the signal up or the logic
thread about to copy when it publishes them. -/
theorem wakesLogic_iff_leftoversAnnounced (actions : List RecvAction)
    (s : RecvState) (hrun : runSteps step fresh actions = some s) :
    (∀ first rest t, actions = first ++ rest → runSteps step fresh first = some t → t.WakesLogic) ↔
      RunMeets step LeftoversAnnounced fresh actions := by
  have hkeep : ∀ (s : RecvState) a s', s.Conserves ∧ s.Announced →
      s.LeftoversAnnounced a → s.step a = some s' → s'.Conserves ∧ s'.Announced := by
    rintro s a s' ⟨hconserves, hannounced⟩ hcond hstep
    exact ⟨conserves_step s a s' hconserves hstep,
      announced_step s a s' hconserves.recv hannounced hcond hstep⟩
  have hneed : ∀ (s : RecvState) a s', s.Conserves ∧ s.Announced →
      s.step a = some s' → s'.WakesLogic → s.LeftoversAnnounced a := by
    rintro s a s' ⟨hconserves, -⟩ hstep hwakes
    exact leftoversAnnounced_of_wakesLogic s a s' hconserves.recv hstep hwakes
  have hprop : ∀ s : RecvState, s.Conserves ∧ s.Announced → s.WakesLogic :=
    fun s h => h.2.wakesLogic
  exact forall_reached_iff_runMeets hkeep hneed hprop ⟨conserves_fresh, announced_fresh⟩ hrun

/-- A packet that is decoded, published and announced. -/
theorem wakesLogic_iff_leftoversAnnounced_one_packet :
    ∃ s, runSteps step fresh
        [.call (.ofContent 1 7 [0, 5, 0, 1, 42] (by decide)), .unpack 3,
          .unpack 3, .emit] = some s ∧
      ∀ first rest t, [.call (.ofContent 1 7 [0, 5, 0, 1, 42] (by decide)), .unpack 3,
          .unpack 3, .emit] = first ++ rest →
        runSteps step fresh first = some t → t.WakesLogic := by
  obtain ⟨s, hrun⟩ : ∃ s, runSteps step fresh
      [.call (.ofContent 1 7 [0, 5, 0, 1, 42] (by decide)), .unpack 3,
        .unpack 3, .emit] = some s := ⟨_, rfl⟩
  refine ⟨s, hrun, (wakesLogic_iff_leftoversAnnounced _ s hrun).mpr ⟨trivial, ?_⟩⟩
  intro s₁ h₁
  cases h₁
  refine ⟨fun _ _ _ _ _ => Or.inl rfl, ?_⟩
  intro s₂ h₂
  cases h₂
  refine ⟨?_, ?_⟩
  · -- one packet has been decoded, so the loop's count is not zero
    intro client offset iLeftSize hnet
    cases hnet
  · intro s₃ _
    exact ⟨trivial, fun _ _ => trivial⟩

/-- A frame that is too short follows a packet of client 1: the call fails and
leaves the packet behind.  The next call, for client 2 with an empty buffer,
publishes it.  Both threads are idle, the receive queue holds the packet and
the signal is down. -/
theorem not_wakesLogic_leftover :
    ∃ s, runSteps step fresh
        [.call (.ofContent 1 7 [0, 5, 0, 1, 42, 0, 4, 0, 1] (by decide)),
          .unpack 3, .unpack 3, .call (.ofContent 2 8 [] (by decide)),
          .unpack 4] = some s ∧
      s.net = .idle ∧ s.logic = .idle ∧
      s.ctx.netPacketRecvQueue.vecPacketPool = [⟨1, 7, 1, 1, 3, [42]⟩] ∧
      s.ctx.bHasSignal = false ∧ ¬ s.WakesLogic := by
  obtain ⟨s, hrun⟩ : ∃ s, runSteps step fresh
      [.call (.ofContent 1 7 [0, 5, 0, 1, 42, 0, 4, 0, 1] (by decide)),
        .unpack 3, .unpack 3, .call (.ofContent 2 8 [] (by decide)),
        .unpack 4] = some s := ⟨_, rfl⟩
  have hnet : s.net = .idle := by cases hrun; rfl
  have hlogic : s.logic = .idle := by cases hrun; rfl
  have hrecv : s.ctx.netPacketRecvQueue.vecPacketPool =
      [⟨1, 7, 1, 1, 3, [42]⟩] := by cases hrun; rfl
  have hsignal : s.ctx.bHasSignal = false := by cases hrun; rfl
  refine ⟨s, hrun, hnet, hlogic, hrecv, hsignal, ?_⟩
  intro hwakes
  have hup := hwakes hnet (by simp [hlogic]) (by simp [hrecv])
  rw [hsignal] at hup
  cases hup

end RecvState

end Network
end GameServer
