import GameServer.Lib.Transition
import GameServer.Network.ReadLoop

/-!
# What becomes of the bytes in a receive buffer

`UnpackPacketToRecvQueue` turns bytes into packets.  When it returns zero, the
bytes of the packets it has enqueued are gone from the buffer.  When it returns
an error it leaves the function inside its loop: the packets found so far stay
enqueued, but `MoveBufferPtr` is not reached, and their bytes stay in the buffer
as well.  A caller that goes on with the connection, as the read callback of a
connector does, finds them there again.

The first part is about one call.  The second part is about a buffer over its
whole life, with a history that remembers for every enqueued packet where in
the stream of received bytes its frame began.
-/

namespace GameServer
namespace Network

open Lib

/-- The raw frames of some packets, one after the other. -/
def framesOf (packets : List NetPacketBuffer) : List Byte :=
  (packets.map fun packet => frameOf packet.iProtoNo packet.buffer).flatten

@[simp] theorem framesOf_nil : framesOf [] = [] := rfl

@[simp] theorem framesOf_cons (packet : NetPacketBuffer) (packets : List NetPacketBuffer) :
    framesOf (packet :: packets) = frameOf packet.iProtoNo packet.buffer ++ framesOf packets := rfl

@[simp] theorem framesOf_append (first second : List NetPacketBuffer) :
    framesOf (first ++ second) = framesOf first ++ framesOf second := by
  simp [framesOf]

variable {packets : List NetPacketBuffer}

/-- Every packet has a frame of at least a header. -/
theorem framesOf_eq_nil_iff : framesOf packets = [] ↔ packets = [] := by
  cases packets with
  | nil => simp
  | cons packet packets =>
    have hlength := length_frameOf packet.iProtoNo packet.buffer
    have hheader : networkPacketHeaderSize = 4 := rfl
    have hne : frameOf packet.iProtoNo packet.buffer ≠ [] := by
      intro hnil
      rw [hnil, List.length_nil] at hlength
      omega
    simp [hne]

/-- Packets with the wire image of a parse have the frames of the parse. -/
theorem framesOf_of_wire {stream : List Byte}
    (h : packets.map NetPacketBuffer.wire = (referenceParse stream).packets) :
    framesOf packets ++ (referenceParse stream).rest = stream := by
  have hframes := referenceParse_frames stream
  rw [← h, List.map_map] at hframes
  exact hframes

/-! ## One call -/

/-- The buffer holds an invalid frame with valid ones in front of it. -/
def InvalidBehindFrame (bytes : List Byte) : Prop :=
  (referenceParse bytes).packets ≠ [] ∧ (referenceParse bytes).error ≠ none

/-- The call enqueues packets whose raw frames, followed by what it leaves in
the buffer, are the bytes that were in the buffer. -/
def ConservesBytes (ctx : NetworkContext) (client : ClientContextBuffer)
    (clock : Nat → UInt64) : Prop :=
  ∃ result added, unpackPacketToRecvQueue ctx client clock = some result ∧
    result.ctx.enqueued = ctx.enqueued ++ added ∧
    framesOf added ++ result.client.content = client.content

/-- What a call does with the bytes in the buffer. -/
theorem unpackPacketToRecvQueue_frames {ctx : NetworkContext}
    {client : ClientContextBuffer} (hctx : ctx.netPacketRecvQueue.NoneHidden)
    (hclient : client.InBounds) (clock : Nat → UInt64) :
    ∃ result added, unpackPacketToRecvQueue ctx client clock = some result ∧
        result.ctx.enqueued = ctx.enqueued ++ added ∧
        added.map NetPacketBuffer.wire = (referenceParse client.content).packets ∧
        ((referenceParse client.content).error = none →
          framesOf added ++ result.client.content = client.content) ∧
        ((referenceParse client.content).error ≠ none → result.client = client) ∧
        result.client.InBounds ∧
        result.ctx.netPacketRecvQueue.NoneHidden := by
  obtain ⟨result, added, hcall, henqueued, hwire, -, hret, hrest, hkept,
      hbounds, -, hhidden⟩ := unpackPacketToRecvQueue_spec hctx hclient clock
  refine ⟨result, added, hcall, henqueued, hwire, ?_, ?_, hbounds, hhidden⟩
  · intro hnone
    rw [hnone, Option.getD_none] at hret
    rw [hrest hret]
    exact framesOf_of_wire hwire
  · intro herror
    apply hkept
    obtain ⟨e, he⟩ := Option.ne_none_iff_exists'.mp herror
    rw [hret, he, Option.getD_some]
    exact referenceParse_error_ne_zero he

/-- One call conserves the bytes exactly when there is no invalid frame behind
a valid one. -/
theorem conservesBytes_iff_not_invalidBehindFrame {ctx : NetworkContext}
    {client : ClientContextBuffer} (hctx : ctx.netPacketRecvQueue.NoneHidden)
    (hclient : client.InBounds) (clock : Nat → UInt64) :
    ConservesBytes ctx client clock ↔ ¬ InvalidBehindFrame client.content := by
  obtain ⟨result, added, hcall, henqueued, hwire, hgood, hbad, -⟩ :=
    unpackPacketToRecvQueue_frames hctx hclient clock
  constructor
  · rintro ⟨result', added', hcall', henqueued', hbytes⟩ ⟨hpackets, herror⟩
    obtain rfl : result = result' := Option.some.inj (hcall.symm.trans hcall')
    obtain rfl : added = added' :=
      List.append_cancel_left (henqueued.symm.trans henqueued')
    -- the buffer is as it was, so there is no room for the frames
    rw [hbad herror, List.append_left_eq_self, framesOf_eq_nil_iff] at hbytes
    rw [hbytes, List.map_nil] at hwire
    exact hpackets hwire.symm
  · intro hvalid
    refine ⟨result, added, hcall, henqueued, ?_⟩
    by_cases herror : (referenceParse client.content).error = none
    · exact hgood herror
    · have hpackets : (referenceParse client.content).packets = [] := by
        by_contra hpackets
        exact hvalid ⟨hpackets, herror⟩
      rw [hpackets, List.map_eq_nil_iff] at hwire
      rw [hwire, hbad herror, framesOf_nil, List.nil_append]

/-! ## A buffer over its whole life -/

/-- Where the frames of some packets begin when the first one begins at
`base`. -/
def frameStarts : Nat → List NetPacketBuffer → List Nat
  | _, [] => []
  | base, packet :: packets =>
    base :: frameStarts
      (base + (frameOf packet.iProtoNo packet.buffer).length) packets

theorem frameStarts_append (base : Nat) (first second : List NetPacketBuffer) :
    frameStarts base (first ++ second) = frameStarts base first ++
      frameStarts (base + (framesOf first).length) second := by
  induction first generalizing base with
  | nil => rfl
  | cons packet first ih =>
    rw [List.cons_append, frameStarts, frameStarts, List.cons_append, ih,
      framesOf_cons, List.length_append, Nat.add_assoc]

/-- No frame begins before `base`. -/
theorem le_of_mem_frameStarts {base start : Nat}
    (h : start ∈ frameStarts base packets) : base ≤ start := by
  induction packets generalizing base with
  | nil => cases h
  | cons packet packets ih =>
    rcases List.mem_cons.mp h with rfl | h
    · exact le_refl _
    · exact le_trans (Nat.le_add_right _ _) (ih h)

/-- Consecutive frames begin at different places. -/
theorem nodup_frameStarts (base : Nat) (packets : List NetPacketBuffer) :
    (frameStarts base packets).Nodup := by
  induction packets generalizing base with
  | nil => exact List.nodup_nil
  | cons packet packets ih =>
    refine List.nodup_cons.mpr ⟨fun hmem => ?_, ih _⟩
    have hle := le_of_mem_frameStarts hmem
    have hheader : networkPacketHeaderSize = 4 := rfl
    rw [length_frameOf] at hle
    omega

/-- A context and the buffer of one client, and as history the bytes received
so far, the packets unpacked from them, and where in the received bytes their
frames began. -/
structure BufferLife where
  ctx : NetworkContext
  client : ClientContextBuffer
  received : List Byte
  unpacked : List NetPacketBuffer
  starts : List Nat

/-- `PacketBufferRead` stores bytes that fit, or `UnpackPacketToRecvQueue` is
called, whatever it returned before. -/
inductive BufferAction where
  | store (bytes : List Byte)
  | unpack (clock : Nat → UInt64)

namespace BufferLife

/-- A new client of a context. -/
def fresh (ctx : NetworkContext) (ulClientSeq : UInt64) (iClientFd : Int) :
    BufferLife :=
  ⟨ctx, .construct ulClientSeq iClientFd, [], [], []⟩

/-- One action.  The content of the buffer is the end of what was received, so
that is where the first frame of a call begins. -/
def step (s : BufferLife) : BufferAction → Option BufferLife
  | .store bytes =>
    if bytes.length ≤ s.client.freeSpace then
      some { s with
        client := s.client.append bytes
        received := s.received ++ bytes }
    else
      none
  | .unpack clock =>
    (unpackPacketToRecvQueue s.ctx s.client clock).map fun result =>
      let added := result.ctx.enqueued.drop s.ctx.enqueued.length
      { s with
        ctx := result.ctx
        client := result.client
        unpacked := s.unpacked ++ added
        starts := s.starts ++ frameStarts
          (s.received.length - s.client.content.length) added }

/-- The frames unpacked and the bytes left make up what was received, and no
frame was unpacked twice. -/
structure Conserved (s : BufferLife) : Prop where
  bytes : framesOf s.unpacked ++ s.client.content = s.received
  once : s.starts.Nodup

/-- `UnpackPacketToRecvQueue` is called with no invalid frame behind a valid
one in the buffer. -/
def ValidFront (s : BufferLife) : BufferAction → Prop
  | .store _ => True
  | .unpack _ => ¬ InvalidBehindFrame s.client.content

/-- The bytes are conserved, and the history says where the frames are. -/
structure Inv (s : BufferLife) : Prop where
  recv : s.ctx.netPacketRecvQueue.NoneHidden
  inBounds : s.client.InBounds
  bytes : framesOf s.unpacked ++ s.client.content = s.received
  starts : s.starts = frameStarts 0 s.unpacked

theorem inv_fresh {ctx : NetworkContext}
    (hctx : ctx.netPacketRecvQueue.NoneHidden) (ulClientSeq : UInt64)
    (iClientFd : Int) : (fresh ctx ulClientSeq iClientFd).Inv where
  recv := hctx
  inBounds := ClientContextBuffer.inBounds_construct ulClientSeq iClientFd
  bytes := rfl
  starts := rfl

theorem Inv.conserved {s : BufferLife} (h : s.Inv) : s.Conserved where
  bytes := h.bytes
  once := by
    rw [h.starts]
    exact nodup_frameStarts 0 s.unpacked

section Steps

variable {s s' : BufferLife}

/-- Storing bytes. -/
theorem step_store {bytes : List Byte} (hbounds : s.client.InBounds)
    (h : s.step (.store bytes) = some s') :
    s'.client.InBounds ∧ s'.client.content = s.client.content ++ bytes ∧ s' = { s with
        client := s'.client
        received := s.received ++ bytes } := by
  rw [step] at h
  split_ifs at h with hfits
  cases h
  exact ⟨ClientContextBuffer.inBounds_append hbounds hfits,
    ClientContextBuffer.content_append hbounds hfits, rfl⟩

/-- Unpacking. -/
theorem step_unpack (hrecv : s.ctx.netPacketRecvQueue.NoneHidden)
    (hbounds : s.client.InBounds) (clock : Nat → UInt64) :
    ∃ s' added, s.step (.unpack clock) = some s' ∧ added.map NetPacketBuffer.wire =
        (referenceParse s.client.content).packets ∧
      ((referenceParse s.client.content).error = none →
        framesOf added ++ s'.client.content = s.client.content) ∧
      ((referenceParse s.client.content).error ≠ none → s'.client = s.client) ∧
      s'.client.InBounds ∧ s'.ctx.netPacketRecvQueue.NoneHidden ∧
      s'.received = s.received ∧ s'.unpacked = s.unpacked ++ added ∧
      s'.starts = s.starts ++ frameStarts (s.received.length - s.client.content.length) added := by
  obtain ⟨result, added, hcall, henqueued, hwire, hgood, hbad, hbounds',
      hhidden⟩ := unpackPacketToRecvQueue_frames hrecv hbounds clock
  have hadded : result.ctx.enqueued.drop s.ctx.enqueued.length = added := by
    rw [henqueued, List.drop_left]
  have hstep : s.step (.unpack clock) = some
      { ctx := result.ctx
        client := result.client
        received := s.received
        unpacked := s.unpacked ++ added
        starts := s.starts ++ frameStarts
          (s.received.length - s.client.content.length) added } := by
    rw [step, hcall, Option.map_some]
    simp only [hadded]
  exact ⟨_, added, hstep, hwire, hgood, hbad, hbounds', hhidden, rfl, rfl, rfl⟩

/-- Behind the frames unpacked so far the content begins. -/
theorem Inv.length_framesOf (h : s.Inv) :
    s.received.length - s.client.content.length =
      (framesOf s.unpacked).length := by
  rw [← h.bytes, List.length_append, Nat.add_sub_cancel]

/-- A call that conserves the bytes keeps the invariant. -/
theorem Inv.of_unpacked (h : s.Inv) {added : List NetPacketBuffer}
    (hrecv : s'.ctx.netPacketRecvQueue.NoneHidden)
    (hbounds : s'.client.InBounds) (hreceived : s'.received = s.received)
    (hunpacked : s'.unpacked = s.unpacked ++ added)
    (hstarts : s'.starts = s.starts ++ frameStarts
      (s.received.length - s.client.content.length) added)
    (hbytes : framesOf added ++ s'.client.content = s.client.content) :
    s'.Inv where
  recv := hrecv
  inBounds := hbounds
  bytes := by
    rw [hunpacked, framesOf_append, List.append_assoc, hbytes, hreceived]
    exact h.bytes
  starts := by
    rw [hstarts, hunpacked, frameStarts_append, h.starts, h.length_framesOf, Nat.zero_add]

theorem inv_step (s : BufferLife) (a : BufferAction) (s' : BufferLife)
    (h : s.Inv) (hvalid : s.ValidFront a) (hstep : s.step a = some s') :
    s'.Inv := by
  cases a with
  | store bytes =>
    obtain ⟨hbounds, hcontent, hs'⟩ := step_store h.inBounds hstep
    rw [hs']
    refine ⟨h.recv, hbounds, ?_, h.starts⟩
    show framesOf s.unpacked ++ s'.client.content = s.received ++ bytes
    rw [hcontent, ← List.append_assoc, h.bytes]
  | unpack clock =>
    obtain ⟨s₁, added, hunpack, hwire, hgood, hbad, hbounds, hrecv,
        hreceived, hunpacked, hstarts⟩ :=
      step_unpack h.recv h.inBounds clock
    obtain rfl : s₁ = s' := Option.some.inj (hunpack.symm.trans hstep)
    refine h.of_unpacked hrecv hbounds hreceived hunpacked hstarts ?_
    by_cases herror : (referenceParse s.client.content).error = none
    · exact hgood herror
    · have hpackets : (referenceParse s.client.content).packets = [] := by
        by_contra hpackets
        exact hvalid ⟨hpackets, herror⟩
      rw [hpackets, List.map_eq_nil_iff] at hwire
      rw [hwire, hbad herror, framesOf_nil, List.nil_append]

/-- After a call that has met an invalid frame behind a valid one there are
more bytes than were received. -/
theorem validFront_of_conserved (s : BufferLife) (a : BufferAction)
    (s' : BufferLife) (h : s.Inv) (hstep : s.step a = some s')
    (hconserved : s'.Conserved) : s.ValidFront a := by
  cases a with
  | store bytes => trivial
  | unpack clock =>
    rintro ⟨hpackets, herror⟩
    obtain ⟨s₁, added, hunpack, hwire, -, hbad, -, -, hreceived, hunpacked,
        -⟩ := step_unpack h.recv h.inBounds clock
    obtain rfl : s₁ = s' := Option.some.inj (hunpack.symm.trans hstep)
    have hbytes := hconserved.bytes
    rw [hbad herror, hunpacked, hreceived, ← h.bytes, framesOf_append,
      List.append_assoc, List.append_cancel_left_eq,
      List.append_left_eq_self, framesOf_eq_nil_iff] at hbytes
    rw [hbytes, List.map_nil] at hwire
    exact hpackets hwire.symm

/-- A new client whose first bytes have been stored. -/
theorem exists_stored {ctx : NetworkContext}
    (hctx : ctx.netPacketRecvQueue.NoneHidden) (ulClientSeq : UInt64)
    (iClientFd : Int) {bytes : List Byte}
    (hfits : bytes.length ≤ contextBufferCapacity) :
    ∃ s, (fresh ctx ulClientSeq iClientFd).step (.store bytes) = some s ∧
      s.Inv ∧ s.client.content = bytes ∧ s.received = bytes ∧
      s.unpacked = [] ∧ s.starts = [] := by
  have hinv := inv_fresh hctx ulClientSeq iClientFd
  have hfree : bytes.length ≤ (fresh ctx ulClientSeq iClientFd).client.freeSpace := by
    show _ ≤ (ClientContextBuffer.construct ulClientSeq iClientFd).freeSpace
    rwa [ClientContextBuffer.freeSpace_construct]
  obtain ⟨s, hstore⟩ : ∃ s, (fresh ctx ulClientSeq iClientFd).step (.store bytes) = some s :=
    ⟨_, by rw [step, if_pos hfree]⟩
  obtain ⟨-, hcontent, hs⟩ := step_store hinv.inBounds hstore
  refine ⟨s, hstore, inv_step _ (.store bytes) s hinv trivial hstore, hcontent, ?_⟩
  rw [hs]
  exact ⟨rfl, rfl, rfl⟩

/-- `PacketBufferRead` is one store, or nothing if the buffer is full. -/
theorem exists_run_packetBufferRead (api : BuffereventRead) (s : BufferLife) (input : List Byte) :
    ∃ actions, runSteps step s actions = some
      { s with
        client := (packetBufferRead api s.client input).client
        received := s.received ++ input.take s.client.freeSpace } := by
  by_cases hfull : s.client.freeSpace = 0
  · refine ⟨[], ?_⟩
    rw [packetBufferRead_of_full api hfull, hfull, List.take_zero, List.append_nil]
    rfl
  · refine ⟨[.store (input.take s.client.freeSpace)], ?_⟩
    rw [packetBufferRead_of_free api hfull, runSteps_cons, step, if_pos (List.length_take_le _ _)]
    rfl

/-- **The connector's read callback.**  Its loop is the one of the server's
callback, without the closing of the client at an error.  All it does is a run
of stores and calls, so that a connector that goes on after an error goes on
with such a run. -/
theorem exists_run_readLoop (api : BuffereventRead)
    (clock : Nat → Nat → UInt64) (s : BufferLife) (input : List Byte)
    (loop : ReadLoopResult)
    (hloop : readLoop api clock s.ctx s.client input = some loop) :
    ∃ actions s', runSteps step s actions = some s' ∧ s'.ctx = loop.ctx ∧
      s'.client = loop.client := by
  induction hn : input.length using Nat.strong_induction_on generalizing clock s input with
  | _ n ih =>
    subst hn
    rw [readLoop] at hloop
    dsimp only at hloop
    obtain ⟨read, hread⟩ := exists_run_packetBufferRead api s input
    split at hloop
    · cases hloop
    · rename_i unpacked hcall
      -- the state after the first read and the call
      have hcalled := runSteps_append step s read [.unpack (clock 0)]
      rw [hread, Option.bind_some, runSteps_cons, step, hcall,
        Option.map_some, Option.bind_some, runSteps_nil] at hcalled
      obtain ⟨s₂, hs₂, hctx, hclient⟩ : ∃ s₂, runSteps step s
          (read ++ [.unpack (clock 0)]) = some s₂ ∧
            s₂.ctx = unpacked.ctx ∧ s₂.client = unpacked.client :=
        ⟨_, hcalled, rfl, rfl⟩
      split_ifs at hloop with herror hagain
      · cases hloop
        exact ⟨_, s₂, hs₂, hctx, hclient⟩
      · obtain ⟨second, hsecond⟩ := exists_run_packetBufferRead api s₂
          (packetBufferRead api s.client input).input
        rw [hctx] at hsecond
        rw [← hclient] at hloop hagain
        have hshort := (length_input_packetBufferRead_lt api s₂.client _ hagain).trans_le
          (length_input_packetBufferRead_le api s.client input)
        obtain ⟨later, s', hlater, hend⟩ := ih _ hshort _
          { s₂ with
            client := (packetBufferRead api s₂.client
              (packetBufferRead api s.client input).input).client
            received := s₂.received ++ (packetBufferRead api s.client input).input.take
                s₂.client.freeSpace }
          _ (hctx.symm ▸ hloop) rfl
        refine ⟨(read ++ [.unpack (clock 0)]) ++ (second ++ later), s', ?_, hend⟩
        rw [runSteps_append, hs₂, Option.bind_some, runSteps_append]
        rw [hctx] at hlater
        rw [hsecond, Option.bind_some]
        exact hlater
      · obtain ⟨second, hsecond⟩ := exists_run_packetBufferRead api s₂
          (packetBufferRead api s.client input).input
        rw [← hclient] at hloop
        cases hloop
        have hrun := runSteps_append step s (read ++ [.unpack (clock 0)]) second
        rw [hs₂, Option.bind_some, hsecond] at hrun
        exact ⟨_, _, hrun, hctx, rfl⟩

end Steps

end BufferLife

/-- **Where the bytes go.**  A call of `UnpackPacketToRecvQueue` conserves the
bytes of the buffer exactly when the buffer does not hold an invalid frame
behind a valid one.  In a run of stores and calls, going on after errors or not,
the bytes are conserved and no received frame is enqueued twice, in every state
reached, exactly when this holds at every call. -/
theorem bytes_conserved_iff (ctx : NetworkContext) (hctx : ctx.netPacketRecvQueue.NoneHidden) :
    (∀ (client : ClientContextBuffer) (clock : Nat → UInt64), client.InBounds →
        (ConservesBytes ctx client clock ↔ ¬ InvalidBehindFrame client.content)) ∧
      ∀ (ulClientSeq : UInt64) (iClientFd : Int) (actions : List BufferAction) (s : BufferLife),
        runSteps BufferLife.step (.fresh ctx ulClientSeq iClientFd) actions = some s →
        ((∀ first rest r, actions = first ++ rest →
            runSteps BufferLife.step (.fresh ctx ulClientSeq iClientFd)
              first = some r → r.Conserved) ↔
          RunMeets BufferLife.step BufferLife.ValidFront
            (.fresh ctx ulClientSeq iClientFd) actions) := by
  constructor
  · intro client clock hclient
    exact conservesBytes_iff_not_invalidBehindFrame hctx hclient clock
  · intro ulClientSeq iClientFd actions s hrun
    exact forall_reached_iff_runMeets BufferLife.inv_step
      BufferLife.validFront_of_conserved (fun _ h => h.conserved)
      (BufferLife.inv_fresh hctx ulClientSeq iClientFd) hrun

/-- A valid frame and half of another one. -/
theorem bytes_conserved_iff_half_frame :
    ConservesBytes .construct (.ofContent 1 7 [0, 5, 0, 2, 9, 0, 5] (by decide)) (fun _ => 0) ∧
      ∃ s, runSteps BufferLife.step (.fresh .construct 1 7)
          [.store [0, 5, 0, 2, 9, 0, 5], .unpack fun _ => 0] = some s ∧
        s.Conserved := by
  have hctx : NetworkContext.construct.netPacketRecvQueue.NoneHidden :=
    NetPacketQueue.counted_init.noneHidden
  have hvalid : ¬ InvalidBehindFrame [0, 5, 0, 2, 9, 0, 5] := by
    have hfirst : scanFrame [0, 5, 0, 2, 9, 0, 5] = .frame (2, [9]) [0, 5] := by
      rw [scanFrame_eq_frame_iff]
      decide
    have hsecond : scanFrame [0, 5] = .more := by
      rw [scanFrame_eq_more_iff]
      decide
    rintro ⟨-, herror⟩
    rw [referenceParse_of_frame hfirst, referenceParse_of_more hsecond] at herror
    exact herror rfl
  obtain ⟨s₁, hstore, hinv, hcontent, -⟩ :=
    BufferLife.exists_stored hctx 1 7
      (show [0, 5, 0, 2, 9, 0, 5].length ≤ contextBufferCapacity by decide)
  obtain ⟨s₂, -, hunpack, -⟩ :=
    BufferLife.step_unpack hinv.recv hinv.inBounds fun _ => 0
  have hrun : runSteps BufferLife.step (.fresh .construct 1 7)
      [.store [0, 5, 0, 2, 9, 0, 5], .unpack fun _ => 0] = some s₂ := by
    rw [runSteps_cons, hstore, Option.bind_some, runSteps_cons, hunpack]
    rfl
  refine ⟨?_, s₂, hrun, ?_⟩
  · refine ((bytes_conserved_iff _ hctx).1 _ _
      (ClientContextBuffer.inBounds_ofContent 1 7 _ _)).mpr ?_
    rw [ClientContextBuffer.content_ofContent]
    exact hvalid
  · refine ((bytes_conserved_iff _ hctx).2 1 7 _ s₂ hrun).mpr
      ⟨trivial, fun s hs => ⟨?_, fun _ _ => trivial⟩⟩ _ [] s₂
      (List.append_nil _).symm hrun
    obtain rfl : s₁ = s := Option.some.inj (hstore.symm.trans hs)
    show ¬ InvalidBehindFrame s₁.client.content
    rw [hcontent]
    exact hvalid

/-- A valid frame followed by one with an empty body: the call returns an error
and leaves both in the buffer, so that the next call enqueues the valid one
again. -/
theorem frame_enqueued_twice :
    ∃ s, runSteps BufferLife.step (.fresh .construct 1 7)
        [.store (frameOf 1 [7] ++ frameOf 2 []), .unpack fun _ => 0, .unpack fun _ => 0] = some s ∧
      s.unpacked.map NetPacketBuffer.wire = [(1, [7]), (1, [7])] ∧
      s.starts = [0, 0] ∧ ¬ s.Conserved := by
  have hparse : referenceParse (frameOf 1 [7] ++ frameOf 2 []) =
      ⟨[(1, [7])], some (-2), frameOf 2 []⟩ := by
    have hfirst : scanFrame (frameOf 1 [7] ++ frameOf 2 []) = .frame (1, [7]) (frameOf 2 []) :=
      scanFrame_frameOf_append (by decide) (by decide) (by decide) (by decide) _
    have hsecond : scanFrame (frameOf 2 []) = .fail (-2) := by
      rw [scanFrame_eq_fail_iff]
      decide
    rw [referenceParse_of_frame hfirst, referenceParse_of_fail hsecond]
  have herror : (referenceParse (frameOf 1 [7] ++ frameOf 2 [])).error ≠
      none := by
    rw [hparse]
    exact Option.some_ne_none _
  have hctx : NetworkContext.construct.netPacketRecvQueue.NoneHidden :=
    NetPacketQueue.counted_init.noneHidden
  obtain ⟨s₁, hstore, hinv₁, hcontent, hreceived₁, hunpacked₁, hstarts₁⟩ :=
    BufferLife.exists_stored hctx 1 7
      (show (frameOf 1 [7] ++ frameOf 2 []).length ≤ contextBufferCapacity by
        decide)
  -- both calls find the same content
  obtain ⟨s₂, added, hunpack, hwire, -, hbad, hbounds, hrecv, hreceived, hunpacked, hstarts⟩ :=
    BufferLife.step_unpack hinv₁.recv hinv₁.inBounds fun _ => 0
  rw [hcontent] at hwire hbad hstarts
  have hsame := hbad herror
  obtain ⟨s₃, again, hunpack', hwire', -, -, -, -, hreceived', hunpacked',
      hstarts'⟩ := BufferLife.step_unpack hrecv hbounds fun _ => 0
  rw [hsame, hcontent] at hwire' hstarts'
  rw [hparse] at hwire hwire'
  obtain ⟨packet, rfl, hpacket⟩ := List.map_eq_singleton_iff.mp hwire
  obtain ⟨packet', rfl, hpacket'⟩ := List.map_eq_singleton_iff.mp hwire'
  have hstart : s₃.starts = [0, 0] := by
    rw [hstarts', hstarts, hreceived, hreceived₁, hstarts₁, Nat.sub_self]
    rfl
  refine ⟨s₃, ?_, ?_, hstart, fun hconserved => ?_⟩
  · rw [runSteps_cons, hstore, Option.bind_some, runSteps_cons, hunpack,
      Option.bind_some, runSteps_cons, hunpack', Option.bind_some,
      runSteps_nil]
  · rw [hunpacked', hunpacked, hunpacked₁]
    show [packet.wire, packet'.wire] = _
    rw [hpacket, hpacket']
  · have honce := hconserved.once
    rw [hstart] at honce
    exact absurd honce (by decide)

end Network
end GameServer
