import GameServer.Network.ReadLoop
import GameServer.Network.SocketLogic

/-!
# Blocks that are never handled

`forward_message_tcp` doubles the read size of a socket each time a read comes
back full, without a bound, while the client's buffer has a fixed size.  The
loop of `_ProcessMessageData` over a block comes to an end exactly when the block
fits into the free space of the buffer (`SocketState.blockHandled_iff`).  A
client that sends nothing but zeros soon gets the receive thread into a loop
that it does not leave.
-/

namespace GameServer
namespace Network

open Lib

namespace SocketState

/-! ## When the loop over a block ends -/

/-- The loop of `_ProcessMessageData` over a block ends, with an error for which
the client is closed or with the whole block in the client's buffer. -/
def BlockHandled (ctx : NetworkContext) (client : SocketClientCtx)
    (block : List Byte) (clock : Nat → Nat → UInt64) : Prop :=
  ∃ n m, (MessageLoop.enter ctx client block).loop clock n = some m ∧
    (m.iRet ≠ 0 ∨ m.appended = block)

/-- A block that fits is handled, and no other. -/
theorem blockHandled_of_waiting {ctx : NetworkContext}
    {client : SocketClientCtx} {block : List Byte}
    {clock : Nat → Nat → UInt64} (h : MessageLoop.Waiting ctx client)
    (hne : block ≠ []) :
    BlockHandled ctx client block clock ↔ client.contextBuffer.content.length + block.length ≤
        contextBufferCapacity := by
  have hspace := h.inBounds.length_add_freeSpace
  constructor
  · rintro ⟨n, m, hloop, -⟩
    have hfits : block.length ≤ client.contextBuffer.freeSpace :=
      ((MessageLoop.loop_eq_some_iff (m := .enter ctx client block) h ⟨rfl, hne⟩).mp ⟨m, hloop⟩).2
    omega
  · intro hfits
    obtain ⟨m, hloop, hcopied⟩ := MessageLoop.exists_loop
      (m := .enter ctx client block) clock 0 h ⟨rfl, hne⟩
      (show block.length ≤ client.contextBuffer.freeSpace by omega)
    exact ⟨1, m, hloop, Or.inr hcopied.appended⟩

/-- **Blocks that the socket server delivers.**  In every state that the two
threads reach, the loop over the next block of a client comes to an end, with
the client closed or all of the block in its buffer, exactly when the block
fits into the free space of the buffer. -/
theorem blockHandled_iff (room : PipeRoom) (memory : Nat → Socket.Sock)
    (listening : Bool) {start s s' : SocketState} (hinit : init room memory listening = some start)
    (actions : List SocketAction)
    (hrun : runSteps (step room) start actions = some s)
    {call : PollCall} {id : Int} {block : List Byte}
    (hpoll : s.poll call = some (s', some (.socketData id block)))
    (hblock : 1 ≤ block.length) {client : SocketClientCtx}
    (hclient : s'.clientOf id = some client) (clock : Nat → Nat → UInt64) :
    BlockHandled s'.ctx client block clock ↔ client.contextBuffer.content.length + block.length ≤
        contextBufferCapacity := by
  have hsane := (runSteps_invariant (sane_step room) (started_of_init hinit).sane hrun).poll hpoll
  obtain ⟨p, -, hp⟩ := Option.bind_eq_some_iff.mp hclient
  exact blockHandled_of_waiting (hsane.waiting hp) (List.length_pos_iff.mp hblock)

/-! ## Blocks one after the other -/

section Serving

variable {s : SocketState} {checkctrl : Bool} {size : Nat}
  {bytes block : List Byte}

/-- The loop over a block that fits and completes no frame. -/
theorem Serving.processMessageData (h : s.Serving checkctrl size bytes) (hne : block ≠ [])
    (hfits : bytes.length + block.length ≤ contextBufferCapacity)
    (hmore : scanFrame (bytes ++ block) = .more) :
    ∃ s', s.processMessageData 2 block {} = some s' ∧
      s'.Serving checkctrl size (bytes ++ block) := by
  obtain ⟨client, m, hclient, hloop, hiRet, hcontent, hseq, hfd⟩ :=
    h.exists_loop hne hfits
  rw [referenceParse_of_more hmore] at hiRet hcontent
  have hret : m.iRet = 0 := hiRet
  have hdata : s.processMessageData 2 block {} = some
      { s with
        ctx := m.ctx
        clients := Function.update s.clients 0 (some m.client) } := by
    simp [SocketState.processMessageData, h.byFd, hne, hclient, hloop, hret]
  refine ⟨_, hdata, sane_processMessageData h.sane hdata, h.recv, h.cmd,
    h.checkctrl, h.ev, h.pipe, h.listener, h.socket, h.byFd, h.bySeq, m.client,
    ?_, hseq, hfd, hcontent hret⟩
  simp

/-- There is no request. -/
theorem Serving.noCmd (h : s.Serving true size bytes) (room : PipeRoom) :
    ∃ s', s.step room (.poll .noCmd {}) = some s' ∧ s'.Serving false size bytes := by
  have hstep : s.step room (.poll .noCmd {}) = some
      { s with ss := { s.ss with checkctrl := false } } := by
    simp [step, poll, processOneLoop, h.recv, h.checkctrl, h.pipe]
  exact ⟨_, hstep, sane_step room _ _ _ h.sane hstep, h.recv, h.cmd, rfl,
    h.ev, h.pipe, h.listener, h.socket, h.byFd, h.bySeq, h.client⟩

/-- The actions of a block that is read and handled. -/
def receiveActions (block : List Byte) : List SocketAction :=
  [.poll (.wait [readEvent]) {}, .poll (.event { read := .read block }) {},
    .poll .noCmd {}]

theorem Serving.receive (h : s.Serving false size bytes) (block : List Byte)
    (hne : block ≠ []) (hsize : block.length ≤ size)
    (hfits : bytes.length + block.length ≤ contextBufferCapacity)
    (hmore : scanFrame (bytes ++ block) = .more) (room : PipeRoom) :
    ∃ s', runSteps (step room) s (receiveActions block) = some s' ∧
      s'.Serving false (nextReadSize size block.length) (bytes ++ block) := by
  obtain ⟨s₁, s₂, hwait, hread, h₂⟩ := h.poll_read block hne hsize room
  obtain ⟨s₃, hdata, h₃⟩ := h₂.processMessageData hne hfits hmore
  obtain ⟨s₄, hnone, h₄⟩ := h₃.noCmd room
  have hevent : s₁.step room (.poll (.event { read := .read block }) {}) = some s₃ := by
    rw [step, hread]
    exact hdata
  refine ⟨s₄, ?_, h₄⟩
  rw [receiveActions, runSteps_cons, hwait, Option.bind_some, runSteps_cons,
    hevent, Option.bind_some, runSteps_cons, hnone]
  rfl

end Serving

theorem blockHandled_iff_one_byte :
    ∃ start s s' client, init linuxRoom (fun _ => zeroedSlot) true = some start ∧
      runSteps (step linuxRoom) start (connectActions ++ [.poll (.wait [readEvent]) {}]) = some s ∧
      s.poll (.event { read := .read [0] }) = some (s', some (.socketData 2 [0])) ∧
      s'.clientOf 2 = some client ∧
      (BlockHandled s'.ctx client [0] (fun _ _ => 0) ↔
        client.contextBuffer.content.length + 1 ≤ contextBufferCapacity) := by
  obtain ⟨start, s, hinit, hrun, h⟩ := exists_serving
  obtain ⟨s₁, s₂, hwait, hread, h₂⟩ :=
    h.poll_read [0] (by simp) (by decide) linuxRoom
  obtain ⟨client, hclient, -⟩ := h₂.client
  have hrun₁ : runSteps (step linuxRoom) start
      (connectActions ++ [.poll (.wait [readEvent]) {}]) = some s₁ := by
    rw [runSteps_append, hrun, Option.bind_some, runSteps_cons, hwait]
    rfl
  have hfound := h₂.clientOf_eq hclient
  exact ⟨start, s₁, s₂, client, hinit, hrun₁, hread, hfound,
    blockHandled_iff linuxRoom (fun _ => zeroedSlot) true hinit _ hrun₁ hread (by simp) hfound _⟩

/-! ## A stream of zeros -/

/-- A stream of zeros is never a frame. -/
theorem scanFrame_zeros (n : Nat) : scanFrame (List.replicate n 0) = .more := by
  rw [scanFrame_eq_more_iff]
  by_cases hshort : n < 2
  · left
    rw [List.length_replicate]
    unfold networkPacketHeaderSize
    omega
  · right
    left
    obtain ⟨k, rfl⟩ : ∃ k, n = k + 2 := ⟨n - 2, by omega⟩
    rw [List.replicate_succ, List.replicate_succ, unpackInt_two_cons]
    decide

/-- While the blocks come back full, the read size doubles; all the zeros stay
in the client's buffer. -/
theorem exists_serving_zeros {k : Nat} (hk : k ≤ 10) :
    ∃ start s actions, init linuxRoom (fun _ => zeroedSlot) true = some start ∧
      runSteps (step linuxRoom) start actions = some s ∧
      s.Serving false (64 * 2 ^ k) (List.replicate (64 * 2 ^ k - 64) 0) := by
  induction k with
  | zero =>
    obtain ⟨start, s, hinit, hrun, h⟩ := exists_serving
    exact ⟨start, s, _, hinit, hrun, h⟩
  | succ k ih =>
    obtain ⟨start, s, actions, hinit, hrun, h⟩ := ih (by omega)
    have hpow : 2 ^ k ≤ 2 ^ 9 := Nat.pow_le_pow_right (by decide) (by omega)
    have hpos : 0 < 2 ^ k := Nat.two_pow_pos k
    have hzeros : List.replicate (64 * 2 ^ k - 64) (0 : Byte) ++ List.replicate (64 * 2 ^ k) 0 =
          List.replicate (64 * 2 ^ (k + 1) - 64) 0 := by
      rw [List.replicate_append_replicate]
      congr 1
      omega
    have hmore := scanFrame_zeros (64 * 2 ^ (k + 1) - 64)
    rw [← hzeros] at hmore
    obtain ⟨s', hreceive, h'⟩ := h.receive (List.replicate (64 * 2 ^ k) 0) (by simp) (by simp) (by
        simp only [List.length_replicate]
        unfold contextBufferCapacity networkPacketBufferReadSize
        omega) hmore linuxRoom
    refine ⟨start, s', actions ++ receiveActions (List.replicate (64 * 2 ^ k) 0), hinit, ?_, ?_⟩
    · rw [runSteps_append, hrun, Option.bind_some, hreceive]
    · rw [List.length_replicate, hzeros, nextReadSize, if_pos rfl, mul_assoc, ← pow_succ] at h'
      exact h'

/-- **A block that is never handled.**  After ten full blocks of zeros the
eleventh is larger than the free space, and the receive thread does not get out
of the loop over it. -/
theorem block_of_zeros_loops :
    ∃ start actions s s' client,
      init linuxRoom (fun _ => zeroedSlot) true = some start ∧
      runSteps (step linuxRoom) start actions = some s ∧
      s.poll (.event { read := .read (List.replicate 65536 0) }) =
        some (s', some (.socketData 2 (List.replicate 65536 0))) ∧
      s'.clientOf 2 = some client ∧
      (∀ n, ∃ m, (MessageLoop.enter s'.ctx client
          (List.replicate 65536 0)).rounds (fun _ _ => 0) n = some m ∧
        m.Again ∧ m.appended = []) ∧
      ¬ BlockHandled s'.ctx client (List.replicate 65536 0) fun _ _ => 0 := by
  obtain ⟨start, s, actions, hinit, hrun, h⟩ := exists_serving_zeros le_rfl
  have hlength : (List.replicate 65536 (0 : Byte)).length = 65536 :=
    List.length_replicate
  have hne : List.replicate 65536 (0 : Byte) ≠ [] :=
    List.ne_nil_of_length_pos (by omega)
  obtain ⟨s₁, s₂, hwait, hread, h₂⟩ :=
    h.poll_read (List.replicate 65536 0) hne (by omega) linuxRoom
  obtain ⟨client, hclient, -, -, hbytes⟩ := h₂.client
  have hwaiting := h₂.sane.waiting hclient
  have hspace := hwaiting.inBounds.length_add_freeSpace
  have hlong : client.contextBuffer.freeSpace < 65536 := by
    rw [hbytes, List.length_replicate] at hspace
    have hcapacity : contextBufferCapacity = 102400 := rfl
    omega
  refine ⟨start, actions ++ [.poll (.wait [readEvent]) {}], s₁, s₂, client,
    hinit, ?_, hread, h₂.clientOf_eq hclient, fun n => ?_, ?_⟩
  · rw [runSteps_append, hrun, Option.bind_some, runSteps_cons, hwait]
    rfl
  · refine MessageLoop.exists_rounds_again _ n
      (m := .enter s₂.ctx client (List.replicate 65536 0)) hwaiting ⟨rfl, hne⟩ ?_
    show client.contextBuffer.freeSpace < (List.replicate 65536 (0 : Byte)).length
    omega
  · rw [blockHandled_of_waiting hwaiting hne]
    omega

end SocketState

end Network
end GameServer
