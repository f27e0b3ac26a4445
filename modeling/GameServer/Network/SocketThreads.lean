import GameServer.Network.SocketLogic

/-!
# The control pipe and its only reader

Only the receive thread reads the control pipe.  If it blocks in a write to the
pipe, nobody makes room any more; the comments of `server_logic.cpp` therefore
forbid it to send requests.  It sends one all the same, the start request of
every client it accepts.

Whether there is room for it is up to the command thread, which writes a request
for each packet and is stopped by nothing but a full pipe.  The receive thread
does not block, in any interleaving, exactly when there is room for the start
request each time a connection is accepted and the command thread leaves that
room until the request is written.
-/

namespace GameServer
namespace Network

open Lib

namespace SocketState

/-- The receive thread is blocked in the write of `socket_server_start`. -/
def RecvBlocked (room : PipeRoom) (s : SocketState) : Prop :=
  ∃ id, s.recv = .start id ∧ s.ss.sendRequest room (.start id) = none

/-- The bytes of a start request. -/
def startSize : Nat := CtrlRequest.size (.start 0)

/-- There is room for the start request when a connection is accepted, and a
write of the command thread leaves that room as long as the request is
pending. -/
def LeavesRoom (room : PipeRoom) (s : SocketState) : SocketAction → Prop
  | .poll call _ => s.Accepts call → room s.ss.pipe.ops startSize
  | .write => ∀ id request, s.recv = .start id → s.cmd = .write request →
      room (s.ss.pipe.write request).ops startSize
  | _ => True

section Blocked

variable {room : PipeRoom} {s s' : SocketState}

/-- A thread in front of the write is blocked for lack of room. -/
theorem recvBlocked_iff : s.RecvBlocked room ↔
    (∃ id, s.recv = .start id) ∧ ¬ room s.ss.pipe.ops startSize := by
  have hroom : ∀ id, s.ss.sendRequest room (.start id) = none ↔ ¬ room s.ss.pipe.ops startSize := by
    intro id
    unfold SocketServer.sendRequest
    split_ifs with hfits
    · simpa [startSize, CtrlRequest.size] using hfits
    · simpa [startSize, CtrlRequest.size] using hfits
  constructor
  · rintro ⟨id, hrecv, hblocked⟩
    exact ⟨⟨id, hrecv⟩, (hroom id).mp hblocked⟩
  · rintro ⟨⟨id, hrecv⟩, hfull⟩
    exact ⟨id, hrecv, (hroom id).mpr hfull⟩

theorem not_recvBlocked_of_ne (h : ∀ id, s.recv ≠ .start id) : ¬ s.RecvBlocked room := by
  rintro ⟨id, hrecv, -⟩
  exact h id hrecv

/-- After a pass through the loop of `socket_server_poll` the receive thread is
blocked if it has accepted a connection without room for its request. -/
theorem not_recvBlocked_poll_iff {call : PollCall} {inputs : LoopInputs} (h : s.ss.WellPlaced)
    (hstep : s.step room (.poll call inputs) = some s') :
    ¬ s'.RecvBlocked room ↔ s.LeavesRoom room (.poll call inputs) := by
  obtain ⟨⟨polled, message⟩, hpoll, hloop⟩ := Option.bind_eq_some_iff.mp hstep
  cases polled_of_poll h hpoll with
  | @accepted answers listener ud ss' haccepting hopens =>
    obtain ⟨after, hnew, rfl⟩ := Option.map_eq_some_iff.mp hloop
    have hsame := sameSockets_processNewClient hnew
    have hpipe : after.ss.pipe = s.ss.pipe := by
      rw [hsame.ss]
      exact hopens.pipe
    have haccepts : s.Accepts (.event answers) := ⟨answers, rfl, haccepting⟩
    rw [recvBlocked_iff]
    show ¬ ((∃ id, RecvPc.start ud = .start id) ∧ ¬ room after.ss.pipe.ops startSize) ↔
        (s.Accepts (.event answers) → room s.ss.pipe.ops startSize)
    rw [hpipe]
    simp [haccepts]
  | other hnot haccepted hplaced hopen hrecv =>
    have hsame := sameSockets_processOneLoop haccepted hloop
    have hfree : ¬ s'.RecvBlocked room := by
      refine not_recvBlocked_of_ne fun id => ?_
      rw [hsame.recv]
      exact hrecv id
    exact iff_of_true hfree fun haccepts => (hnot haccepts).elim

/-- A write of the command thread takes the room it needs. -/
theorem not_recvBlocked_write_iff {request : CtrlRequest} (hcmd : s.cmd = .write request) :
    ¬ RecvBlocked room { s with
        ss := { s.ss with pipe := s.ss.pipe.write request }
        cmd := .idle } ↔ s.LeavesRoom room .write := by
  rw [recvBlocked_iff, LeavesRoom]
  dsimp only
  constructor
  · intro hfree id other hrecv hother
    rw [hcmd] at hother
    cases hother
    by_contra hfull
    exact hfree ⟨⟨id, hrecv⟩, hfull⟩
  · rintro hroom ⟨⟨id, hrecv⟩, hfull⟩
    exact hfull (hroom id request hrecv hcmd)

/-- **What gets the receive thread blocked.** -/
theorem not_recvBlocked_step_iff {a : SocketAction} (hsane : s.Sane)
    (h : ¬ s.RecvBlocked room) (hstep : s.step room a = some s') :
    ¬ s'.RecvBlocked room ↔ s.LeavesRoom room a := by
  cases stepped_of_step hstep with
  | poll hpoll hloop => exact not_recvBlocked_poll_iff hsane.placed hstep
  | write hcmd => exact not_recvBlocked_write_iff hcmd
  | start =>
    exact iff_of_true (not_recvBlocked_of_ne fun id hid => by cases hid)
      trivial
  | skipped | sent | copy => exact iff_of_true h trivial

end Blocked

/-- **The receive thread and its own pipe.**  Whatever room the pipe has, and in any
interleaving of the two threads: the receive thread is never blocked in a write
to the pipe exactly when there is always room left for the start request of an
accepted connection. -/
theorem never_recvBlocked_iff (room : PipeRoom) (memory : Nat → Socket.Sock)
    (listening : Bool) {start t : SocketState}
    (hinit : init room memory listening = some start)
    (actions : List SocketAction)
    (hrun : runSteps (step room) start actions = some t) :
    (∀ first rest r, actions = first ++ rest → runSteps (step room) start first = some r →
      ¬ r.RecvBlocked room) ↔
    RunMeets (step room) (LeavesRoom room) start actions := by
  have hstarted := started_of_init hinit
  have hfree : ¬ start.RecvBlocked room := by
    refine not_recvBlocked_of_ne fun id hid => ?_
    rw [hstarted.recv] at hid
    cases hid
  have hkeep : ∀ (s : SocketState) (a : SocketAction) (s' : SocketState),
      s.Sane ∧ ¬ s.RecvBlocked room →
      s.LeavesRoom room a → s.step room a = some s' →
      s'.Sane ∧ ¬ s'.RecvBlocked room := by
    rintro s a s' ⟨hsane, hblocked⟩ hroom hstep
    exact ⟨sane_step room s a s' hsane hstep,
      (not_recvBlocked_step_iff hsane hblocked hstep).mpr hroom⟩
  have hneed : ∀ (s : SocketState) (a : SocketAction) (s' : SocketState),
      s.Sane ∧ ¬ s.RecvBlocked room →
      s.step room a = some s' → ¬ s'.RecvBlocked room →
      s.LeavesRoom room a := by
    rintro s a s' ⟨hsane, hblocked⟩ hstep hafter
    exact (not_recvBlocked_step_iff hsane hblocked hstep).mp hafter
  exact forall_reached_iff_runMeets hkeep hneed (fun _ h => h.2) ⟨hstarted.sane, hfree⟩ hrun

theorem never_recvBlocked_iff_connect :
    ∃ start t, init linuxRoom (fun _ => zeroedSlot) true = some start ∧
      runSteps (step linuxRoom) start connectActions = some t ∧
      ((∀ first rest r, connectActions = first ++ rest →
        runSteps (step linuxRoom) start first = some r →
        ¬ r.RecvBlocked linuxRoom) ↔
      RunMeets (step linuxRoom) (LeavesRoom linuxRoom) start connectActions) := by
  obtain ⟨start, t, hinit, hrun, -⟩ := exists_serving
  exact ⟨start, t, hinit, hrun,
    never_recvBlocked_iff linuxRoom (fun _ => zeroedSlot) true hinit _ hrun⟩

/-! ## A pipe that is full -/

/-- A packet for the client in slot 2. -/
def reply : NetPacketBuffer := ⟨1, 2, 1, 1, 0, [7]⟩

/-- The request for it. -/
def replyRequest : CtrlRequest := .send 2 (reply.packetBufferSend 0)

/-- The command thread sends so many packets. -/
def replyActions : Nat → List SocketAction
  | 0 => []
  | n + 1 => .send reply 0 :: .write :: replyActions n

/-- With the client in place and room in the pipe, every packet becomes a
request. -/
theorem runSteps_replyActions {room : PipeRoom} {s : SocketState}
    (hcmd : s.cmd = .idle) (hclient : s.clientPool.getClient 1 = some 0)
    (hid : (s.ss.slot 2).id = 2) (htype : (s.ss.slot 2).type = .connected)
    (n : Nat)
    (hroom : ∀ k < n, room (s.ss.pipe.ops ++ List.replicate k (.write 18)) 18) :
    ∃ pipe, runSteps (step room) s (replyActions n) = some
        { s with ss := { s.ss with pipe := pipe } } ∧
      pipe.ops = s.ss.pipe.ops ++ List.replicate n (.write 18) := by
  induction n generalizing s with
  | zero => exact ⟨s.ss.pipe, rfl, by simp⟩
  | succ n ih =>
    have hsend : s.step room (.send reply 0) = some { s with cmd := .write replyRequest } := by
      have hclient' : s.clientPool.getClient reply.ulClientSeq = some 0 :=
        hclient
      have hslot : s.ss.socketOf reply.iSockFd = s.ss.slot 2 := rfl
      simp only [step, hcmd, takePacket, hclient', SocketServer.socketServerSend, hslot]
      rw [if_neg (by rw [hid, htype]; decide)]
      rfl
    have hwrite : step room { s with cmd := .write replyRequest } .write = some { s with
          ss := { s.ss with pipe := s.ss.pipe.write replyRequest }
          cmd := .idle } := by
      have hfits : room s.ss.pipe.ops replyRequest.size := by
        have hfirst := hroom 0 (Nat.succ_pos n)
        rw [List.replicate_zero, List.append_nil] at hfirst
        exact hfirst
      simp [step, SocketServer.sendRequest, hfits]
    have hops : (s.ss.pipe.write replyRequest).ops = s.ss.pipe.ops ++ [.write 18] := rfl
    obtain ⟨pipe, hrest, hpipe⟩ := ih (s := { s with
        ss := { s.ss with pipe := s.ss.pipe.write replyRequest }
        cmd := .idle }) rfl hclient hid htype (fun k hk => by
      dsimp only
      rw [hops, List.append_assoc, List.singleton_append, ← List.replicate_succ]
      exact hroom (k + 1) (by omega))
    refine ⟨pipe, ?_, ?_⟩
    · rw [replyActions, runSteps_cons, hsend, Option.bind_some, runSteps_cons,
        hwrite, Option.bind_some, hrest, hcmd]
    · rw [hpipe]
      dsimp only
      rw [hops, List.append_assoc, List.singleton_append, ← List.replicate_succ]

/-- The pages after writes of 18 bytes: 227 of them fit on a page. -/
theorem pages_replicate_write (k : Nat) : ∃ front page,
    (List.replicate (k + 1) (.write 18)).foldl (pagesAfter 4096) [] = front ++ [page] ∧
    front.length = k / 227 ∧ page.used = 18 * (k % 227 + 1) := by
  induction k with
  | zero => exact ⟨[], ⟨18, 18⟩, rfl, rfl, rfl⟩
  | succ k ih =>
    obtain ⟨front, page, hpages, hlength, hused⟩ := ih
    rw [List.replicate_succ', List.foldl_append, hpages]
    by_cases hfits : page.used + 18 ≤ 4096
    · refine ⟨front, ⟨page.used + 18, page.unread + 18⟩, ?_, by omega, ?_⟩
      · simp [pagesAfter, hfits]
      · dsimp only
        omega
    · refine ⟨front ++ [page], ⟨18, 18⟩, ?_, ?_, ?_⟩
      · simp [pagesAfter, hfits]
      · rw [List.length_append, List.length_singleton]
        omega
      · dsimp only
        omega

/-- A pipe that has been emptied takes 3632 requests of 18 bytes. -/
theorem linuxRoom_replicate_write {ops : List PipeOp}
    (hempty : ops.foldl (pagesAfter 4096) [] = []) {k : Nat} (hk : k ≤ 3632) :
    linuxRoom (ops ++ List.replicate k (.write 18)) 18 = true ↔ k < 3632 := by
  rw [linuxRoom, pageRoom, List.foldl_append, hempty]
  cases k with
  | zero => simp
  | succ k =>
    obtain ⟨front, page, hpages, hlength, hused⟩ := pages_replicate_write k
    rw [hpages]
    simp only [List.length_append, List.length_singleton,
      List.getLast?_concat, Option.any_some, Bool.or_eq_true,
      decide_eq_true_eq]
    omega

/-- **A receive thread that blocks itself.**  A client is connected, and the
next connection is waiting.  Before the receive thread accepts it, the command
thread fills the pipe with replies to the first client. -/
theorem recvBlocked_of_replies :
    ∃ start t, init linuxRoom (fun _ => zeroedSlot) true = some start ∧
      runSteps (step linuxRoom) start (connectActions ++ .poll (.wait [⟨some 1, true, false⟩]) {} ::
          (replyActions 3632 ++ [.poll (.event {}) { pstClient := 1, ulSeqID := 2 }])) = some t ∧
      t.RecvBlocked linuxRoom := by
  have hrun : ∃ start s, init linuxRoom (fun _ => zeroedSlot) true = some start ∧
      runSteps (step linuxRoom) start
        (connectActions ++ [.poll (.wait [⟨some 1, true, false⟩]) {}]) = some s ∧
      s.cmd = .idle ∧ s.clientPool.getClient 1 = some 0 ∧
      (s.ss.slot 2).id = 2 ∧ (s.ss.slot 2).type = .connected ∧
      s.ss.pipe.ops.foldl (pagesAfter 4096) [] = [] ∧
      ∀ pipe, ∃ t, step linuxRoom
          { s with ss := { s.ss with pipe := pipe } }
          (.poll (.event {}) { pstClient := 1, ulSeqID := 2 }) = some t ∧
        t.recv = .start 3 ∧ t.ss.pipe = pipe :=
    ⟨_, _, rfl, rfl, rfl, rfl, rfl, rfl, rfl, fun _ => ⟨_, rfl, rfl, rfl⟩⟩
  obtain ⟨start, s, hinit, hrun, hcmd, hclient, hid, htype, hempty, hevent⟩ :=
    hrun
  obtain ⟨pipe, hreplies, hops⟩ := runSteps_replyActions hcmd hclient hid htype
    3632 (fun k hk => (linuxRoom_replicate_write hempty (by omega)).mpr hk)
  obtain ⟨t, hlast, hrecv, hpipe⟩ := hevent pipe
  refine ⟨start, t, hinit, ?_, ?_⟩
  · rw [← List.singleton_append, ← List.append_assoc, runSteps_append, hrun,
      Option.bind_some, runSteps_append, hreplies, Option.bind_some,
      runSteps_cons, hlast]
    rfl
  · rw [recvBlocked_iff, hpipe, hops]
    refine ⟨⟨3, hrecv⟩, fun hroom => ?_⟩
    exact absurd ((linuxRoom_replicate_write hempty le_rfl).mp hroom) (by omega)

end SocketState

end Network
end GameServer
