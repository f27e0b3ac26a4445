import GameServer.Lib.Transition
import GameServer.Network.MessageLoop
import GameServer.Network.SocketAccount

/-!
# The two threads of the socket server

`server_logic.cpp` runs the socket server on two threads.  The receive thread
calls `socket_server_poll` over and over and passes its messages to the client
pool and the context of the server.  The command thread sends the packets of
the server: it looks up the client of a packet and writes a request to the
control pipe.

The step function has an action for every pass through the loop of
`socket_server_poll`, together with what `_ProcessOneLoop` then does, and for
every write to the control pipe.  A write blocks until the pipe has room for the
whole request; the thread is then in front of it.  `none` means that an action
is not enabled, that a deleted client is used, that an assertion fails, or that
`_ProcessMessageData` has not come to an end in the given number of rounds.

In every reachable state the sockets are in their places and the clients are
waiting for the rest of a frame (`SocketState.sane_step`).
-/

namespace GameServer
namespace Network

open Lib

/-! ## The state -/

/-- Where the receive thread stands. -/
inductive RecvPc where
  /-- At the head of the loop in `socket_server_poll`. -/
  | poll
  /-- Behind `sp_wait`, in front of the first event. -/
  | event
  /-- In front of the write of `socket_server_start`. -/
  | start (id : Int)
deriving Repr, DecidableEq

/-- Where the command thread stands. -/
inductive CmdPc where
  | idle
  /-- In front of the write of `socket_server_send`. -/
  | write (request : CtrlRequest)

/-- The socket server, the server context with its clients, and the position of
the two threads. -/
structure SocketState where
  ss : SocketServer
  ctx : NetworkContext
  clientPool : ClientContextPool Nat
  clients : Nat → Option SocketClientCtx
  recv : RecvPc
  cmd : CmdPc

/-- What `_ProcessOneLoop` gets from elsewhere: the address of a new client, its
sequence id, the number of rounds and the clock of `_ProcessMessageData`. -/
structure LoopInputs where
  pstClient : Nat := 0
  ulSeqID : UInt64 := 0
  rounds : Nat := 1
  clock : Nat → Nat → UInt64 := fun _ _ => 0

/-- A pass through the loop of `socket_server_poll`. -/
inductive PollCall where
  /-- There is a request in the pipe. -/
  | cmd (answers : SystemAnswers)
  /-- There is none. -/
  | noCmd
  /-- `sp_wait` returns these events. -/
  | wait (events : List SocketEvent)
  /-- The next event is taken. -/
  | event (answers : SystemAnswers)

namespace SocketState

/-- `GetClientFd` through a pointer. -/
def getClientFd (s : SocketState) (pstClient : Nat) : Option Int :=
  (s.clients pstClient).map fun client => client.contextBuffer.iClientFd

/-- The client that `GetClientByFd` leads to. -/
def clientOf (s : SocketState) (iClientFd : Int) : Option SocketClientCtx :=
  (s.clientPool.getClientByFd iClientFd).bind s.clients

/-- One pass through the loop of `socket_server_poll`, and the message if it
returns. -/
def poll (s : SocketState) : PollCall →
    Option (SocketState × Option SocketMessage)
  | .cmd answers =>
    if s.recv = .poll ∧ s.ss.checkctrl = true then
      s.ss.pipe.read.bind fun read =>
        (SocketServer.ctrlCmd { s.ss with pipe := read.2 } answers
          read.1).map fun r =>
            ({ s with ss := r.1.clearClosedEvent r.2 }, r.2)
    else
      none
  | .noCmd =>
    if s.recv = .poll ∧ s.ss.checkctrl = true ∧ s.ss.pipe.requests.isEmpty = true then
      some ({ s with ss := { s.ss with checkctrl := false } }, none)
    else
      none
  | .wait events =>
    if s.recv = .poll ∧ s.ss.checkctrl = false ∧ s.ss.ev = [] ∧
        events.length ≤ maxEvent ∧
        ∀ e ∈ events, ∀ i ∈ e.s, (s.ss.slot i).type.isPolled = true then
      some ({ s with
        ss := { s.ss with ev := events, checkctrl := true }
        recv := if events = [] then .poll else .event }, none)
    else
      none
  | .event answers =>
    if s.recv = .event ∨ s.recv = .poll ∧ s.ss.checkctrl = false then
      (s.ss.takeEvent answers).map fun r =>
        ({ s with ss := r.1, recv := .poll }, r.2)
    else
      none

/-- `_ProcessNewClient`. -/
def processNewClient (s : SocketState) (iClientFd : Int)
    (inputs : LoopInputs) : Option SocketState :=
  match s.clientPool.getClientByFd iClientFd with
  | some pstClient => (s.clients pstClient).map fun _ => s
  | none =>
    if (s.clients inputs.pstClient).isSome = true then
      none
    else
      some { s with
        clientPool := s.clientPool.addClient inputs.ulSeqID inputs.pstClient
          iClientFd
        clients := Function.update s.clients inputs.pstClient
          (some (.construct iClientFd inputs.ulSeqID)) }

/-- `_ProcessCloseClient`. -/
def processCloseClient (s : SocketState) (iClientFd : Int) :
    Option SocketState :=
  match s.clientPool.getClientByFd iClientFd with
  | none => some s
  | some pstClient =>
    (s.clients pstClient).bind fun client =>
      (s.clientPool.removeClient s.getClientFd client.ulClientUniqSeq).map
        fun clientPool =>
          { s with
            clientPool := clientPool
            clients := Function.update s.clients pstClient none }

/-- `_ProcessMessageData`. -/
def processMessageData (s : SocketState) (iClientFd : Int) (data : List Byte)
    (inputs : LoopInputs) : Option SocketState :=
  match s.clientPool.getClientByFd iClientFd with
  | none => some s
  | some pstClientCtx =>
    if data = [] then
      some s
    else
      (s.clients pstClientCtx).bind fun client =>
        ((MessageLoop.enter s.ctx client data).loop inputs.clock
          inputs.rounds).bind fun m =>
            let s := { s with
              ctx := m.ctx
              clients := Function.update s.clients pstClientCtx
                (some m.client) }
            if m.iRet ≠ 0 then s.processCloseClient iClientFd else some s

/-- `_ProcessOneLoop` behind `socket_server_poll`, up to the write of
`socket_server_start`. -/
def processOneLoop (s : SocketState) (inputs : LoopInputs) :
    Option SocketMessage → Option SocketState
  | some (.socketAccept _ ud) =>
    (s.processNewClient ud inputs).map fun s => { s with recv := .start ud }
  | some (.socketClose id) => s.processCloseClient id
  | some (.socketError id) => s.processCloseClient id
  | some (.socketData id data) => s.processMessageData id data inputs
  | _ => some s

end SocketState

/-- The actions of the two threads. -/
inductive SocketAction where
  /-- The receive thread passes through the loop of `socket_server_poll`, and
  handles the message if there is one. -/
  | poll (call : PollCall) (inputs : LoopInputs)
  /-- The receive thread writes the start request of a new client. -/
  | start
  /-- The command thread calls `PacketBufferSend` for a packet, at time `now`,
  if the client is there. -/
  | send (packet : NetPacketBuffer) (now : UInt64)
  /-- The command thread writes the request. -/
  | write
  /-- The logic thread takes over the received packets. -/
  | copy

namespace SocketState

/-- One action, on a control pipe with this room. -/
def step (room : PipeRoom) (s : SocketState) :
    SocketAction → Option SocketState
  | .poll call inputs =>
    (s.poll call).bind fun r => r.1.processOneLoop inputs r.2
  | .start =>
    match s.recv with
    | .start id =>
      (s.ss.sendRequest room (.start id)).map fun ss =>
        { s with ss := ss, recv := .poll }
    | _ => none
  | .send packet now =>
    match s.cmd with
    | .idle =>
      match takePacket s.clientPool packet with
      | .skipped _ => some s
      | .sent _ packet =>
        match s.ss.socketServerSend packet.iSockFd
            (packet.packetBufferSend now) with
        | none => some s
        | some request => some { s with cmd := .write request }
    | .write _ => none
  | .write =>
    match s.cmd with
    | .idle => none
    | .write request =>
      (s.ss.sendRequest room request).map fun ss =>
        { s with ss := ss, cmd := .idle }
  | .copy => some { s with ctx := s.ctx.copyPacketsFromNetToLogic.1 }

/-- `socket_server_listen`, with the result of `do_listen`. -/
def socketServerListen (room : PipeRoom) (ss : SocketServer)
    (listening : Bool) : Option (SocketServer × Int) :=
  if listening then
    match ss.reserveId with
    | (ss, none) => some (ss, -1)
    | (ss, some id) =>
      (ss.sendRequest room (.listen id)).map fun ss => (ss, id)
  else
    some (ss, -1)

/-- `SocketServer::Init`, which runs before the threads. -/
def init (room : PipeRoom) (memory : Nat → Socket.Sock) (listening : Bool) :
    Option SocketState :=
  (socketServerListen room (.create memory) listening).bind fun r =>
    (r.1.sendRequest room (.start r.2)).map fun ss =>
      ⟨ss, .construct, .empty, fun _ => none, .poll, .idle⟩

/-! ## What an action can do -/

variable {room : PipeRoom} {s : SocketState}

/-- A write to the pipe does nothing else. -/
theorem sendRequest_eq_some_iff {ss ss' : SocketServer} {request : CtrlRequest} :
    ss.sendRequest room request = some ss' ↔ room ss.pipe.ops request.size ∧
        ss' = { ss with pipe := ss.pipe.write request } := by
  unfold SocketServer.sendRequest
  split_ifs with hroom
  · simp [hroom, eq_comm]
  · simp [hroom]

/-- The actions one by one. -/
inductive Stepped (room : PipeRoom) (s : SocketState) :
    SocketAction → SocketState → Prop
  | poll {call : PollCall} {inputs : LoopInputs} {s₁ s' : SocketState}
      {message : Option SocketMessage}
      (hpoll : s.poll call = some (s₁, message))
      (hloop : s₁.processOneLoop inputs message = some s') :
      Stepped room s (.poll call inputs) s'
  | start {id : Int} (hrecv : s.recv = .start id)
      (hroom : room s.ss.pipe.ops (CtrlRequest.start id).size) :
      Stepped room s .start { s with
        ss := { s.ss with pipe := s.ss.pipe.write (.start id) }
        recv := .poll }
  | skipped {packet : NetPacketBuffer} {now : UInt64} :
      Stepped room s (.send packet now) s
  | sent {packet : NetPacketBuffer} {now : UInt64} {request : CtrlRequest} :
      Stepped room s (.send packet now) { s with cmd := .write request }
  | write {request : CtrlRequest} (hcmd : s.cmd = .write request)
      (hroom : room s.ss.pipe.ops request.size) :
      Stepped room s .write { s with
        ss := { s.ss with pipe := s.ss.pipe.write request }
        cmd := .idle }
  | copy :
      Stepped room s .copy
        { s with ctx := s.ctx.copyPacketsFromNetToLogic.1 }

theorem stepped_of_step {s' : SocketState} {a : SocketAction}
    (hstep : s.step room a = some s') : s.Stepped room a s' := by
  cases a with
  | poll call inputs =>
    obtain ⟨⟨s₁, message⟩, hpoll, hloop⟩ := Option.bind_eq_some_iff.mp hstep
    exact .poll hpoll hloop
  | start =>
    rw [step] at hstep
    split at hstep
    · rename_i id hrecv
      obtain ⟨ss, hsend, rfl⟩ := Option.map_eq_some_iff.mp hstep
      obtain ⟨hroom, rfl⟩ := sendRequest_eq_some_iff.mp hsend
      exact .start hrecv hroom
    · cases hstep
  | send packet now =>
    rw [step] at hstep
    split at hstep
    · split at hstep
      · cases hstep
        exact .skipped
      · split at hstep
        · cases hstep
          exact .skipped
        · cases hstep
          exact .sent
    · cases hstep
  | write =>
    rw [step] at hstep
    split at hstep
    · cases hstep
    · rename_i request hcmd
      obtain ⟨ss, hsend, rfl⟩ := Option.map_eq_some_iff.mp hstep
      obtain ⟨hroom, rfl⟩ := sendRequest_eq_some_iff.mp hsend
      exact .write hcmd hroom
  | copy =>
    cases hstep
    exact .copy

/-! ## What every run keeps -/

/-- An event is taken, and it is a connection to be accepted. -/
def Accepts (s : SocketState) (call : PollCall) : Prop :=
  ∃ answers, call = .event answers ∧ s.ss.Accepting answers

/-- What a pass through the loop of `socket_server_poll` can do. -/
inductive Polled (s : SocketState) :
    PollCall → Option SocketMessage → SocketState → Prop
  | accepted {answers : SystemAnswers} {listener ud : Int} {ss' : SocketServer}
      (haccepting : s.ss.Accepting answers) (hopens : s.ss.Opens ud ss') :
      Polled s (.event answers) (some (.socketAccept listener ud))
        { s with ss := ss', recv := .poll }
  | other {call : PollCall} {message : Option SocketMessage}
      {ss' : SocketServer} {recv : RecvPc} (hnot : ¬ s.Accepts call)
      (haccepted : acceptedId message = none) (hplaced : ss'.WellPlaced)
      (hopen : ∀ id, ss'.IsOpen id ↔ s.ss.IsOpen id ∧
        closedId message ≠ some id)
      (hrecv : ∀ id, recv ≠ .start id) :
      Polled s call message { s with ss := ss', recv := recv }

theorem polled_of_poll {s' : SocketState} {call : PollCall}
    {message : Option SocketMessage} (h : s.ss.WellPlaced)
    (hpoll : s.poll call = some (s', message)) : s.Polled call message s' := by
  cases call with
  | cmd answers =>
    have hnot : ¬ s.Accepts (.cmd answers) := by simp [Accepts]
    rw [poll] at hpoll
    split at hpoll
    · rename_i hready
      obtain ⟨⟨request, pipe⟩, -, hpoll⟩ := Option.bind_eq_some_iff.mp hpoll
      obtain ⟨r, hcmd, heq⟩ := Option.map_eq_some_iff.mp hpoll
      obtain ⟨events, hclear⟩ := SocketServer.clearClosedEvent_eq r.1 r.2
      cases heq
      have hkeeps := SocketServer.keeps_ctrlCmd
        (show SocketServer.WellPlaced { s.ss with pipe := pipe } from h) hcmd
      rw [hclear]
      have hstart : ∀ id, s.recv ≠ .start id := by
        intro id hid
        rw [hready.1] at hid
        cases hid
      exact .other hnot hkeeps.accepted hkeeps.wellPlaced hkeeps.isOpen_iff hstart
    · cases hpoll
  | noCmd =>
    have hnot : ¬ s.Accepts .noCmd := by simp [Accepts]
    rw [poll] at hpoll
    split at hpoll
    · rename_i hready
      cases hpoll
      have hstart : ∀ id, s.recv ≠ .start id := by
        intro id hid
        rw [hready.1] at hid
        cases hid
      exact .other hnot rfl h (fun id => by simp [closedId]; rfl) hstart
    · cases hpoll
  | wait events =>
    have hnot : ¬ s.Accepts (.wait events) := by simp [Accepts]
    rw [poll] at hpoll
    split at hpoll
    · cases hpoll
      refine .other hnot rfl h (fun id => by simp [closedId]; rfl) ?_
      intro id hid
      split_ifs at hid
    · cases hpoll
  | event answers =>
    rw [poll] at hpoll
    split at hpoll
    · obtain ⟨r, htake, heq⟩ := Option.map_eq_some_iff.mp hpoll
      cases heq
      have htaken := SocketServer.eventTaken_of_takeEvent h htake
      generalize r.2 = message at htaken
      cases htaken with
      | accepted haccepting hopens => exact .accepted haccepting hopens
      | other hnot hkeeps =>
        refine .other ?_ hkeeps.accepted hkeeps.wellPlaced
          hkeeps.isOpen_iff (fun id hid => by cases hid)
        rintro ⟨answers', hcall, haccepting⟩
        cases hcall
        exact hnot haccepting
    · cases hpoll

/-- The handlers of `_ProcessOneLoop` have nothing to do with the sockets and
with the position of the threads. -/
structure SameSockets (s s' : SocketState) : Prop where
  ss : s'.ss = s.ss
  recv : s'.recv = s.recv
  cmd : s'.cmd = s.cmd

section SameSockets

variable {s s' : SocketState} {iClientFd : Int} {inputs : LoopInputs}

theorem sameSockets_processNewClient (hnew : s.processNewClient iClientFd inputs = some s') :
    s.SameSockets s' := by
  unfold processNewClient at hnew
  split at hnew
  · obtain ⟨client, -, rfl⟩ := Option.map_eq_some_iff.mp hnew
    exact ⟨rfl, rfl, rfl⟩
  · split at hnew
    · cases hnew
    · cases hnew
      exact ⟨rfl, rfl, rfl⟩

theorem sameSockets_processCloseClient (hclose : s.processCloseClient iClientFd = some s') :
    s.SameSockets s' := by
  unfold processCloseClient at hclose
  split at hclose
  · cases hclose
    exact ⟨rfl, rfl, rfl⟩
  · obtain ⟨client, -, hremove⟩ := Option.bind_eq_some_iff.mp hclose
    obtain ⟨pool, -, rfl⟩ := Option.map_eq_some_iff.mp hremove
    exact ⟨rfl, rfl, rfl⟩

theorem sameSockets_processMessageData {data : List Byte}
    (hdata : s.processMessageData iClientFd data inputs = some s') :
    s.SameSockets s' := by
  unfold processMessageData at hdata
  split at hdata
  · cases hdata
    exact ⟨rfl, rfl, rfl⟩
  · split at hdata
    · cases hdata
      exact ⟨rfl, rfl, rfl⟩
    · obtain ⟨client, -, hdata⟩ := Option.bind_eq_some_iff.mp hdata
      obtain ⟨m, -, hdata⟩ := Option.bind_eq_some_iff.mp hdata
      dsimp only at hdata
      split at hdata
      · have hsame := sameSockets_processCloseClient hdata
        exact ⟨hsame.ss, hsame.recv, hsame.cmd⟩
      · cases hdata
        exact ⟨rfl, rfl, rfl⟩

/-- Only an accepted connection moves the receive thread. -/
theorem sameSockets_processOneLoop {message : Option SocketMessage}
    (haccepted : acceptedId message = none)
    (hloop : s.processOneLoop inputs message = some s') :
    s.SameSockets s' := by
  unfold processOneLoop at hloop
  split at hloop
  · cases haccepted
  · exact sameSockets_processCloseClient hloop
  · exact sameSockets_processCloseClient hloop
  · exact sameSockets_processMessageData hloop
  · cases hloop
    exact ⟨rfl, rfl, rfl⟩

end SameSockets

/-- Every socket is in its place, and every client is waiting for the rest of a
frame. -/
structure Sane (s : SocketState) : Prop where
  placed : s.ss.WellPlaced
  recv : s.ctx.netPacketRecvQueue.NoneHidden
  waiting : ∀ {p client}, s.clients p = some client →
    MessageLoop.Waiting s.ctx client

section Sane

variable {s s' : SocketState} {iClientFd : Int} {inputs : LoopInputs}

/-- A client of a sane state, after other queues and clients have changed. -/
theorem Sane.waiting_with (h : s.Sane) {ctx : NetworkContext}
    (hrecv : ctx.netPacketRecvQueue.NoneHidden) {p : Nat}
    {client : SocketClientCtx} (hp : s.clients p = some client) :
    MessageLoop.Waiting ctx client :=
  ⟨hrecv, (h.waiting hp).inBounds, (h.waiting hp).more⟩

theorem sane_processNewClient (h : s.Sane)
    (hnew : s.processNewClient iClientFd inputs = some s') : s'.Sane := by
  unfold processNewClient at hnew
  split at hnew
  · obtain ⟨client, -, rfl⟩ := Option.map_eq_some_iff.mp hnew
    exact h
  · split at hnew
    · cases hnew
    · cases hnew
      refine ⟨h.placed, h.recv, fun {p client} hp => ?_⟩
      rcases update_some_eq_some_iff.mp hp with ⟨-, rfl⟩ | ⟨-, hold⟩
      · exact ⟨h.recv, ClientContextBuffer.inBounds_construct _ _, rfl⟩
      · exact h.waiting hold

theorem sane_processCloseClient (h : s.Sane)
    (hclose : s.processCloseClient iClientFd = some s') : s'.Sane := by
  unfold processCloseClient at hclose
  split at hclose
  · cases hclose
    exact h
  · obtain ⟨client, -, hremove⟩ := Option.bind_eq_some_iff.mp hclose
    obtain ⟨pool, -, rfl⟩ := Option.map_eq_some_iff.mp hremove
    refine ⟨h.placed, h.recv, fun {p client} hp => ?_⟩
    exact h.waiting (update_none_eq_some_iff.mp hp).2

/-- What a block that has been handled leaves behind. -/
theorem processMessageData_cases {data : List Byte} (h : s.Sane)
    (hdata : s.processMessageData iClientFd data inputs = some s') :
    (s' = s ∧ (s.clientPool.getClientByFd iClientFd = none ∨ data = [])) ∨
    ∃ p client m, s.clientPool.getClientByFd iClientFd = some p ∧ s.clients p = some client ∧
      (MessageLoop.enter s.ctx client data).Copied m ∧
      if m.iRet ≠ 0 then
        { s with
          ctx := m.ctx
          clients := Function.update s.clients p (some m.client)
          }.processCloseClient iClientFd = some s'
      else
        s' = { s with
          ctx := m.ctx
          clients := Function.update s.clients p (some m.client) } := by
  unfold processMessageData at hdata
  split at hdata
  · rename_i hnone
    cases hdata
    exact Or.inl ⟨rfl, Or.inl hnone⟩
  · rename_i p hp
    split at hdata
    · rename_i hempty
      cases hdata
      exact Or.inl ⟨rfl, Or.inr hempty⟩
    · rename_i hne
      obtain ⟨client, hclient, hdata⟩ := Option.bind_eq_some_iff.mp hdata
      obtain ⟨m, hloop, hdata⟩ := Option.bind_eq_some_iff.mp hdata
      have hcopied := MessageLoop.copied_of_loop (h.waiting hclient) ⟨rfl, hne⟩ hloop
      refine Or.inr ⟨p, client, m, hp, hclient, hcopied, ?_⟩
      dsimp only at hdata
      split_ifs at hdata ⊢
      · exact hdata
      · exact (Option.some.inj hdata).symm

theorem sane_processMessageData {data : List Byte} (h : s.Sane)
    (hdata : s.processMessageData iClientFd data inputs = some s') :
    s'.Sane := by
  rcases processMessageData_cases h hdata with ⟨rfl, -⟩ |
    ⟨p, client, m, hp, hclient, hcopied, hresult⟩
  · exact h
  · by_cases hret : m.iRet ≠ 0
    · rw [if_pos hret] at hresult
      -- the client itself is deleted
      unfold processCloseClient at hresult
      rw [show ClientContextPool.getClientByFd s.clientPool iClientFd = some p
        from hp] at hresult
      obtain ⟨found, -, hremove⟩ := Option.bind_eq_some_iff.mp hresult
      obtain ⟨pool, -, rfl⟩ := Option.map_eq_some_iff.mp hremove
      refine ⟨h.placed, hcopied.recv, fun {q other} hq => ?_⟩
      obtain ⟨hne, hq⟩ := update_none_eq_some_iff.mp hq
      rcases update_some_eq_some_iff.mp hq with ⟨heq, -⟩ | ⟨-, hold⟩
      · exact (hne heq).elim
      · exact h.waiting_with hcopied.recv hold
    · rw [if_neg hret] at hresult
      subst hresult
      refine ⟨h.placed, hcopied.recv, fun {q other} hq => ?_⟩
      rcases update_some_eq_some_iff.mp hq with ⟨-, rfl⟩ | ⟨-, hold⟩
      · exact hcopied.waiting (not_not.mp hret)
      · exact h.waiting_with hcopied.recv hold

theorem sane_processOneLoop {message : Option SocketMessage} (h : s.Sane)
    (hloop : s.processOneLoop inputs message = some s') : s'.Sane := by
  unfold processOneLoop at hloop
  split at hloop
  · obtain ⟨after, hnew, rfl⟩ := Option.map_eq_some_iff.mp hloop
    have hsane := sane_processNewClient h hnew
    exact ⟨hsane.placed, hsane.recv, hsane.waiting⟩
  · exact sane_processCloseClient h hloop
  · exact sane_processCloseClient h hloop
  · exact sane_processMessageData h hloop
  · cases hloop
    exact h

theorem Sane.poll (h : s.Sane) {call : PollCall}
    {message : Option SocketMessage}
    (hpoll : s.poll call = some (s', message)) : s'.Sane := by
  cases polled_of_poll h.placed hpoll with
  | accepted haccepting hopens => exact ⟨hopens.wellPlaced, h.recv, h.waiting⟩
  | other hnot haccepted hplaced => exact ⟨hplaced, h.recv, h.waiting⟩

theorem sane_step (room : PipeRoom) (s : SocketState) (a : SocketAction)
    (s' : SocketState) (h : s.Sane) (hstep : s.step room a = some s') :
    s'.Sane := by
  cases stepped_of_step hstep with
  | poll hpoll hloop => exact sane_processOneLoop (h.poll hpoll) hloop
  | start | sent | write => exact ⟨h.placed, h.recv, h.waiting⟩
  | skipped => exact h
  | copy =>
    have hrecv :
        s.ctx.copyPacketsFromNetToLogic.1.netPacketRecvQueue.NoneHidden := by
      show (NetPacketQueue.copyFrom _ _).2.NoneHidden
      rw [NetPacketQueue.copyFrom_snd]
      exact NetPacketQueue.counted_init.noneHidden
    exact ⟨h.placed, hrecv, fun hp => h.waiting_with hrecv hp⟩

end Sane

/-- What `SocketServer::Init` leaves behind. -/
structure Started (s : SocketState) : Prop where
  placed : s.ss.WellPlaced
  notOpen : ∀ id, ¬ s.ss.IsOpen id
  ctx : s.ctx = .construct
  clientPool : s.clientPool = .empty
  clients : s.clients = fun _ => none
  recv : s.recv = .poll
  cmd : s.cmd = .idle

theorem keeps_socketServerListen {ss ss' : SocketServer} {listening : Bool}
    {id : Int} (h : ss.WellPlaced)
    (hlisten : socketServerListen room ss listening = some (ss', id)) :
    ss'.WellPlaced ∧ ∀ id, ss'.IsOpen id ↔ ss.IsOpen id := by
  unfold socketServerListen at hlisten
  split at hlisten
  · split at hlisten
    · rename_i reserved hreserve
      cases hlisten
      have hkeeps := SocketServer.keeps_reserveId h hreserve
      exact ⟨hkeeps.wellPlaced, fun id => by simp [hkeeps.isOpen_iff, closedId]⟩
    · rename_i reserved id' hreserve
      obtain ⟨after, hsend, heq⟩ := Option.map_eq_some_iff.mp hlisten
      cases heq
      obtain ⟨-, rfl⟩ := sendRequest_eq_some_iff.mp hsend
      have hkeeps := SocketServer.keeps_reserveId h hreserve
      have hopen : ∀ id, reserved.IsOpen id ↔ ss.IsOpen id :=
        fun id => by simp [hkeeps.isOpen_iff, closedId]
      exact ⟨hkeeps.wellPlaced, hopen⟩
  · cases hlisten
    exact ⟨h, fun _ => Iff.rfl⟩

theorem started_of_init {memory : Nat → Socket.Sock} {listening : Bool}
    (hinit : init room memory listening = some s) : s.Started := by
  obtain ⟨r, hlisten, hinit⟩ := Option.bind_eq_some_iff.mp hinit
  obtain ⟨ss, hsend, rfl⟩ := Option.map_eq_some_iff.mp hinit
  obtain ⟨-, rfl⟩ := sendRequest_eq_some_iff.mp hsend
  obtain ⟨hplaced, hopen⟩ := keeps_socketServerListen
    (SocketServer.wellPlaced_create memory) hlisten
  refine ⟨hplaced, fun id hid => ?_, rfl, rfl, rfl, rfl, rfl⟩
  exact SocketServer.not_isOpen_create memory id ((hopen id).mp hid)

theorem Started.sane (h : s.Started) : s.Sane where
  placed := h.placed
  recv := by
    rw [h.ctx]
    exact NetPacketQueue.counted_init.noneHidden
  waiting := by
    intro p client hp
    rw [h.clients] at hp
    cases hp

/-! ## A client that is connected -/

/-- A page of a pipe: the bytes that were written to it, and those of them that
have not been read. -/
structure PipePage where
  used : Nat
  unread : Nat

/-- Pages are given back when all of their bytes have been read. -/
def readPages : List PipePage → Nat → List PipePage
  | [], _ => []
  | page :: rest, n =>
    if n < page.unread then
      { page with unread := page.unread - n } :: rest
    else
      readPages rest (n - page.unread)

/-- A write goes to the last page if it fits there, and else to a new one. -/
def pagesAfter (pageSize : Nat) (pages : List PipePage) :
    PipeOp → List PipePage
  | .read n => readPages pages n
  | .write n =>
    match pages.getLast? with
    | none => [⟨n, n⟩]
    | some page =>
      if page.used + n ≤ pageSize then
        pages.dropLast ++ [⟨page.used + n, page.unread + n⟩]
      else
        pages ++ [⟨n, n⟩]

/-- The room of a pipe with so many pages, for writes of at most a page: a free
page, or enough of the last one. -/
def pageRoom (pageSize count : Nat) : PipeRoom := fun ops n =>
  let pages := ops.foldl (pagesAfter pageSize) []
  decide (pages.length < count) ||
    pages.getLast?.any fun page => decide (page.used + n ≤ pageSize)

/-- A pipe of Linux, unless its size is changed. -/
def linuxRoom : PipeRoom := pageRoom 4096 16

/-- Memory that happens to be zero. -/
def zeroedSlot : Socket.Sock := ⟨0, [], [], 0, 0, 0, .tcp, .invalid, .size 0⟩

/-- The socket of a client that is connected. -/
def clientSock (size : Nat) : Socket.Sock :=
  ⟨socketServerOpaque, [], [], 0, 0, 2, .tcp, .connected, .size size⟩

/-- The listening socket is started, a client is accepted in slot 2 and
started. -/
def connectActions : List SocketAction :=
  [.poll (.cmd {}) {}, .poll (.cmd {}) {}, .poll .noCmd {},
    .poll (.wait [⟨some 1, true, false⟩]) {},
    .poll (.event {}) { ulSeqID := 1 }, .start, .poll (.cmd {}) {},
    .poll .noCmd {}]

/-- Both threads are idle, and the client in slot 2 has these bytes and this
read size. -/
structure Serving (s : SocketState) (checkctrl : Bool) (size : Nat)
    (bytes : List Byte) : Prop where
  sane : s.Sane
  recv : s.recv = .poll
  cmd : s.cmd = .idle
  checkctrl : s.ss.checkctrl = checkctrl
  ev : s.ss.ev = []
  pipe : s.ss.pipe.requests = []
  listener : (s.ss.slot 1).type = .listen
  socket : s.ss.slot 2 = clientSock size
  byFd : s.clientPool.getClientByFd 2 = some 0
  bySeq : s.clientPool.getClient 1 = some 0
  client : ∃ client, s.clients 0 = some client ∧
    client.ulClientUniqSeq = 1 ∧ client.contextBuffer.iClientFd = 2 ∧
    client.contextBuffer.content = bytes

theorem exists_serving :
    ∃ start s, init linuxRoom (fun _ => zeroedSlot) true = some start ∧
      runSteps (step linuxRoom) start connectActions = some s ∧
      s.Serving false minReadBuffer [] := by
  have hrun : ∃ start s, init linuxRoom (fun _ => zeroedSlot) true = some start ∧
      runSteps (step linuxRoom) start connectActions = some s := ⟨_, _, rfl, rfl⟩
  obtain ⟨start, s, hinit, hrun⟩ := hrun
  have hsane := runSteps_invariant (sane_step linuxRoom) (started_of_init hinit).sane hrun
  refine ⟨start, s, hinit, hrun, ?_⟩
  cases hinit
  cases hrun
  exact ⟨hsane, rfl, rfl, rfl, rfl, rfl, rfl, rfl, rfl, rfl, _, rfl, rfl, rfl, rfl⟩

section Serving

variable {s : SocketState} {checkctrl : Bool} {size : Nat}
  {bytes block : List Byte}

/-- The event of a block from the client. -/
def readEvent : SocketEvent := ⟨some 2, true, false⟩

/-- A block is read from the client's socket. -/
theorem Serving.poll_read (h : s.Serving false size bytes) (block : List Byte)
    (hne : block ≠ []) (hsize : block.length ≤ size) (room : PipeRoom) :
    ∃ s₁ s₂, s.step room (.poll (.wait [readEvent]) {}) = some s₁ ∧
      s₁.poll (.event { read := .read block }) = some (s₂, some (.socketData 2 block)) ∧
      s₂.Serving true (nextReadSize size block.length) bytes := by
  have hwait : s.step room (.poll (.wait [readEvent]) {}) = some
      { s with
        ss := { s.ss with ev := [readEvent], checkctrl := true }
        recv := .event } := by
    simp [step, poll, processOneLoop, h.recv, h.checkctrl, h.ev, maxEvent,
      readEvent, h.socket, clientSock, SocketType.isPolled]
  have hread : poll { s with
        ss := { s.ss with ev := [readEvent], checkctrl := true }
        recv := .event } (.event { read := .read block }) = some
      ({ s with
          ss := { s.ss with
            slot := Function.update s.ss.slot 2 (clientSock (nextReadSize size block.length))
            ev := []
            checkctrl := true }
          recv := .poll }, some (.socketData 2 block)) := by
    simp [poll, SocketServer.takeEvent, Socket.pollEvent,
      Socket.forwardMessageTcp, SystemAnswers.event, Socket.Table.eventsAfter,
      SocketServer.finish, SocketMessage.ofMessage, SocketServer.setSlot,
      SocketServer.clearClosedEvent, closedId, readEvent, h.socket, clientSock,
      hne, Nat.not_lt.mpr hsize]
  have hsane := (sane_step room _ _ _ h.sane hwait).poll hread
  refine ⟨_, _, hwait, hread, hsane, rfl, h.cmd, rfl, rfl, h.pipe, ?_, ?_,
    h.byFd, h.bySeq, h.client⟩
  · simpa using h.listener
  · simp

/-- The client is found under its id. -/
theorem Serving.clientOf_eq (h : s.Serving checkctrl size bytes)
    {client : SocketClientCtx} (hclient : s.clients 0 = some client) :
    s.clientOf 2 = some client := by
  rw [clientOf, h.byFd, Option.bind_some, hclient]

/-- The loop over a block that fits, with the bytes that the client has. -/
theorem Serving.exists_loop (h : s.Serving checkctrl size bytes) (hne : block ≠ [])
    (hfits : bytes.length + block.length ≤ contextBufferCapacity) :
    ∃ client m, s.clients 0 = some client ∧
      (MessageLoop.enter s.ctx client block).loop (fun _ _ => 0) 1 = some m ∧
      m.iRet = (referenceParse (bytes ++ block)).error.getD 0 ∧
      (m.iRet = 0 → m.client.contextBuffer.content = (referenceParse (bytes ++ block)).rest) ∧
      m.client.ulClientUniqSeq = 1 ∧ m.client.contextBuffer.iClientFd = 2 := by
  obtain ⟨client, hclient, hseq, hfd, hbytes⟩ := h.client
  have hwaiting := h.sane.waiting hclient
  have hspace := hwaiting.inBounds.length_add_freeSpace
  rw [hbytes] at hspace
  obtain ⟨m, hloop, hcopied⟩ := MessageLoop.exists_loop
    (m := .enter s.ctx client block) (fun _ _ => 0) 0 hwaiting ⟨rfl, hne⟩
    (show block.length ≤ client.contextBuffer.freeSpace by omega)
  refine ⟨client, m, hclient, hloop, ?_, ?_, hcopied.seq.trans hseq, hcopied.fd.trans hfd⟩
  · rw [← hbytes]
    exact hcopied.iRet
  · rw [← hbytes]
    exact hcopied.content

end Serving

end SocketState

end Network
end GameServer
