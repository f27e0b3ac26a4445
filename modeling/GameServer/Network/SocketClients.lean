import GameServer.Network.SocketLogic

/-!
# The client pool and the socket table

The socket server reports what happens to its sockets, and `_ProcessOneLoop`
keeps the client pool in step with the messages.  The two tables agree when the
ids in the pool are those of the accepted connections that are still open, and
the client of such a connection has not been deleted.

They agree after every action exactly when two things hold for each message.  A
client whose socket is closed has to be the one that its sequence id leads to,
because `RemoveClient` looks it up under that id.  And a block for a client must
not contain an invalid frame behind the bytes that the client holds: then
`_ProcessMessageData` deletes the client without closing its socket.
-/

namespace GameServer
namespace Network

open Lib

namespace SocketState

/-- The pool has the ids of the open connections, with a client for each. -/
structure Agrees (s : SocketState) : Prop where
  isOpen : ∀ {id p}, s.clientPool.getClientByFd id = some p → s.ss.IsOpen id
  client : ∀ {id}, s.ss.IsOpen id → ∃ client, s.clientOf id = some client

/-- The client of the id is the one that its sequence id leads to. -/
def OwnSeq (s : SocketState) (id : Int) : Prop :=
  ∀ client, s.clientOf id = some client →
    s.clientPool.getClient client.ulClientUniqSeq =
      s.clientPool.getClientByFd id

/-- The block has no invalid frame behind what the client holds. -/
def ValidBlock (s : SocketState) (id : Int) (data : List Byte) : Prop :=
  ∀ client, s.clientOf id = some client →
    (referenceParse (client.contextBuffer.content ++ data)).error = none

/-- The messages that the handlers follow. -/
def Harmless (s : SocketState) : Option SocketMessage → Prop
  | some (.socketData id data) => s.ValidBlock id data
  | some (.socketClose id) | some (.socketError id) => s.OwnSeq id
  | _ => True

/-- The message that `socket_server_poll` returns is one of them. -/
def PollsHarmless (s : SocketState) : SocketAction → Prop
  | .poll call _ => ∀ s' message, s.poll call = some (s', message) →
      s.Harmless message
  | _ => True

/-! ## The pool and the clients -/

/-- The clients in use are filed under their descriptors. -/
structure Filed (byFd : Int → Option Nat)
    (clients : Nat → Option SocketClientCtx) : Prop where
  client : ∀ {fd p}, byFd fd = some p →
    ∃ client, clients p = some client ∧ client.contextBuffer.iClientFd = fd
  byFd : ∀ {p client}, clients p = some client →
    byFd client.contextBuffer.iClientFd = some p

section Filed

variable {byFd : Int → Option Nat} {clients : Nat → Option SocketClientCtx}
  {fd : Int} {p : Nat} {client : SocketClientCtx}

/-- A client has one descriptor. -/
theorem Filed.fd_eq (h : Filed byFd clients) {fd' : Int}
    (hp : byFd fd = some p) (hp' : byFd fd' = some p) : fd = fd' := by
  obtain ⟨client, hclient, hfd⟩ := h.client hp
  obtain ⟨client', hclient', hfd'⟩ := h.client hp'
  obtain rfl : client = client' := Option.some.inj (hclient.symm.trans hclient')
  exact hfd.symm.trans hfd'

theorem Filed.insert (h : Filed byFd clients) (hfd : byFd fd = none)
    (hp : clients p = none) (hclient : client.contextBuffer.iClientFd = fd) :
    Filed (Function.update byFd fd (some p)) (Function.update clients p (some client)) where
  client := by
    intro fd' q hq
    rcases update_some_eq_some_iff.mp hq with ⟨rfl, rfl⟩ | ⟨-, hq'⟩
    · exact ⟨client, Function.update_self _ _ _, hclient⟩
    · obtain ⟨other, hother, hfd'⟩ := h.client hq'
      refine ⟨other, ?_, hfd'⟩
      rw [Function.update_of_ne, hother]
      rintro rfl
      rw [hp] at hother
      cases hother
  byFd := by
    intro q other hq
    rcases update_some_eq_some_iff.mp hq with ⟨rfl, rfl⟩ | ⟨-, hq'⟩
    · rw [hclient, Function.update_self]
    · have hother := h.byFd hq'
      rw [Function.update_of_ne, hother]
      intro heq
      rw [heq, hfd] at hother
      cases hother

theorem Filed.erase (h : Filed byFd clients) (hp : byFd fd = some p) :
    Filed (Function.update byFd fd none) (Function.update clients p none) where
  client := by
    intro fd' q hq
    obtain ⟨hne, hq'⟩ := update_none_eq_some_iff.mp hq
    obtain ⟨other, hother, hfd'⟩ := h.client hq'
    refine ⟨other, ?_, hfd'⟩
    rw [Function.update_of_ne, hother]
    rintro rfl
    exact hne (h.fd_eq hq' hp)
  byFd := by
    intro q other hq
    obtain ⟨hne, hq'⟩ := update_none_eq_some_iff.mp hq
    have hother := h.byFd hq'
    rw [Function.update_of_ne, hother]
    intro heq
    rw [heq, hp] at hother
    exact hne (Option.some.inj hother).symm

theorem Filed.write (h : Filed byFd clients) (hp : byFd fd = some p)
    (hclient : client.contextBuffer.iClientFd = fd) :
    Filed byFd (Function.update clients p (some client)) where
  client := by
    intro fd' q hq
    by_cases heq : q = p
    · subst heq
      exact ⟨client, Function.update_self _ _ _, hclient.trans (h.fd_eq hp hq)⟩
    · rw [Function.update_of_ne heq]
      exact h.client hq
  byFd := by
    intro q other hq
    rcases update_some_eq_some_iff.mp hq with ⟨rfl, rfl⟩ | ⟨-, hq'⟩
    · rw [hclient, hp]
    · exact h.byFd hq'

end Filed

/-- The tables agree, and the clients are filed in the pool. -/
structure InStep (s : SocketState) : Prop where
  sane : s.Sane
  filed : Filed s.clientPool.clientFdPool s.clients
  isOpen_iff : ∀ id, (∃ p, s.clientPool.clientFdPool id = some p) ↔
    s.ss.IsOpen id

section InStep

variable {s s' : SocketState} {inputs : LoopInputs} {id : Int} {p : Nat}
  {client : SocketClientCtx} {pool : ClientContextPool Nat}

theorem Started.inStep (h : s.Started) : s.InStep where
  sane := h.sane
  filed := by
    rw [h.clientPool, h.clients]
    exact ⟨fun hp => (nomatch hp), fun hp => (nomatch hp)⟩
  isOpen_iff := by
    intro id
    refine iff_of_false ?_ (h.notOpen id)
    rw [h.clientPool]
    rintro ⟨p, hp⟩
    cases hp

theorem InStep.agrees (h : s.InStep) : s.Agrees where
  isOpen := fun hp => (h.isOpen_iff _).mp ⟨_, hp⟩
  client := by
    intro id hid
    obtain ⟨p, hp⟩ := (h.isOpen_iff id).mpr hid
    obtain ⟨client, hclient, -⟩ := h.filed.client hp
    exact ⟨client, Option.bind_eq_some_iff.mpr ⟨p, hp, hclient⟩⟩

theorem clientOf_of_byFd (hp : s.clientPool.clientFdPool id = some p) :
    s.clientOf id = s.clients p := by
  unfold clientOf ClientContextPool.getClientByFd
  rw [hp, Option.bind_some]

/-! ## A connection is accepted -/

/-- The id of a new connection gets a client. -/
theorem inStep_processNewClient (hsane : s'.Sane)
    (hfiled : Filed s.clientPool.clientFdPool s.clients)
    (hfresh : s.clientPool.clientFdPool id = none)
    (hopen : ∀ x, s.ss.IsOpen x ↔ (∃ p, s.clientPool.clientFdPool x = some p) ∨ x = id)
    (hnew : s.processNewClient id inputs = some s') : s'.InStep := by
  unfold processNewClient ClientContextPool.getClientByFd at hnew
  rw [hfresh] at hnew
  dsimp only at hnew
  split at hnew
  · cases hnew
  · rename_i hfree
    cases hnew
    have hpool : (s.clientPool.addClient inputs.ulSeqID inputs.pstClient
        id).clientFdPool = Function.update s.clientPool.clientFdPool id
          (some inputs.pstClient) := mapInsert_of_none hfresh _
    refine ⟨hsane, ?_, fun x => ?_⟩
    · dsimp only
      rw [hpool]
      exact hfiled.insert hfresh (Option.not_isSome_iff_eq_none.mp hfree) rfl
    · dsimp only
      rw [hpool, hopen]
      by_cases hx : x = id
      · simp [hx]
      · simp [hx]

/-! ## A connection is closed -/

theorem processCloseClient_of_none (hp : s.clientPool.clientFdPool id = none) :
    s.processCloseClient id = some s := by
  unfold processCloseClient ClientContextPool.getClientByFd
  rw [hp]

/-- The client is removed under its sequence id and deleted. -/
theorem processCloseClient_of_some (hp : s.clientPool.clientFdPool id = some p)
    (hclient : s.clients p = some client)
    (hclose : s.processCloseClient id = some s') :
    ∃ pool, s.clientPool.removeClient s.getClientFd client.ulClientUniqSeq = some pool ∧
      s' = { s with
        clientPool := pool
        clients := Function.update s.clients p none } := by
  unfold processCloseClient ClientContextPool.getClientByFd at hclose
  rw [hp] at hclose
  dsimp only at hclose
  rw [hclient, Option.bind_some] at hclose
  obtain ⟨pool, hremove, rfl⟩ := Option.map_eq_some_iff.mp hclose
  exact ⟨pool, hremove, rfl⟩

/-- A client that its sequence id leads to is taken out under both ids. -/
theorem byFd_removeClient_of_own (hclient : s.clients p = some client)
    (hseq : s.clientPool.getClient client.ulClientUniqSeq = some p)
    (hremove : s.clientPool.removeClient s.getClientFd client.ulClientUniqSeq = some pool) :
    pool.clientFdPool = Function.update s.clientPool.clientFdPool
      client.contextBuffer.iClientFd none := by
  unfold ClientContextPool.getClient at hseq
  unfold ClientContextPool.removeClient getClientFd at hremove
  rw [hseq] at hremove
  dsimp only at hremove
  rw [hclient] at hremove
  cases hremove
  rfl

/-- Otherwise its descriptor stays in the pool. -/
theorem byFd_removeClient_of_other (hfiled : Filed s.clientPool.clientFdPool s.clients)
    (hp : s.clientPool.clientFdPool id = some p) {ulClientSeq : UInt64}
    (hseq : s.clientPool.getClient ulClientSeq ≠ some p)
    (hremove : s.clientPool.removeClient s.getClientFd ulClientSeq =
      some pool) : pool.clientFdPool id = some p := by
  unfold ClientContextPool.getClient at hseq
  unfold ClientContextPool.removeClient at hremove
  split at hremove
  · cases hremove
    exact hp
  · rename_i q hq
    obtain ⟨fd, hfd, rfl⟩ := Option.map_eq_some_iff.mp hremove
    obtain ⟨other, hother, rfl⟩ := Option.map_eq_some_iff.mp hfd
    show Function.update s.clientPool.clientFdPool _ none id = some p
    rw [Function.update_of_ne, hp]
    rintro rfl
    -- the client that is removed has another descriptor
    have hq' := hfiled.byFd hother
    rw [hp] at hq'
    cases hq'
    exact hseq hq

/-- Nothing is added to the pool. -/
theorem byFd_of_removeClient {ulClientSeq : UInt64}
    (hremove : s.clientPool.removeClient s.getClientFd ulClientSeq = some pool)
    (hp : pool.clientFdPool id = some p) :
    s.clientPool.clientFdPool id = some p := by
  unfold ClientContextPool.removeClient at hremove
  split at hremove
  · cases hremove
    exact hp
  · obtain ⟨fd, -, rfl⟩ := Option.map_eq_some_iff.mp hremove
    exact (update_none_eq_some_iff.mp hp).2

/-- **The pool follows a closed connection** exactly when the client is the one
that its sequence id leads to. -/
theorem inStep_processCloseClient (hsane : s'.Sane)
    (hfiled : Filed s.clientPool.clientFdPool s.clients)
    (hopen : ∀ x, s.ss.IsOpen x ↔ (∃ p, s.clientPool.clientFdPool x = some p) ∧ x ≠ id)
    (hclose : s.processCloseClient id = some s') (hown : s.OwnSeq id) :
    s'.InStep := by
  cases hp : s.clientPool.clientFdPool id with
  | none =>
    rw [processCloseClient_of_none hp] at hclose
    cases hclose
    refine ⟨hsane, hfiled, fun x => ?_⟩
    rw [hopen]
    refine ⟨fun hx => ⟨hx, ?_⟩, And.left⟩
    rintro rfl
    obtain ⟨p, hp'⟩ := hx
    rw [hp] at hp'
    cases hp'
  | some p =>
    obtain ⟨client, hclient, rfl⟩ := hfiled.client hp
    obtain ⟨pool, hremove, rfl⟩ := processCloseClient_of_some hp hclient hclose
    have hseq : s.clientPool.getClient client.ulClientUniqSeq = some p :=
      (hown client (by rw [clientOf_of_byFd hp, hclient])).trans hp
    have hpool := byFd_removeClient_of_own hclient hseq hremove
    refine ⟨hsane, ?_, fun x => ?_⟩
    · dsimp only
      rw [hpool]
      exact hfiled.erase hp
    · dsimp only
      rw [hpool, hopen]
      by_cases hx : x = client.contextBuffer.iClientFd
      · simp [hx]
      · simp [hx]

theorem ownSeq_of_processCloseClient (hfiled : Filed s.clientPool.clientFdPool s.clients)
    (hopen : ¬ s.ss.IsOpen id)
    (hclose : s.processCloseClient id = some s') (hagrees : s'.Agrees) :
    s.OwnSeq id := by
  intro client hclient
  obtain ⟨p, hp, hclient⟩ := Option.bind_eq_some_iff.mp hclient
  rw [hp]
  by_contra hseq
  obtain ⟨pool, hremove, rfl⟩ := processCloseClient_of_some hp hclient hclose
  exact hopen (hagrees.isOpen (byFd_removeClient_of_other hfiled hp hseq hremove))

/-! ## A block arrives -/

/-- A valid block leaves the pool as it is. -/
theorem inStep_processMessageData {data : List Byte} (h : s.InStep) (hsane : s'.Sane)
    (hdata : s.processMessageData id data inputs = some s')
    (hvalid : s.ValidBlock id data) : s'.InStep := by
  rcases processMessageData_cases h.sane hdata with ⟨rfl, -⟩ |
    ⟨p, client, m, hp, hclient, hcopied, hresult⟩
  · exact h
  · have hret : m.iRet = 0 := by
      rw [hcopied.iRet]
      show (referenceParse (client.contextBuffer.content ++ data)).error.getD 0 = 0
      rw [hvalid client (by rw [clientOf_of_byFd hp, hclient])]
      rfl
    rw [if_neg (not_not.mpr hret)] at hresult
    subst hresult
    obtain ⟨found, hfound, hfd⟩ := h.filed.client hp
    obtain rfl : client = found := Option.some.inj (hclient.symm.trans hfound)
    exact ⟨hsane, h.filed.write hp (hcopied.fd.trans hfd), h.isOpen_iff⟩

/-- After an invalid frame the client is deleted while its socket is open. -/
theorem validBlock_of_processMessageData {data : List Byte} (h : s.InStep)
    (hdata : s.processMessageData id data inputs = some s')
    (hagrees : s'.Agrees) : s.ValidBlock id data := by
  intro client hfound
  obtain ⟨p, hp, hclient⟩ := Option.bind_eq_some_iff.mp hfound
  rcases processMessageData_cases h.sane hdata with ⟨-, hnone | rfl⟩ |
    ⟨p', client', m, hp', hclient', hcopied, hresult⟩
  · rw [hp] at hnone
    cases hnone
  · rw [List.append_nil, referenceParse_of_more (h.sane.waiting hclient).more]
  · obtain rfl : p = p' := Option.some.inj (hp.symm.trans hp')
    obtain rfl : client = client' :=
      Option.some.inj (hclient.symm.trans hclient')
    by_cases hret : m.iRet = 0
    · cases herror : (referenceParse (client.contextBuffer.content ++ data)).error with
      | none => rfl
      | some e =>
        have hvalue : m.iRet = e := by
          rw [hcopied.iRet]
          show (referenceParse (client.contextBuffer.content ++ data)).error.getD 0 = e
          rw [herror]
          rfl
        exact (referenceParse_error_ne_zero herror (hvalue.symm.trans hret)).elim
    · rw [if_pos hret] at hresult
      obtain ⟨pool, hremove, rfl⟩ := processCloseClient_of_some (s := { s with
          ctx := m.ctx
          clients := Function.update s.clients p (some m.client) }) hp
        (Function.update_self _ _ _) hresult
      -- what the pool still has under this id is the deleted client
      obtain ⟨left, hleft⟩ := hagrees.client ((h.isOpen_iff id).mp ⟨p, hp⟩)
      obtain ⟨q, hq, hleft⟩ := Option.bind_eq_some_iff.mp hleft
      have hq' := byFd_of_removeClient hremove hq
      obtain rfl : p = q := Option.some.inj (hp.symm.trans hq')
      exact ((update_none_eq_some_iff.mp hleft).1 rfl).elim

/-! ## One action -/

/-- **A message other than an accepted connection** is followed if it is
harmless, and only then. -/
theorem inStep_processOneLoop {message : Option SocketMessage}
    (hsane : s.Sane) (hfiled : Filed s.clientPool.clientFdPool s.clients)
    (haccepted : acceptedId message = none)
    (hopen : ∀ x, s.ss.IsOpen x ↔
      (∃ p, s.clientPool.clientFdPool x = some p) ∧ closedId message ≠ some x)
    (hloop : s.processOneLoop inputs message = some s') :
    (s.Harmless message → s'.InStep) ∧ (s'.Agrees → s.Harmless message) := by
  have hsane' := sane_processOneLoop hsane hloop
  have hclosed : ∀ id, closedId message = some id → (∀ x, s.ss.IsOpen x ↔
        (∃ p, s.clientPool.clientFdPool x = some p) ∧ x ≠ id) ∧
        ¬ s.ss.IsOpen id := by
    intro id hid
    have hiff : ∀ x, s.ss.IsOpen x ↔ (∃ p, s.clientPool.clientFdPool x = some p) ∧ x ≠ id := by
      intro x
      rw [hopen, hid]
      simp [eq_comm]
    exact ⟨hiff, fun hid => ((hiff id).mp hid).2 rfl⟩
  have hsame : closedId message = none → s.InStep := by
    intro hnone
    refine ⟨hsane, hfiled, fun x => ?_⟩
    rw [hopen, hnone]
    simp
  cases message with
  | none =>
    cases hloop
    exact ⟨fun _ => hsame rfl, fun _ => trivial⟩
  | some message =>
    cases message with
    | socketAccept listener ud => cases haccepted
    | socketOpen id =>
      cases hloop
      exact ⟨fun _ => hsame rfl, fun _ => trivial⟩
    | socketClose id | socketError id =>
      obtain ⟨hiff, hnot⟩ := hclosed id rfl
      exact ⟨inStep_processCloseClient hsane' hfiled hiff hloop,
        ownSeq_of_processCloseClient hfiled hnot hloop⟩
    | socketData id data =>
      exact ⟨inStep_processMessageData (hsame rfl) hsane' hloop,
        validBlock_of_processMessageData (hsame rfl) hloop⟩

/-- **What keeps the tables in step.** -/
theorem inStep_step_iff {room : PipeRoom} {a : SocketAction} (h : s.InStep)
    (hstep : s.step room a = some s') :
    (s.PollsHarmless a → s'.InStep) ∧ (s'.Agrees → s.PollsHarmless a) := by
  have hsane := sane_step room s a s' h.sane hstep
  cases stepped_of_step hstep with
  | @poll call inputs s₁ _ message hpoll hloop =>
    have hpolls : s.PollsHarmless (.poll call inputs) ↔ s.Harmless message := by
      refine ⟨fun hall => hall s₁ message hpoll, ?_⟩
      intro hharmless s₂ message' hpoll'
      rw [hpoll] at hpoll'
      cases hpoll'
      exact hharmless
    rw [hpolls]
    have hsane₁ := h.sane.poll hpoll
    cases polled_of_poll h.sane.placed hpoll with
    | @accepted answers listener ud ss' haccepting hopens =>
      refine ⟨fun _ => ?_, fun _ => trivial⟩
      obtain ⟨after, hnew, rfl⟩ := Option.map_eq_some_iff.mp hloop
      have hfresh : s.clientPool.clientFdPool ud = none := by
        cases hfd : s.clientPool.clientFdPool ud with
        | none => rfl
        | some p =>
          exact (hopens.fresh ((h.isOpen_iff ud).mp ⟨p, hfd⟩)).elim
      have hafter := inStep_processNewClient (s := { s with ss := ss', recv := .poll })
        (sane_processNewClient hsane₁ hnew) h.filed hfresh
        (fun x => by rw [hopens.isOpen_iff, ← h.isOpen_iff]) hnew
      exact ⟨hsane, hafter.filed, hafter.isOpen_iff⟩
    | @other _ _ ss' recv hnot haccepted hplaced hopen hrecv =>
      exact inStep_processOneLoop (s := { s with ss := ss', recv := recv }) hsane₁ h.filed haccepted
        (fun x => by rw [hopen, ← h.isOpen_iff]) hloop
  | start | sent | write | copy =>
    exact ⟨fun _ => ⟨hsane, h.filed, h.isOpen_iff⟩, fun _ => trivial⟩
  | skipped => exact ⟨fun _ => h, fun _ => trivial⟩

end InStep

/-- **The client pool and the socket table.**  In every run of the two threads
the pool has the ids of the open connections after every action, with a client
for each, exactly when all the messages that are handled are harmless: blocks
without invalid frames, and closed connections whose clients are found under
their sequence ids. -/
theorem agrees_iff (room : PipeRoom) (memory : Nat → Socket.Sock)
    (listening : Bool) {start t : SocketState} (hinit : init room memory listening = some start)
    (actions : List SocketAction)
    (hrun : runSteps (step room) start actions = some t) :
    (∀ first rest r, actions = first ++ rest →
      runSteps (step room) start first = some r → r.Agrees) ↔
    RunMeets (step room) PollsHarmless start actions := by
  have hkeep : ∀ (s : SocketState) (a : SocketAction) (s' : SocketState),
      s.InStep → s.PollsHarmless a → s.step room a = some s' →
      s'.InStep :=
    fun s a s' h hharmless hstep => (inStep_step_iff h hstep).1 hharmless
  have hneed : ∀ (s : SocketState) (a : SocketAction) (s' : SocketState),
      s.InStep → s.step room a = some s' → s'.Agrees →
      s.PollsHarmless a :=
    fun s a s' h hstep hagrees => (inStep_step_iff h hstep).2 hagrees
  exact forall_reached_iff_runMeets hkeep hneed (fun _ h => h.agrees)
    (started_of_init hinit).inStep hrun

theorem agrees_iff_connect :
    ∃ start t, init linuxRoom (fun _ => zeroedSlot) true = some start ∧
      runSteps (step linuxRoom) start connectActions = some t ∧
      ((∀ first rest r, connectActions = first ++ rest →
        runSteps (step linuxRoom) start first = some r → r.Agrees) ↔
      RunMeets (step linuxRoom) PollsHarmless start connectActions) := by
  obtain ⟨start, t, hinit, hrun, -⟩ := exists_serving
  exact ⟨start, t, hinit, hrun, agrees_iff linuxRoom (fun _ => zeroedSlot) true hinit _ hrun⟩

/-! ## A client that is dropped -/

/-- A frame without a body. -/
def emptyFrame : List Byte := [0, 4, 0, 0]

/-- A frame without a body is rejected. -/
theorem referenceParse_emptyFrame : (referenceParse emptyFrame).error = some (-2) := by
  have hfail : scanFrame emptyFrame = .fail (-2) :=
    scanFrame_eq_fail_iff.mpr ⟨by decide, by decide, Or.inl ⟨by decide, rfl⟩⟩
  rw [referenceParse_of_fail hfail]

/-- **A client that is dropped and stays connected.**  The client sends a frame
without a body.  It is deleted and not in the pool any more, but its socket is
connected, and nobody is going to close it. -/
theorem dropped_client_connected :
    ∃ start t, init linuxRoom (fun _ => zeroedSlot) true = some start ∧
      runSteps (step linuxRoom) start (connectActions ++ [.poll (.wait [readEvent]) {},
          .poll (.event { read := .read emptyFrame }) {}]) = some t ∧
      t.clientPool.getClientByFd 2 = none ∧
      (t.ss.slot 2).type = .connected ∧ t.ss.pipe.requests = [] ∧ ¬ t.Agrees := by
  obtain ⟨start, s, hinit, hrun, h⟩ := exists_serving
  have hne : emptyFrame ≠ [] := by decide
  obtain ⟨s₁, s₂, hwait, hread, h₂⟩ :=
    h.poll_read emptyFrame hne (by decide) linuxRoom
  obtain ⟨client, m, hclient, hloop, hiRet, -, hseq, hfd⟩ :=
    h₂.exists_loop hne (by decide)
  rw [List.nil_append, referenceParse_emptyFrame] at hiRet
  have hret : m.iRet ≠ 0 := by
    rw [hiRet]
    decide
  have hbySeq : s₂.clientPool.clientSeqPool 1 = some 0 := h₂.bySeq
  have hdata : s₂.processMessageData 2 emptyFrame {} = some
      { s₂ with
        ctx := m.ctx
        clientPool :=
          ⟨Function.update s₂.clientPool.clientSeqPool 1 none,
            Function.update s₂.clientPool.clientFdPool 2 none⟩
        clients := Function.update (Function.update s₂.clients 0 (some m.client)) 0 none } := by
    simp [processMessageData, processCloseClient, h₂.byFd, hne, hclient, hloop,
      hret, ClientContextPool.removeClient, hseq, hbySeq, getClientFd, hfd,
      ClientContextPool.removeClientByFd]
  have hevent : s₁.step linuxRoom (.poll (.event { read := .read emptyFrame }) {}) =
        s₂.processMessageData 2 emptyFrame {} := by
    rw [step, hread]
    rfl
  have hend : runSteps (step linuxRoom) start (connectActions ++ [.poll (.wait [readEvent]) {},
        .poll (.event { read := .read emptyFrame }) {}]) =
          s₂.processMessageData 2 emptyFrame {} := by
    rw [runSteps_append, hrun, Option.bind_some, runSteps_cons, hwait,
      Option.bind_some, runSteps_cons, hevent, hdata]
    rfl
  refine ⟨start, _, hinit, hend.trans hdata, ?_, ?_, h₂.pipe, fun hagrees => ?_⟩
  · simp [ClientContextPool.getClientByFd]
  · dsimp only
    rw [h₂.socket]
    rfl
  · have hopen : s₂.ss.IsOpen 2 := by
      have hslot : s₂.ss.socketOf 2 = s₂.ss.slot 2 := rfl
      rw [SocketServer.IsOpen, hslot, h₂.socket]
      exact ⟨rfl, rfl⟩
    obtain ⟨left, hleft⟩ := hagrees.client hopen
    obtain ⟨p, hp, -⟩ := Option.bind_eq_some_iff.mp hleft
    have hp' : Function.update s₂.clientPool.clientFdPool 2 none 2 = some p :=
      hp
    exact (update_none_eq_some_iff.mp hp').1 rfl

end SocketState

end Network
end GameServer
