import GameServer.Lib.Transition
import GameServer.Network.ClientPool
import GameServer.Network.ReadLoop

/-!
# The callbacks of the libevent server

`libevent_handle.cpp`: connections are accepted, read from and closed by
callbacks of the network thread.  A connection is a client context on the heap,
registered in the pool under its sequence id and its descriptor, and the
bufferevent it owns.  Addresses that `new` and `bufferevent_socket_new` return
are parameters; any free address will do.  An operation that would read a
deleted object has no result.

For the history each bufferevent carries all the bytes received on it.  In
every run with distinct sequence ids the pool, the heap and the bufferevents
stay consistent.  The read callback then closes the connection or leaves it
waiting for input that can be unpacked, with one exception: a connection whose
stream stops at a size field below the header size stays open forever.
-/

namespace GameServer
namespace Network

open Lib

/-- `LibeventClientCtx`, with the address of its bufferevent. -/
structure LibeventClientCtx where
  contextBuffer : ClientContextBuffer
  bufferEvent : Nat

namespace LibeventClientCtx

/-- `GetClientFd`. -/
def iClientFd (client : LibeventClientCtx) : Int :=
  client.contextBuffer.iClientFd

/-- `GetClientSeq`. -/
def ulClientSeq (client : LibeventClientCtx) : UInt64 :=
  client.contextBuffer.ulClientSeq

end LibeventClientCtx

/-- A bufferevent: its descriptor, the input not yet read from it, whether its
callbacks are set, and all the bytes received. -/
structure Bufferevent where
  fd : Int
  input : List Byte
  enabled : Bool
  received : List Byte

/-- A `ServerContext` and the heap its connections live on. -/
structure LibeventState where
  ctx : NetworkContext
  clientPool : ClientContextPool Nat
  clients : Nat → Option LibeventClientCtx
  events : Nat → Option Bufferevent

/-- What an accepted connection brings along: its descriptor, the results of
`bufferevent_socket_new`, `_SetSocketOpt` and `new`, and its sequence id. -/
structure Accepted where
  iClientFd : Int
  pstEvtObj : Option Nat
  iOptResult : Int
  pstClientCtx : Nat
  ulClientSeq : UInt64

/-- `BEV_EVENT_EOF`. -/
def bevEventEof : UInt16 := 0x10

/-- `BEV_EVENT_ERROR`. -/
def bevEventError : UInt16 := 0x20

/-- `BEV_EVENT_TIMEOUT`. -/
def bevEventTimeout : UInt16 := 0x40

namespace LibeventState

/-- A server without connections. -/
def fresh : LibeventState :=
  ⟨.construct, .empty, fun _ => none, fun _ => none⟩

/-- `GetClientFd` through a pointer. -/
def getClientFd (s : LibeventState) (pstClient : Nat) : Option Int :=
  (s.clients pstClient).map LibeventClientCtx.iClientFd

/-- `CloseClient`: the client is removed from the pool under its sequence id
and deleted together with its bufferevent. -/
def closeClient (s : LibeventState) (pstClientCtx : Nat) :
    Option LibeventState :=
  (s.clients pstClientCtx).bind fun client =>
    (s.clientPool.removeClient s.getClientFd client.ulClientSeq).map
      fun clientPool =>
        { s with
          clientPool := clientPool
          clients := Function.update s.clients pstClientCtx none
          events := Function.update s.events client.bufferEvent none }

/-- The part of `OnListenerAcceptConnect` after a left-over client of the same
descriptor has been closed. -/
def acceptConnect (s : LibeventState) (accepted : Accepted) :
    Option LibeventState :=
  match accepted.pstEvtObj with
  | none => some s
  | some pstEvtObj =>
    if (s.events pstEvtObj).isSome then
      none
    else if accepted.iOptResult ≠ 0 then
      -- the bufferevent is left behind without callbacks
      some { s with
        events := Function.update s.events pstEvtObj
          (some ⟨accepted.iClientFd, [], false, []⟩) }
    else if (s.clients accepted.pstClientCtx).isSome then
      none
    else
      some { s with
        clientPool := s.clientPool.addClient accepted.ulClientSeq
          accepted.pstClientCtx accepted.iClientFd
        clients := Function.update s.clients accepted.pstClientCtx
          (some ⟨.construct accepted.ulClientSeq accepted.iClientFd,
            pstEvtObj⟩)
        events := Function.update s.events pstEvtObj
          (some ⟨accepted.iClientFd, [], true, []⟩) }

/-- `OnListenerAcceptConnect`. -/
def onListenerAcceptConnect (s : LibeventState) (accepted : Accepted) :
    Option LibeventState :=
  match s.clientPool.getClientByFd accepted.iClientFd with
  | none => s.acceptConnect accepted
  | some pstLastClientCtx =>
    (s.closeClient pstLastClientCtx).bind fun s => s.acceptConnect accepted

/-- `OnBufferEventRead`. -/
def onBufferEventRead (api : BuffereventRead) (s : LibeventState)
    (pstEvtobj : Nat) (clock : Nat → Nat → UInt64) : Option LibeventState :=
  (s.events pstEvtobj).bind fun evt =>
    match s.clientPool.getClientByFd evt.fd with
    | none => some s
    | some pstClientCtx =>
      (s.clients pstClientCtx).bind fun client =>
        (readLoop api clock s.ctx client.contextBuffer evt.input).bind
          fun loop =>
            let s : LibeventState :=
              { s with
                ctx := loop.ctx
                clients := Function.update s.clients pstClientCtx
                  (some { client with contextBuffer := loop.client })
                events := Function.update s.events pstEvtobj
                  (some { evt with input := loop.input }) }
            if loop.iRet ≠ 0 then s.closeClient pstClientCtx else some s

/-- `OnBufferEventTrigger`. -/
def onBufferEventTrigger (s : LibeventState) (pstEvtobj : Nat)
    (wEvent : UInt16) : Option LibeventState :=
  (s.events pstEvtobj).bind fun evt =>
    match s.clientPool.getClientByFd evt.fd with
    | none => some s
    | some pstClientCtx =>
      let bEventFree := wEvent &&& bevEventTimeout ≠ 0 ∨
        wEvent &&& bevEventEof ≠ 0 ∨ wEvent &&& bevEventError ≠ 0
      if bEventFree then s.closeClient pstClientCtx else some s

end LibeventState

/-- What can happen to the server. -/
inductive LibeventAction where
  /-- A connection is accepted. -/
  | accept (accepted : Accepted)
  /-- Bytes arrive on a bufferevent. -/
  | receive (pstEvtobj : Nat) (bytes : List Byte)
  /-- The read callback of a bufferevent runs. -/
  | read (pstEvtobj : Nat) (clock : Nat → Nat → UInt64)
  /-- The event callback of a bufferevent runs. -/
  | trigger (pstEvtobj : Nat) (wEvent : UInt16)
  /-- The logic thread takes over the received packets. -/
  | copy

namespace LibeventState

variable (api : BuffereventRead)

/-- One action.  `none` means that it is not enabled, or that a deleted object
is used. -/
def step (s : LibeventState) : LibeventAction → Option LibeventState
  | .accept accepted => s.onListenerAcceptConnect accepted
  | .receive pstEvtobj bytes =>
    (s.events pstEvtobj).bind fun evt =>
      if evt.enabled then
        some { s with
          events := Function.update s.events pstEvtobj
            (some { evt with
              input := evt.input ++ bytes
              received := evt.received ++ bytes }) }
      else
        none
  | .read pstEvtobj clock =>
    (s.events pstEvtobj).bind fun evt =>
      if evt.enabled then s.onBufferEventRead api pstEvtobj clock else none
  | .trigger pstEvtobj wEvent =>
    (s.events pstEvtobj).bind fun evt =>
      if evt.enabled then s.onBufferEventTrigger pstEvtobj wEvent else none
  | .copy => some { s with ctx := s.ctx.copyPacketsFromNetToLogic.1 }

/-- The sequence ids of the connections in the pool are distinct. -/
def DistinctSeq (s : LibeventState) : LibeventAction → Prop
  | .accept accepted =>
    s.clientPool.getClient accepted.ulClientSeq = none
  | _ => True

/-! ## Consistency of pool, heap and bufferevents -/

/-- A client and its bufferevent. -/
structure Serves (evt : Bufferevent) (client : LibeventClientCtx) : Prop where
  enabled : evt.enabled = true
  fd : evt.fd = client.iClientFd
  inBounds : client.contextBuffer.InBounds
  verdict : SameVerdict evt.received (client.contextBuffer.content ++ evt.input)

/-- What holds between any two callbacks. -/
structure Inv (s : LibeventState) : Prop where
  recv : s.ctx.netPacketRecvQueue.NoneHidden
  byFd : ∀ {fd p}, s.clientPool.clientFdPool fd = some p →
    ∃ client, s.clients p = some client ∧ client.iClientFd = fd
  bySeq : ∀ {seq p}, s.clientPool.clientSeqPool seq = some p →
    ∃ client, s.clients p = some client ∧ client.ulClientSeq = seq
  registered : ∀ {p client}, s.clients p = some client →
    s.clientPool.clientFdPool client.iClientFd = some p ∧
      s.clientPool.clientSeqPool client.ulClientSeq = some p
  serves : ∀ {p client}, s.clients p = some client →
    ∃ evt, s.events client.bufferEvent = some evt ∧ Serves evt client
  owner : ∀ {ev evt}, s.events ev = some evt → evt.enabled = true →
    ∃ p client, s.clients p = some client ∧ client.bufferEvent = ev

theorem inv_fresh : Inv fresh where
  recv := NetPacketQueue.counted_init.noneHidden
  byFd := fun h => by cases h
  bySeq := fun h => by cases h
  registered := fun h => by cases h
  serves := fun h => by cases h
  owner := fun h => by cases h

section Inv

variable {s : LibeventState} {p q ev : Nat} {client other : LibeventClientCtx}
  {evt : Bufferevent}

theorem Inv.eq_of_fd (h : s.Inv) (hp : s.clients p = some client) (hq : s.clients q = some other)
    (hfd : client.iClientFd = other.iClientFd) : p = q := by
  have hleft := (h.registered hp).1
  rw [hfd, (h.registered hq).1] at hleft
  exact (Option.some.inj hleft).symm

theorem Inv.eq_of_seq (h : s.Inv) (hp : s.clients p = some client) (hq : s.clients q = some other)
    (hseq : client.ulClientSeq = other.ulClientSeq) : p = q := by
  have hleft := (h.registered hp).2
  rw [hseq, (h.registered hq).2] at hleft
  exact (Option.some.inj hleft).symm

theorem Inv.eq_of_bufferEvent (h : s.Inv) (hp : s.clients p = some client)
    (hq : s.clients q = some other)
    (hev : client.bufferEvent = other.bufferEvent) : p = q := by
  obtain ⟨evt, hevt, hserves⟩ := h.serves hp
  obtain ⟨evt', hevt', hserves'⟩ := h.serves hq
  rw [hev, hevt'] at hevt
  cases hevt
  exact h.eq_of_fd hp hq (hserves.fd.symm.trans hserves'.fd)

/-- The client of a bufferevent with callbacks is found by its descriptor. -/
theorem Inv.exists_client (h : s.Inv) (hevt : s.events ev = some evt)
    (henabled : evt.enabled = true) :
    ∃ p client, s.clientPool.getClientByFd evt.fd = some p ∧
      s.clients p = some client ∧ client.bufferEvent = ev ∧
      Serves evt client := by
  obtain ⟨p, client, hp, rfl⟩ := h.owner hevt henabled
  obtain ⟨evt', hevt', hserves⟩ := h.serves hp
  rw [hevt] at hevt'
  cases hevt'
  refine ⟨p, client, ?_, hp, rfl, hserves⟩
  rw [hserves.fd]
  exact (h.registered hp).1

/-- The server without a client and its bufferevent. -/
def without (s : LibeventState) (p : Nat) (client : LibeventClientCtx) :
    LibeventState :=
  { s with
    clientPool :=
      ⟨Function.update s.clientPool.clientSeqPool client.ulClientSeq none,
        Function.update s.clientPool.clientFdPool client.iClientFd none⟩
    clients := Function.update s.clients p none
    events := Function.update s.events client.bufferEvent none }

/-- A client that is registered under its sequence id is removed from the pool
and deleted. -/
theorem closeClient_eq (hp : s.clients p = some client)
    (hseq : s.clientPool.clientSeqPool client.ulClientSeq = some p) :
    s.closeClient p = some (s.without p client) := by
  have hfd : s.getClientFd p = some client.iClientFd := by
    rw [getClientFd, hp, Option.map_some]
  rw [closeClient, hp, Option.bind_some, ClientContextPool.removeClient, hseq]
  dsimp only
  rw [hfd]
  rfl

theorem inv_without (h : s.Inv) (hp : s.clients p = some client) : (s.without p client).Inv where
  recv := h.recv
  byFd := by
    intro fd q hq
    obtain ⟨hne, hq⟩ := update_none_eq_some_iff.mp hq
    obtain ⟨other, hother, hfd⟩ := h.byFd hq
    refine ⟨other, update_none_eq_some_iff.mpr ⟨?_, hother⟩, hfd⟩
    rintro rfl
    rw [hp] at hother
    cases hother
    exact hne hfd.symm
  bySeq := by
    intro seq q hq
    obtain ⟨hne, hq⟩ := update_none_eq_some_iff.mp hq
    obtain ⟨other, hother, hseq⟩ := h.bySeq hq
    refine ⟨other, update_none_eq_some_iff.mpr ⟨?_, hother⟩, hseq⟩
    rintro rfl
    rw [hp] at hother
    cases hother
    exact hne hseq.symm
  registered := by
    intro q other hother
    obtain ⟨hne, hother⟩ := update_none_eq_some_iff.mp hother
    obtain ⟨hfd, hseq⟩ := h.registered hother
    refine ⟨update_none_eq_some_iff.mpr ⟨?_, hfd⟩, update_none_eq_some_iff.mpr ⟨?_, hseq⟩⟩
    · exact fun heq => hne (h.eq_of_fd hother hp heq)
    · exact fun heq => hne (h.eq_of_seq hother hp heq)
  serves := by
    intro q other hother
    obtain ⟨hne, hother⟩ := update_none_eq_some_iff.mp hother
    obtain ⟨evt, hevt, hserves⟩ := h.serves hother
    refine ⟨evt, update_none_eq_some_iff.mpr ⟨?_, hevt⟩, hserves⟩
    exact fun heq => hne (h.eq_of_bufferEvent hother hp heq)
  owner := by
    intro ev evt hevt henabled
    obtain ⟨hne, hevt⟩ := update_none_eq_some_iff.mp hevt
    obtain ⟨q, other, hother, hev⟩ := h.owner hevt henabled
    refine ⟨q, other, update_none_eq_some_iff.mpr ⟨?_, hother⟩, hev⟩
    rintro rfl
    rw [hp] at hother
    cases hother
    exact hne hev.symm

theorem inv_closeClient (h : s.Inv) {s' : LibeventState}
    (hclose : s.closeClient p = some s') : s'.Inv := by
  obtain ⟨client, hp, -⟩ := Option.bind_eq_some_iff.mp hclose
  rw [closeClient_eq hp (h.registered hp).2] at hclose
  cases hclose
  exact inv_without h hp

/-- The server with another state of a client and its bufferevent. -/
def withClient (s : LibeventState) (ctx : NetworkContext) (p : Nat)
    (client : LibeventClientCtx) (evt : Bufferevent) : LibeventState :=
  { s with
    ctx := ctx
    clients := Function.update s.clients p (some client)
    events := Function.update s.events client.bufferEvent (some evt) }

theorem clients_withClient (s : LibeventState) (ctx : NetworkContext) (p : Nat)
    (client : LibeventClientCtx) (evt : Bufferevent) :
    (s.withClient ctx p client evt).clients p = some client :=
  Function.update_self _ _ _

theorem events_withClient (s : LibeventState) (ctx : NetworkContext) (p : Nat)
    (client : LibeventClientCtx) (evt : Bufferevent) :
    (s.withClient ctx p client evt).events client.bufferEvent = some evt :=
  Function.update_self _ _ _

/-- Two states of the same client. -/
structure SameClient (client other : LibeventClientCtx) : Prop where
  fd : client.iClientFd = other.iClientFd
  seq : client.ulClientSeq = other.ulClientSeq
  bufferEvent : client.bufferEvent = other.bufferEvent

theorem inv_withClient (h : s.Inv) (hp : s.clients p = some client)
    (hsame : SameClient other client) (hserves : Serves evt other)
    {ctx : NetworkContext} (hrecv : ctx.netPacketRecvQueue.NoneHidden) :
    (s.withClient ctx p other evt).Inv := by
  -- the clients are the same ones as before
  have hkeeps : ∀ {q c}, s.clients q = some c →
      ∃ c', Function.update s.clients p (some other) q = some c' ∧ SameClient c' c := by
    intro q c hq
    by_cases hqp : q = p
    · subst hqp
      rw [hp] at hq
      cases hq
      exact ⟨other, Function.update_self _ _ _, hsame⟩
    · exact ⟨c, (Function.update_of_ne hqp _ _).trans hq, rfl, rfl, rfl⟩
  have hcomes : ∀ {q c'}, Function.update s.clients p (some other) q = some c' →
      ∃ c, s.clients q = some c ∧ SameClient c' c := by
    intro q c' hq
    rcases update_some_eq_some_iff.mp hq with ⟨rfl, rfl⟩ | ⟨-, hq⟩
    · exact ⟨client, hp, hsame⟩
    · exact ⟨c', hq, rfl, rfl, rfl⟩
  refine ⟨hrecv, ?_, ?_, ?_, ?_, ?_⟩
  · intro fd q hq
    obtain ⟨c, hc, hfd⟩ := h.byFd hq
    obtain ⟨c', hc', hsame'⟩ := hkeeps hc
    exact ⟨c', hc', hsame'.fd.trans hfd⟩
  · intro seq q hq
    obtain ⟨c, hc, hseq⟩ := h.bySeq hq
    obtain ⟨c', hc', hsame'⟩ := hkeeps hc
    exact ⟨c', hc', hsame'.seq.trans hseq⟩
  · intro q c' hq
    obtain ⟨c, hc, hsame'⟩ := hcomes hq
    rw [hsame'.fd, hsame'.seq]
    exact h.registered hc
  · intro q c' hq
    rcases update_some_eq_some_iff.mp hq with ⟨rfl, rfl⟩ | ⟨hne, hq⟩
    · exact ⟨evt, Function.update_self _ _ _, hserves⟩
    · obtain ⟨evt', hevt', hserves'⟩ := h.serves hq
      refine ⟨evt', (Function.update_of_ne ?_ _ _).trans hevt', hserves'⟩
      rw [hsame.bufferEvent]
      exact fun heq => hne (h.eq_of_bufferEvent hq hp heq)
  · intro ev evt' hevt' henabled
    rcases update_some_eq_some_iff.mp hevt' with ⟨rfl, rfl⟩ | ⟨-, hevt'⟩
    · exact ⟨p, other, Function.update_self _ _ _, rfl⟩
    · obtain ⟨q, c, hc, hev⟩ := h.owner hevt' henabled
      obtain ⟨c', hc', hsame'⟩ := hkeeps hc
      exact ⟨q, c', hc', hsame'.bufferEvent.trans hev⟩

/-- The server with a new client on a new bufferevent. -/
def withNewClient (s : LibeventState) (accepted : Accepted)
    (pstEvtObj : Nat) : LibeventState :=
  { s with
    clientPool := s.clientPool.addClient accepted.ulClientSeq
      accepted.pstClientCtx accepted.iClientFd
    clients := Function.update s.clients accepted.pstClientCtx
      (some ⟨.construct accepted.ulClientSeq accepted.iClientFd, pstEvtObj⟩)
    events := Function.update s.events pstEvtObj
      (some ⟨accepted.iClientFd, [], true, []⟩) }

/-- Nobody owns a bufferevent that does not exist. -/
theorem Inv.bufferEvent_ne (h : s.Inv) (hp : s.clients p = some client)
    (hev : s.events ev = none) : client.bufferEvent ≠ ev := by
  rintro rfl
  obtain ⟨evt, hevt, -⟩ := h.serves hp
  rw [hev] at hevt
  cases hevt

theorem inv_withNewClient (h : s.Inv) {accepted : Accepted}
    (hfd : s.clientPool.clientFdPool accepted.iClientFd = none)
    (hseq : s.clientPool.clientSeqPool accepted.ulClientSeq = none)
    (hclient : s.clients accepted.pstClientCtx = none)
    (hev : s.events ev = none) : (s.withNewClient accepted ev).Inv := by
  have hpool : (s.clientPool.addClient accepted.ulClientSeq
      accepted.pstClientCtx accepted.iClientFd) =
        ⟨Function.update s.clientPool.clientSeqPool accepted.ulClientSeq
            (some accepted.pstClientCtx),
          Function.update s.clientPool.clientFdPool accepted.iClientFd
            (some accepted.pstClientCtx)⟩ := by
    rw [ClientContextPool.addClient, mapInsert_of_none hfd, mapInsert_of_none hseq]
  have hold : ∀ {q c}, s.clients q = some c → q ≠ accepted.pstClientCtx := by
    rintro q c hq rfl
    rw [hclient] at hq
    cases hq
  unfold withNewClient
  rw [hpool]
  refine ⟨h.recv, ?_, ?_, ?_, ?_, ?_⟩
  · intro fd q hq
    rcases update_some_eq_some_iff.mp hq with ⟨rfl, rfl⟩ | ⟨-, hq⟩
    · exact ⟨_, Function.update_self _ _ _, rfl⟩
    · obtain ⟨c, hc, hcfd⟩ := h.byFd hq
      exact ⟨c, (Function.update_of_ne (hold hc) _ _).trans hc, hcfd⟩
  · intro seq q hq
    rcases update_some_eq_some_iff.mp hq with ⟨rfl, rfl⟩ | ⟨-, hq⟩
    · exact ⟨_, Function.update_self _ _ _, rfl⟩
    · obtain ⟨c, hc, hcseq⟩ := h.bySeq hq
      exact ⟨c, (Function.update_of_ne (hold hc) _ _).trans hc, hcseq⟩
  · intro q c hq
    rcases update_some_eq_some_iff.mp hq with ⟨rfl, rfl⟩ | ⟨-, hq⟩
    · exact ⟨Function.update_self _ _ _, Function.update_self _ _ _⟩
    · obtain ⟨hcfd, hcseq⟩ := h.registered hq
      refine ⟨update_some_eq_some_iff.mpr (Or.inr ⟨?_, hcfd⟩),
        update_some_eq_some_iff.mpr (Or.inr ⟨?_, hcseq⟩)⟩
      · intro heq
        rw [heq, hfd] at hcfd
        cases hcfd
      · intro heq
        rw [heq, hseq] at hcseq
        cases hcseq
  · intro q c hq
    rcases update_some_eq_some_iff.mp hq with ⟨rfl, rfl⟩ | ⟨-, hq⟩
    · exact ⟨_, Function.update_self _ _ _, rfl, rfl,
        ClientContextBuffer.inBounds_construct _ _, rfl, fun _ => rfl⟩
    · obtain ⟨evt, hevt, hserves⟩ := h.serves hq
      exact ⟨evt, (Function.update_of_ne (h.bufferEvent_ne hq hev) _ _).trans hevt, hserves⟩
  · intro ev' evt hevt henabled
    rcases update_some_eq_some_iff.mp hevt with ⟨rfl, rfl⟩ | ⟨-, hevt⟩
    · exact ⟨_, _, Function.update_self _ _ _, rfl⟩
    · obtain ⟨q, c, hc, hcev⟩ := h.owner hevt henabled
      exact ⟨q, c, (Function.update_of_ne (hold hc) _ _).trans hc, hcev⟩

/-- A bufferevent that is left behind without callbacks belongs to nobody. -/
theorem inv_leak (h : s.Inv) (hev : s.events ev = none) (hdisabled : evt.enabled = false) :
    Inv { s with events := Function.update s.events ev (some evt) } := by
  refine ⟨h.recv, h.byFd, h.bySeq, h.registered, ?_, ?_⟩
  · intro q c hq
    obtain ⟨evt', hevt', hserves⟩ := h.serves hq
    exact ⟨evt', (Function.update_of_ne (h.bufferEvent_ne hq hev) _ _).trans hevt', hserves⟩
  · intro ev' evt' hevt' henabled
    rcases update_some_eq_some_iff.mp hevt' with ⟨-, rfl⟩ | ⟨-, hevt'⟩
    · rw [hdisabled] at henabled
      cases henabled
    · exact h.owner hevt' henabled

/-- Accepting a connection whose descriptor and sequence id are not in the
pool. -/
theorem inv_acceptConnect (h : s.Inv) {accepted : Accepted} {s' : LibeventState}
    (hfd : s.clientPool.clientFdPool accepted.iClientFd = none)
    (hseq : s.clientPool.clientSeqPool accepted.ulClientSeq = none)
    (haccept : s.acceptConnect accepted = some s') : s'.Inv := by
  simp only [acceptConnect] at haccept
  split at haccept
  · cases haccept
    exact h
  · rename_i pstEvtObj hobj
    split at haccept
    · cases haccept
    · rename_i hevent
      have hev := Option.not_isSome_iff_eq_none.mp hevent
      split at haccept
      · cases haccept
        exact inv_leak h hev rfl
      · split at haccept
        · cases haccept
        · rename_i hnew
          cases haccept
          exact inv_withNewClient h hfd hseq (Option.not_isSome_iff_eq_none.mp hnew) hev

/-- `OnListenerAcceptConnect`: a client left over under the same descriptor is
closed first. -/
theorem inv_onListenerAcceptConnect (h : s.Inv) {accepted : Accepted}
    {s' : LibeventState}
    (hseq : s.clientPool.clientSeqPool accepted.ulClientSeq = none)
    (haccept : s.onListenerAcceptConnect accepted = some s') : s'.Inv := by
  simp only [onListenerAcceptConnect] at haccept
  split at haccept
  · rename_i hfd
    exact inv_acceptConnect h hfd hseq haccept
  · rename_i pstLast hlast
    obtain ⟨client, hp, hfd⟩ := h.byFd hlast
    rw [closeClient_eq hp (h.registered hp).2, Option.bind_some] at haccept
    refine inv_acceptConnect (inv_without h hp) ?_ ?_ haccept
    · rw [← hfd]
      exact Function.update_self _ _ _
    · show Function.update s.clientPool.clientSeqPool client.ulClientSeq none
        accepted.ulClientSeq = none
      rw [Function.update_apply, hseq, ite_self]

/-- **One run of the read callback.**  It finds the client of its bufferevent,
parses everything received, and closes the client or keeps what is left
over. -/
theorem onBufferEventRead_eq (api : BuffereventRead) (h : s.Inv)
    (hevt : s.events ev = some evt) (henabled : evt.enabled = true)
    (clock : Nat → Nat → UInt64) :
    ∃ (p : Nat) (client : LibeventClientCtx) (loop : ReadLoopResult),
      s.clientPool.getClientByFd evt.fd = some p ∧
      s.clients p = some client ∧ client.bufferEvent = ev ∧
      Serves evt client ∧
      loop.Parses s.ctx client.contextBuffer evt.input ∧
      s.onBufferEventRead api ev clock = some (if loop.iRet ≠ 0 then
          LibeventState.without { s with ctx := loop.ctx } p client
        else
          s.withClient loop.ctx p { client with contextBuffer := loop.client }
            { evt with input := loop.input }) := by
  obtain ⟨p, client, hfd, hp, rfl, hserves⟩ := h.exists_client hevt henabled
  obtain ⟨loop, hloop, hparses⟩ :=
    readLoop_parses api clock evt.input h.recv hserves.inBounds
  refine ⟨p, client, loop, hfd, hp, rfl, hserves, hparses, ?_⟩
  rw [onBufferEventRead, hevt, Option.bind_some, hfd]
  dsimp only
  rw [hp, Option.bind_some, hloop, Option.bind_some]
  split_ifs with herror
  · -- deleting the client and its bufferevent forgets what was written to them
    obtain ⟨hseq, hfd'⟩ := hparses.ownedBy
    rw [closeClient_eq (Function.update_self _ _ _)]
    · simp only [without, Function.update_idem, LibeventClientCtx.ulClientSeq,
        LibeventClientCtx.iClientFd, hseq, hfd']
    · show s.clientPool.clientSeqPool loop.client.ulClientSeq = some p
      rw [hseq]
      exact (h.registered hp).2
  · rfl

/-- Only the receive queue matters of the context. -/
theorem inv_withCtx (h : s.Inv) {ctx : NetworkContext}
    (hrecv : ctx.netPacketRecvQueue.NoneHidden) : Inv { s with ctx := ctx } :=
  ⟨hrecv, h.byFd, h.bySeq, h.registered, h.serves, h.owner⟩

theorem inv_step (s : LibeventState) (a : LibeventAction) (s' : LibeventState)
    (h : s.Inv) (hcond : s.DistinctSeq a) (hstep : s.step api a = some s') :
    s'.Inv := by
  cases a with
  | accept accepted => exact inv_onListenerAcceptConnect h hcond hstep
  | receive ev bytes =>
    obtain ⟨evt, hevt, hstep⟩ := Option.bind_eq_some_iff.mp hstep
    split at hstep
    · rename_i henabled
      cases hstep
      obtain ⟨p, client, -, hp, rfl, hserves⟩ := h.exists_client hevt henabled
      have hsame : Function.update s.clients p (some client) = s.clients := by
        rw [← hp]
        exact Function.update_eq_self p s.clients
      have hverdict := hserves.verdict.append bytes
      rw [List.append_assoc] at hverdict
      have hserves' : Serves
          { evt with
            input := evt.input ++ bytes
            received := evt.received ++ bytes } client :=
        ⟨henabled, hserves.fd, hserves.inBounds, hverdict⟩
      have hinv := inv_withClient h hp ⟨rfl, rfl, rfl⟩ hserves' h.recv
      simp only [withClient, hsame] at hinv
      exact hinv
    · cases hstep
  | read ev clock =>
    obtain ⟨evt, hevt, hstep⟩ := Option.bind_eq_some_iff.mp hstep
    split at hstep
    · rename_i henabled
      obtain ⟨p, client, loop, -, hp, rfl, hserves, hparses, hread⟩ :=
        onBufferEventRead_eq api h hevt henabled clock
      rw [hread] at hstep
      cases hstep
      split_ifs with herror
      · exact inv_without (inv_withCtx h hparses.recv) hp
      · obtain ⟨hseq, hfd⟩ := hparses.ownedBy
        have hzero : loop.iRet = 0 := not_not.mp herror
        have hnone : (referenceParse (client.contextBuffer.content ++ evt.input)).error = none := by
          by_contra hsome
          obtain ⟨e, he⟩ := Option.ne_none_iff_exists'.mp hsome
          have hret := hparses.iRet
          rw [hzero, he] at hret
          exact referenceParse_error_ne_zero he hret.symm
        have hverdict := hserves.verdict.rest hnone
        rw [← (hparses.rest hzero).1] at hverdict
        have hsame : SameClient { client with contextBuffer := loop.client }
            client := ⟨hfd, hseq, rfl⟩
        have hserves' : Serves { evt with input := loop.input }
            { client with contextBuffer := loop.client } :=
          ⟨henabled, hserves.fd.trans hfd.symm, hparses.inBounds, hverdict⟩
        exact inv_withClient h hp hsame hserves' hparses.recv
    · cases hstep
  | trigger ev wEvent =>
    obtain ⟨evt, hevt, hstep⟩ := Option.bind_eq_some_iff.mp hstep
    split at hstep
    · obtain ⟨evt', -, hstep⟩ := Option.bind_eq_some_iff.mp hstep
      dsimp only at hstep
      split at hstep
      · cases hstep
        exact h
      · split at hstep
        · exact inv_closeClient h hstep
        · cases hstep
          exact h
    · cases hstep
  | copy =>
    cases hstep
    refine inv_withCtx h ?_
    show (NetPacketQueue.copyFrom _ _).2.NoneHidden
    rw [NetPacketQueue.copyFrom_snd]
    exact NetPacketQueue.counted_init.noneHidden

end Inv

/-! ## When a connection is wedged -/

/-- The client is deleted, with its bufferevent, and gone from the pool. -/
def Closed (s : LibeventState) (p : Nat) (client : LibeventClientCtx) : Prop :=
  s.clients p = none ∧ s.events client.bufferEvent = none ∧
    s.clientPool.getClient client.ulClientSeq = none ∧
    s.clientPool.getClientByFd client.iClientFd = none

/-- The input of the client's bufferevent is drained, and its buffer holds the
beginning of a frame that further input can complete. -/
def Waits (s : LibeventState) (p : Nat) : Prop :=
  ∃ client evt, s.clients p = some client ∧
    s.events client.bufferEvent = some evt ∧ evt.input = [] ∧
    client.contextBuffer.Completable

/-- The read callback closes its client or leaves it waiting, unless the stream
received is wedged. -/
theorem closed_or_waits_iff {s : LibeventState} {ev : Nat} {evt : Bufferevent}
    (h : s.Inv) (hevt : s.events ev = some evt) (henabled : evt.enabled = true)
    (clock : Nat → Nat → UInt64) :
    ∃ (p : Nat) (client : LibeventClientCtx) (s' : LibeventState),
      s.clientPool.getClientByFd evt.fd = some p ∧
      s.clients p = some client ∧ client.bufferEvent = ev ∧
      s.step api (.read ev clock) = some s' ∧
      (s'.Closed p client ∨ s'.Waits p ↔ ¬ WedgedStream evt.received) := by
  obtain ⟨p, client, loop, hfd, hp, rfl, hserves, hparses, hread⟩ :=
    onBufferEventRead_eq api h hevt henabled clock
  have hstep : s.step api (.read client.bufferEvent clock) =
      s.onBufferEventRead api client.bufferEvent clock := by
    simp only [step, hevt, Option.bind_some, henabled, if_true]
  refine ⟨p, client, _, hfd, hp, rfl, hstep.trans hread, ?_⟩
  obtain ⟨herror, hrest⟩ := hserves.verdict
  have hret := hparses.iRet
  cases hverdict : (referenceParse evt.received).error with
  | some e =>
    -- the client is closed
    rw [hverdict] at herror
    rw [← herror, Option.getD_some] at hret
    have hne : loop.iRet ≠ 0 := by
      rw [hret]
      exact referenceParse_error_ne_zero hverdict
    rw [if_pos hne]
    constructor
    · rintro - ⟨hnone, -⟩
      rw [hverdict] at hnone
      cases hnone
    · intro _
      exact Or.inl ⟨Function.update_self _ _ _, Function.update_self _ _ _,
        Function.update_self _ _ _, Function.update_self _ _ _⟩
  | none =>
    -- the client stays
    rw [hverdict] at herror
    rw [← herror, Option.getD_none] at hret
    have hwaits := hparses.waits_iff hret
    rw [← hrest hverdict] at hwaits
    rw [if_neg (not_not.mpr hret), WedgedStream, hverdict]
    simp only [true_and]
    rw [← hwaits]
    constructor
    · rintro (⟨hdeleted, -⟩ | ⟨client', evt', hclient', hevt', hinput, hcomp⟩)
      · rw [clients_withClient] at hdeleted
        cases hdeleted
      · rw [clients_withClient] at hclient'
        cases hclient'
        rw [events_withClient] at hevt'
        cases hevt'
        exact ⟨hinput, hcomp⟩
    · rintro ⟨hinput, hcomp⟩
      exact Or.inr ⟨_, _, clients_withClient _ _ _ _ _, events_withClient _ _ _ _ _, hinput, hcomp⟩

/-- A wedged connection stays so: whatever is received afterwards, the read
callback neither closes the client nor leaves it waiting. -/
theorem wedged_after_receive {s : LibeventState} {ev : Nat} {evt : Bufferevent}
    (h : s.Inv) (hevt : s.events ev = some evt) (henabled : evt.enabled = true)
    (hwedged : WedgedStream evt.received) (bytes : List Byte)
    (clock : Nat → Nat → UInt64) :
    ∃ (p : Nat) (client : LibeventClientCtx) (s₁ s₂ : LibeventState),
      s.step api (.receive ev bytes) = some s₁ ∧ s₁.clients p = some client ∧
      client.bufferEvent = ev ∧ s₁.step api (.read ev clock) = some s₂ ∧
      ¬ (s₂.Closed p client ∨ s₂.Waits p) := by
  obtain ⟨s₁, hreceive, hevt₁⟩ : ∃ s₁, s.step api (.receive ev bytes) = some s₁ ∧
        s₁.events ev = some { evt with
          input := evt.input ++ bytes
          received := evt.received ++ bytes } := by
    refine ⟨{ s with
      events := Function.update s.events ev (some { evt with
          input := evt.input ++ bytes
          received := evt.received ++ bytes }) }, ?_,
      Function.update_self _ _ _⟩
    simp only [step, hevt, Option.bind_some, henabled, if_true]
  have hinv := inv_step api s (.receive ev bytes) s₁ h trivial hreceive
  obtain ⟨p, client, s₂, -, hclient, hev, hread, hiff⟩ :=
    closed_or_waits_iff api hinv hevt₁ henabled clock
  refine ⟨p, client, s₁, s₂, hreceive, hclient, hev, hread, fun hgood => ?_⟩
  exact hiff.mp hgood (hwedged.append bytes)

/-- **When a peer wedges its connection.**  In every run with distinct sequence
ids the read callback of a connection returns.  Its client is then closed, or
the input is drained and the buffer holds the beginning of a frame that can be
completed, exactly when the bytes received so far do not parse up to a wedged
prefix: a lone first byte with the sign bit set, or a size field below the
header size. -/
theorem read_closed_or_waits_iff (actions : List LibeventAction)
    (s : LibeventState) (hmeets : RunMeets (step api) DistinctSeq fresh actions)
    (hrun : runSteps (step api) fresh actions = some s) (ev : Nat)
    (evt : Bufferevent) (hevt : s.events ev = some evt)
    (henabled : evt.enabled = true) (clock : Nat → Nat → UInt64) :
    ∃ (p : Nat) (client : LibeventClientCtx) (s' : LibeventState),
      s.clientPool.getClientByFd evt.fd = some p ∧
      s.clients p = some client ∧ client.bufferEvent = ev ∧
      s.step api (.read ev clock) = some s' ∧
      (s'.Closed p client ∨ s'.Waits p ↔ ¬ WedgedStream evt.received) := by
  have hinv : s.Inv := runSteps_invariant_of_meets
    (fun s a s' h hcond hstep => inv_step api s a s' h hcond hstep) inv_fresh
    hmeets hrun
  exact closed_or_waits_iff api hinv hevt henabled clock

/-- A connection that has received the first byte of a frame waits for more. -/
theorem read_closed_or_waits_iff_first_byte :
    ∃ s s', runSteps (step .ofList) fresh
        [.accept ⟨7, some 0, 0, 0, 1⟩, .receive 0 [0]] = some s ∧
      s.step .ofList (.read 0 fun _ _ => 3) = some s' ∧
      ∃ client, s'.Closed 0 client ∨ s'.Waits 0 := by
  obtain ⟨s, hrun⟩ : ∃ s, runSteps (step .ofList) fresh
      [.accept ⟨7, some 0, 0, 0, 1⟩, .receive 0 [0]] = some s := ⟨_, rfl⟩
  have hmeets : RunMeets (step .ofList) DistinctSeq fresh
      [.accept ⟨7, some 0, 0, 0, 1⟩, .receive 0 [0]] :=
    ⟨rfl, fun _ _ => ⟨trivial, fun _ _ => trivial⟩⟩
  have hevt : s.events 0 = some ⟨7, [0], true, [0]⟩ := by cases hrun; rfl
  obtain ⟨p, client, s', hfd, -, -, hread, hiff⟩ :=
    read_closed_or_waits_iff .ofList _ s hmeets hrun 0 _ hevt rfl fun _ _ => 3
  have hp : s.clientPool.getClientByFd 7 = some 0 := by cases hrun; rfl
  obtain rfl : p = 0 := Option.some.inj (hfd.symm.trans hp)
  refine ⟨s, s', hrun, hread, client, hiff.mpr ?_⟩
  rintro ⟨-, hwedged⟩
  rw [referenceParse_of_more (scanFrame_eq_more_iff.mpr (Or.inl (by decide)))] at hwedged
  rcases hwedged with ⟨hlength, -⟩ | ⟨b, hb, hsign⟩
  · exact absurd hlength (by decide)
  · cases hb
    exact absurd hsign (by decide)

/-- A frame with size field zero: the read callback drains the input, but the
connection is neither closed nor waiting for anything. -/
theorem not_closed_or_waits_size_zero :
    ∃ s s' client, runSteps (step .ofList) fresh
        [.accept ⟨7, some 0, 0, 0, 1⟩, .receive 0 [0, 0, 0, 1]] = some s ∧
      s.clients 0 = some client ∧
      s.step .ofList (.read 0 fun _ _ => 3) = some s' ∧
      ¬ (s'.Closed 0 client ∨ s'.Waits 0) := by
  obtain ⟨s, hrun⟩ : ∃ s, runSteps (step .ofList) fresh
      [.accept ⟨7, some 0, 0, 0, 1⟩, .receive 0 [0, 0, 0, 1]] = some s :=
    ⟨_, rfl⟩
  have hmeets : RunMeets (step .ofList) DistinctSeq fresh
      [.accept ⟨7, some 0, 0, 0, 1⟩, .receive 0 [0, 0, 0, 1]] :=
    ⟨rfl, fun _ _ => ⟨trivial, fun _ _ => trivial⟩⟩
  have hinv : s.Inv := runSteps_invariant_of_meets
    (fun s a s' h hcond hstep => inv_step .ofList s a s' h hcond hstep)
    inv_fresh hmeets hrun
  have hevt : s.events 0 = some ⟨7, [0, 0, 0, 1], true, [0, 0, 0, 1]⟩ := by
    cases hrun; rfl
  obtain ⟨p, client, s', hfd, hclient, -, hread, hiff⟩ :=
    closed_or_waits_iff .ofList hinv hevt rfl fun _ _ => 3
  have hp : s.clientPool.getClientByFd 7 = some 0 := by cases hrun; rfl
  obtain rfl : p = 0 := Option.some.inj (hfd.symm.trans hp)
  refine ⟨s, s', client, hrun, hclient, hread, fun hgood => ?_⟩
  have hwedged : Wedged [0, 0, 0, 1] := Or.inl ⟨by decide, by decide⟩
  apply hiff.mp hgood
  rw [WedgedStream, referenceParse_of_more hwedged.scanFrame_eq]
  exact ⟨rfl, hwedged⟩

end LibeventState

end Network
end GameServer
