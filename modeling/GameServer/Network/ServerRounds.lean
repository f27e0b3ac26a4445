import GameServer.Network.LibeventServer

/-!
# The callbacks of the libevent server, step by step

The read callback works in rounds, and the logic thread may run between two of
them.  `readRound` is one round on the server.  Taken one after the other the
rounds are `onBufferEventRead`.

The other results say which clients there are after a callback: those there
were before, and the one of an accepted connection.
-/

namespace GameServer
namespace Network

open Lib

/-- The bufferevent of the client that is created for a connection, if one is
created. -/
def Accepted.bufferEvent (accepted : Accepted) : Option Nat :=
  if accepted.iOptResult = 0 then accepted.pstEvtObj else none

namespace LibeventState

/-- One round of the loop of `OnBufferEventRead`, and whether there is
another. -/
def readRound (api : BuffereventRead) (s : LibeventState)
    (pstEvtobj pstClientCtx : Nat) (clock : Nat → UInt64) :
    Option (LibeventState × Bool) :=
  (s.events pstEvtobj).bind fun evt =>
    (s.clients pstClientCtx).bind fun client =>
      (Network.readRound api clock s.ctx client.contextBuffer evt.input).bind
        fun round =>
          let s : LibeventState :=
            { s with
              ctx := round.ctx
              clients := Function.update s.clients pstClientCtx
                (some { client with contextBuffer := round.client })
              events := Function.update s.events pstEvtobj
                (some { evt with input := round.input }) }
          if round.iRet ≠ 0 then
            (s.closeClient pstClientCtx).map fun s => (s, false)
          else
            some (s, round.again)

/-- The rounds of the loop, until there is no further one. -/
inductive Rounds (api : BuffereventRead) (pstEvtobj pstClientCtx : Nat) :
    LibeventState → LibeventState → Prop where
  | last {s s' : LibeventState} (clock : Nat → UInt64)
      (h : s.readRound api pstEvtobj pstClientCtx clock = some (s', false)) :
      Rounds api pstEvtobj pstClientCtx s s'
  | next {s s₁ s' : LibeventState} (clock : Nat → UInt64)
      (h : s.readRound api pstEvtobj pstClientCtx clock = some (s₁, true))
      (hrest : Rounds api pstEvtobj pstClientCtx s₁ s') :
      Rounds api pstEvtobj pstClientCtx s s'

section

variable {s s' : LibeventState} {p ev : Nat} {client : LibeventClientCtx}
  {evt : Bufferevent}

/-- What a round of the loop means for the server. -/
theorem readRound_of_round {api : BuffereventRead} {clock : Nat → UInt64}
    {round : ReadRoundResult} (hp : s.clients p = some client)
    (hevt : s.events client.bufferEvent = some evt)
    (hround : Network.readRound api clock s.ctx client.contextBuffer evt.input = some round) :
    s.readRound api client.bufferEvent p clock =
      let s := s.withClient round.ctx p
        { client with contextBuffer := round.client }
        { evt with input := round.input }
      if round.iRet ≠ 0 then (s.closeClient p).map fun s => (s, false)
      else some (s, round.again) := by
  rw [readRound, hevt, Option.bind_some, hp, Option.bind_some, hround, Option.bind_some]
  rfl

/-- The rounds do what the loop does. -/
theorem rounds_of_readLoop (api : BuffereventRead)
    (clock : Nat → Nat → UInt64) {loop : ReadLoopResult}
    (hp : s.clients p = some client)
    (hevt : s.events client.bufferEvent = some evt)
    (hrecv : s.ctx.netPacketRecvQueue.NoneHidden)
    (hbounds : client.contextBuffer.InBounds)
    (hloop : readLoop api clock s.ctx client.contextBuffer evt.input = some loop)
    {s₁ : LibeventState}
    (hs₁ : s₁ = s.withClient loop.ctx p
      { client with contextBuffer := loop.client }
      { evt with input := loop.input })
    (hend : (if loop.iRet ≠ 0 then s₁.closeClient p else some s₁) = some s') :
    Rounds api client.bufferEvent p s s' := by
  induction hn : evt.input.length using Nat.strong_induction_on generalizing clock s client evt with
  | _ n ih =>
    subst hn
    obtain ⟨round, added, hround, hunpacks⟩ :=
      readRound_unpacks api (clock 0) evt.input hrecv hbounds
    have hstep := readRound_of_round hp hevt hround
    rw [readLoop_eq, hround, Option.bind_some] at hloop
    cases hagain : round.again with
    | false =>
      rw [hagain] at hloop hstep
      obtain rfl := Option.some.inj hloop
      refine .last (clock 0) (hstep.trans ?_)
      dsimp only at hs₁ hend ⊢
      rw [← hs₁]
      split_ifs at hend ⊢
      · rw [hend, Option.map_some]
      · rw [Option.some.inj hend]
    | true =>
      have hzero : round.iRet = 0 := by
        by_contra hret
        have hfalse := (hunpacks.error hret).1
        rw [hagain] at hfalse
        cases hfalse
      rw [hagain] at hloop hstep
      rw [if_neg (not_not.mpr hzero)] at hstep
      -- the next round starts from the state this one has left
      have hrest := ih round.input.length (hunpacks.again hagain) (fun i => clock (i + 1))
        (clients_withClient s round.ctx p
          { client with contextBuffer := round.client }
          { evt with input := round.input })
        (events_withClient _ _ _ _ _) hunpacks.recv hunpacks.inBounds hloop
        (by simpa only [withClient, Function.update_idem] using hs₁) rfl
      exact .next (clock 0) hstep hrest

/-- **The callback in rounds.**  What `OnBufferEventRead` does on a bufferevent
with callbacks is a sequence of rounds on the client it has found. -/
theorem rounds_of_onBufferEventRead (api : BuffereventRead) (h : s.Inv)
    (hevt : s.events ev = some evt) (henabled : evt.enabled = true)
    (clock : Nat → Nat → UInt64)
    (hread : s.onBufferEventRead api ev clock = some s') :
    ∃ p, s.clientPool.getClientByFd evt.fd = some p ∧ Rounds api ev p s s' := by
  obtain ⟨p, client, hfd, hp, rfl, hserves⟩ := h.exists_client hevt henabled
  refine ⟨p, hfd, ?_⟩
  rw [onBufferEventRead, hevt, Option.bind_some, hfd] at hread
  dsimp only at hread
  rw [hp, Option.bind_some] at hread
  obtain ⟨loop, hloop, hend⟩ := Option.bind_eq_some_iff.mp hread
  exact rounds_of_readLoop api clock hp hevt h.recv hserves.inBounds hloop
    rfl hend

/-- **One round.**  It unpacks packets of the client's connection, and closes
the client or keeps it. -/
theorem readRound_eq (api : BuffereventRead) (h : s.Inv)
    (hp : s.clients p = some client) (clock : Nat → UInt64) :
    ∃ (evt : Bufferevent) (round : ReadRoundResult) (added : List NetPacketBuffer),
      s.events client.bufferEvent = some evt ∧ Serves evt client ∧
      round.Unpacks s.ctx client.contextBuffer evt.input added ∧
      Network.readRound api clock s.ctx client.contextBuffer evt.input = some round ∧
      s.readRound api client.bufferEvent p clock = some (if round.iRet ≠ 0 then
          (LibeventState.without { s with ctx := round.ctx } p client, false)
        else
          (s.withClient round.ctx p { client with contextBuffer := round.client }
            { evt with input := round.input }, round.again)) := by
  obtain ⟨evt, hevt, hserves⟩ := h.serves hp
  obtain ⟨round, added, hround, hunpacks⟩ :=
    readRound_unpacks api clock evt.input h.recv hserves.inBounds
  refine ⟨evt, round, added, hevt, hserves, hunpacks, hround, ?_⟩
  rw [readRound_of_round hp hevt hround]
  dsimp only
  split_ifs with herror
  · -- deleting the client and its bufferevent forgets what was written to them
    obtain ⟨hseq, hfd⟩ := hunpacks.ownedBy
    rw [closeClient_eq (clients_withClient _ _ _ _ _)]
    · simp only [Option.map_some, without, withClient, Function.update_idem,
        LibeventClientCtx.ulClientSeq, LibeventClientCtx.iClientFd, hseq, hfd]
    · show s.clientPool.clientSeqPool round.client.ulClientSeq = some p
      rw [hseq]
      exact (h.registered hp).2
  · rfl

/-- The state of a client after a round without an error. -/
theorem sameClient_round {round : ReadRoundResult} {ctx : NetworkContext}
    {input : List Byte} {added : List NetPacketBuffer}
    (h : round.Unpacks ctx client.contextBuffer input added) :
    SameClient { client with contextBuffer := round.client } client :=
  ⟨h.ownedBy.2, h.ownedBy.1, rfl⟩

/-- A round keeps the server consistent. -/
theorem inv_readRound (api : BuffereventRead) (h : s.Inv)
    (hp : s.clients p = some client) (clock : Nat → UInt64) {again : Bool}
    (hstep : s.readRound api client.bufferEvent p clock = some (s', again)) :
    s'.Inv := by
  obtain ⟨evt, round, added, hevt, hserves, hunpacks, -, heq⟩ :=
    readRound_eq api h hp clock
  rw [heq] at hstep
  split_ifs at hstep with herror
  · cases hstep
    exact inv_without (inv_withCtx h hunpacks.recv) hp
  · cases hstep
    have hsame := sameClient_round hunpacks
    have hverdict := hserves.verdict
    rw [SameVerdict, hunpacks.parse (not_not.mp herror)] at hverdict
    have hserves' : Serves { evt with input := round.input }
        { client with contextBuffer := round.client } :=
      ⟨hserves.enabled, hserves.fd.trans hsame.fd.symm, hunpacks.inBounds, hverdict⟩
    exact inv_withClient h hp hsame hserves' hunpacks.recv

/-! ## Which clients there are -/

/-- All the clients of `s'` are clients of `s`. -/
def ClientsFrom (s s' : LibeventState) : Prop :=
  ∀ {p client}, s'.clients p = some client →
    ∃ old, s.clients p = some old ∧ SameClient client old

theorem clientsFrom_of_eq (h : s'.clients = s.clients) : ClientsFrom s s' :=
  fun hp => ⟨_, h ▸ hp, rfl, rfl, rfl⟩

theorem clientsFrom_without (s : LibeventState) (p : Nat)
    (client : LibeventClientCtx) : ClientsFrom s (s.without p client) :=
  fun hq => ⟨_, (update_none_eq_some_iff.mp hq).2, rfl, rfl, rfl⟩

theorem clientsFrom_withClient {other : LibeventClientCtx}
    (hp : s.clients p = some client) (hsame : SameClient other client)
    (ctx : NetworkContext) :
    ClientsFrom s (s.withClient ctx p other evt) := by
  intro q c hq
  rcases update_some_eq_some_iff.mp hq with ⟨rfl, rfl⟩ | ⟨-, hq⟩
  · exact ⟨client, hp, hsame⟩
  · exact ⟨c, hq, rfl, rfl, rfl⟩

/-- After a round, whether the client has been closed or not. -/
theorem readRound_cases {api : BuffereventRead} (h : s.Inv)
    (hp : s.clients p = some client) {clock : Nat → UInt64} {again : Bool}
    (hstep : s.readRound api client.bufferEvent p clock = some (s', again)) :
    ∃ (input : List Byte) (round : ReadRoundResult) (added : List NetPacketBuffer),
      Network.readRound api clock s.ctx client.contextBuffer input = some round ∧
      round.Unpacks s.ctx client.contextBuffer input added ∧
      s'.ctx = round.ctx ∧ ClientsFrom s s' ∧
      (again = true → ∃ c, s'.clients p = some c ∧ c.bufferEvent = client.bufferEvent) := by
  obtain ⟨evt, round, added, -, -, hunpacks, hround, heq⟩ :=
    readRound_eq api h hp clock
  refine ⟨evt.input, round, added, hround, hunpacks, ?_⟩
  rw [heq] at hstep
  split_ifs at hstep with herror
  · cases hstep
    exact ⟨rfl, clientsFrom_without _ _ _, fun hagain => nomatch hagain⟩
  · cases hstep
    exact ⟨rfl, clientsFrom_withClient hp (sameClient_round hunpacks) _,
      fun _ => ⟨_, clients_withClient _ _ _ _ _, rfl⟩⟩

/-- `CloseClient` removes a client. -/
theorem closeClient_cases (h : s.Inv) (hclose : s.closeClient p = some s') :
    ∃ client, s.clients p = some client ∧ s' = s.without p client := by
  obtain ⟨client, hp, -⟩ := Option.bind_eq_some_iff.mp hclose
  rw [closeClient_eq hp (h.registered hp).2] at hclose
  cases hclose
  exact ⟨client, hp, rfl⟩

theorem clientsFrom_closeClient (h : s.Inv) (hclose : s.closeClient p = some s') :
    ClientsFrom s s' ∧ s'.ctx = s.ctx := by
  obtain ⟨client, -, rfl⟩ := closeClient_cases h hclose
  exact ⟨clientsFrom_without s p client, rfl⟩

theorem clientsFrom_receive (api : BuffereventRead) {bytes : List Byte}
    (hstep : s.step api (.receive ev bytes) = some s') :
    ClientsFrom s s' ∧ s'.ctx = s.ctx := by
  obtain ⟨evt, -, hstep⟩ := Option.bind_eq_some_iff.mp hstep
  split_ifs at hstep
  cases hstep
  exact ⟨clientsFrom_of_eq rfl, rfl⟩

theorem clientsFrom_trigger (api : BuffereventRead) (h : s.Inv)
    {wEvent : UInt16} (hstep : s.step api (.trigger ev wEvent) = some s') :
    ClientsFrom s s' ∧ s'.ctx = s.ctx := by
  obtain ⟨evt, -, hstep⟩ := Option.bind_eq_some_iff.mp hstep
  split_ifs at hstep
  obtain ⟨evt', -, hstep⟩ := Option.bind_eq_some_iff.mp hstep
  dsimp only at hstep
  split at hstep
  · cases hstep
    exact ⟨clientsFrom_of_eq rfl, rfl⟩
  · split_ifs at hstep
    · exact clientsFrom_closeClient h hstep
    · cases hstep
      exact ⟨clientsFrom_of_eq rfl, rfl⟩

/-- Accepting a connection behind a possible left-over client. -/
theorem acceptConnect_cases {accepted : Accepted} (haccept : s.acceptConnect accepted = some s') :
    (accepted.bufferEvent = none ∧ (s.Inv → s'.Inv) ∧ s'.clients = s.clients ∧ s'.ctx = s.ctx) ∨
      ∃ ev, accepted.bufferEvent = some ev ∧ s.events ev = none ∧
        s' = s.withNewClient accepted ev := by
  rw [acceptConnect] at haccept
  split at haccept
  · rename_i hobj
    cases haccept
    left
    simp [Accepted.bufferEvent, hobj]
  · rename_i ev hobj
    split_ifs at haccept with hevent hopt hclient
    · cases haccept
      left
      refine ⟨?_, fun h => ?_, rfl, rfl⟩
      · rw [Accepted.bufferEvent, if_neg hopt]
      · exact inv_leak h (Option.not_isSome_iff_eq_none.mp hevent) rfl
    · cases haccept
      right
      refine ⟨ev, ?_, Option.not_isSome_iff_eq_none.mp hevent, rfl⟩
      rw [Accepted.bufferEvent, if_pos (not_not.mp hopt), hobj]

/-- `OnListenerAcceptConnect` may close a client, and adds at most one. -/
theorem onListenerAcceptConnect_cases (h : s.Inv) {accepted : Accepted}
    (haccept : s.onListenerAcceptConnect accepted = some s') :
    ∃ s₁ : LibeventState, s₁.Inv ∧ ClientsFrom s s₁ ∧ s₁.ctx = s.ctx ∧
      ((accepted.bufferEvent = none ∧ s'.Inv ∧ s'.clients = s₁.clients ∧ s'.ctx = s₁.ctx) ∨
        ∃ ev, accepted.bufferEvent = some ev ∧ s₁.events ev = none ∧
          s' = s₁.withNewClient accepted ev) := by
  -- the state behind a possible call of `CloseClient`
  obtain ⟨s₁, hinv, hfrom, hctx, haccept⟩ : ∃ s₁ : LibeventState, s₁.Inv ∧
      ClientsFrom s s₁ ∧ s₁.ctx = s.ctx ∧
      s₁.acceptConnect accepted = some s' := by
    rw [onListenerAcceptConnect] at haccept
    split at haccept
    · exact ⟨s, h, clientsFrom_of_eq rfl, rfl, haccept⟩
    · obtain ⟨s₁, hclose, haccept⟩ := Option.bind_eq_some_iff.mp haccept
      obtain ⟨hfrom, hctx⟩ := clientsFrom_closeClient h hclose
      exact ⟨s₁, inv_closeClient h hclose, hfrom, hctx, haccept⟩
  refine ⟨s₁, hinv, hfrom, hctx, ?_⟩
  obtain ⟨hnone, hkeep, hrest⟩ | hnew := acceptConnect_cases haccept
  · exact .inl ⟨hnone, hkeep hinv, hrest⟩
  · exact .inr hnew

end

end LibeventState

end Network
end GameServer
