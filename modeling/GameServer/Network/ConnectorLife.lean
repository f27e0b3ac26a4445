import GameServer.Lib.Ledger
import GameServer.Network.ConnectorThreads

/-!
# What a connector acquires and releases

`Create`, `Connect` and `Close` with the objects of libevent that they acquire
and release: the event base, the bufferevent and the write event.  Every object
has a handle of its own, and `log` lists the calls.

Two things go wrong.  Each call of `Connect` makes a write event and forgets
the one before it, so only the last one is released.  And the context that a
successful `Connect` creates has the bufferevent too and frees it in its
destructor, after `Close` has freed it already.  `released_once_iff` says when
a life is in order: `Create` fails, or `Connect` is not called, or it is called
once and fails.  The thread tries thirty times, so of the lives that come to
their thread none is in order (`not_releasedOnce_of_thirty`).

`toConnector` leads to the connector of the concurrent model, which knows
whether a pointer is null and not what it points to.
-/

namespace GameServer
namespace Network

open Lib

/-! ## The functions -/

/-- The kinds of objects. -/
inductive HandleKind where
  | eventBase
  | bufferEvt
  | writeEvent
deriving Repr, DecidableEq

/-- An object of libevent. -/
structure LibeventHandle where
  kind : HandleKind
  serial : Nat
deriving Repr, DecidableEq

/-- What `Create` comes to: `socket` fails, `bufferevent_socket_new` fails, or
neither. -/
inductive CreateOutcome where
  | socketFails
  | bufferEventFails
  | succeeds
deriving Repr, DecidableEq

/-- The members of `Connector` that own something.  Of a `LibeventClientCtx`
its `m_pstBufferEvent` is kept, and of a `ConnectorContext` that it exists. -/
structure ConnectorMembers where
  eventBase : Option LibeventHandle
  bufferEvt : Option LibeventHandle
  writeEvent : Option LibeventHandle
  clientCtx : Option (Option LibeventHandle)
  connectorCtx : Bool
  iStatus : ConnectorStatus
  log : List (LedgerEvent LibeventHandle)
deriving Repr, DecidableEq

namespace ConnectorMembers

/-- The constructor. -/
def construct : ConnectorMembers :=
  ⟨none, none, none, none, false, .unconnect, []⟩

/-- An object that has not been there before. -/
def newHandle (s : ConnectorMembers) (kind : HandleKind) : LibeventHandle :=
  ⟨kind, s.log.length⟩

/-- A call that returns an object. -/
def acquire (s : ConnectorMembers) (handle : LibeventHandle) :
    ConnectorMembers :=
  { s with log := s.log ++ [.acquire handle] }

/-- `if(NULL != p) free(p);` -/
def free (s : ConnectorMembers) (p : Option LibeventHandle) :
    ConnectorMembers :=
  { s with log := s.log ++ p.toList.map .release }

/-- `Create`, with the value it returns. -/
def create (s : ConnectorMembers) (outcome : CreateOutcome) :
    ConnectorMembers × Bool :=
  let base := s.newHandle .eventBase
  let s := { s.acquire base with eventBase := some base }
  match outcome with
  | .socketFails => (s, false)
  | .bufferEventFails => (s, false)
  | .succeeds =>
    let evt := s.newHandle .bufferEvt
    ({ s.acquire evt with bufferEvt := some evt }, true)

/-- `Connect`, by whether `bufferevent_socket_connect` succeeds, which is also
what it returns; `none` is a failed assertion. -/
def connect (s : ConnectorMembers) (success : Bool) :
    Option ConnectorMembers :=
  if s.eventBase = none ∨ s.bufferEvt = none then
    none
  else
    let evt := s.newHandle .writeEvent
    -- the member is overwritten, whatever it has
    let s := { s.acquire evt with writeEvent := some evt }
    if success then
      some { s with clientCtx := some s.bufferEvt, connectorCtx := true }
    else
      some s

/-- `delete m_pstClientCtx`: the destructor frees the bufferevent. -/
def deleteClientCtx (s : ConnectorMembers) : ConnectorMembers :=
  s.free s.clientCtx.join

/-- `Close`, which is also the destructor. -/
def close (s : ConnectorMembers) : ConnectorMembers :=
  let s := { s with iStatus := .closed }
  let s := { s.free s.bufferEvt with bufferEvt := none }
  let s := { s.free s.eventBase with eventBase := none }
  let s := { s.free s.writeEvent with writeEvent := none }
  let s := { s.deleteClientCtx with clientCtx := none }
  { s with connectorCtx := false }

/-- The loop of `ConnectorMainThread`, with what its calls of `Connect`
return. -/
def connectLoop : List Bool → ConnectorMembers → Option ConnectorMembers
  | [], s => some s
  | success :: rest, s =>
    (s.connect success).bind fun s =>
      if success then
        some { s with iStatus := .alive }
      else
        connectLoop rest { s with iStatus := .dead }

/-- `StartMainLoop`: it asserts the event base, and goes on until the connector
is not alive. -/
def startMainLoop (s : ConnectorMembers) : Option ConnectorMembers :=
  if s.eventBase = none then
    none
  else if s.iStatus = .alive then
    some { s with iStatus := .dead }
  else
    some s

/-- `ConnectorMainThread`. -/
def connectorMainThread (answers : List Bool) (s : ConnectorMembers) :
    Option ConnectorMembers :=
  (connectLoop answers s).bind fun s =>
    s.startMainLoop.map fun s => { s.close with iStatus := .closed }

/-- A life from the constructor to the destructor.  If `Create` fails, the
connector is deleted; if not, its thread runs and ends before that. -/
def life (outcome : CreateOutcome) (answers : List Bool) :
    Option ConnectorMembers :=
  let created := construct.create outcome
  if created.2 then
    (connectorMainThread answers created.1).map close
  else
    some created.1.close

/-! ## What `Close` releases -/

variable {s : ConnectorMembers} {answers : List Bool}

/-- The handles that `Close` frees, in their order. -/
def owned (s : ConnectorMembers) : List LibeventHandle :=
  s.bufferEvt.toList ++ s.eventBase.toList ++ s.writeEvent.toList ++
    s.clientCtx.join.toList

theorem log_close (s : ConnectorMembers) : s.close.log = s.log ++ s.owned.map .release := by
  show s.log ++ s.bufferEvt.toList.map LedgerEvent.release ++
    s.eventBase.toList.map LedgerEvent.release ++
    s.writeEvent.toList.map LedgerEvent.release ++
    s.clientCtx.join.toList.map LedgerEvent.release = _
  simp only [owned, List.map_append, List.append_assoc]

/-- Nothing is left for a second `Close`. -/
theorem owned_close (s : ConnectorMembers) : s.close.owned = [] := rfl

theorem log_close_close (s : ConnectorMembers) (iStatus : ConnectorStatus) :
    ({ s.close with iStatus := iStatus } : ConnectorMembers).close.log =
      s.close.log := by
  rw [log_close]
  show s.close.log ++ s.close.owned.map _ = s.close.log
  rw [owned_close, List.map_nil, List.append_nil]

/-! ## What the loop acquires -/

/-- The event base of a life. -/
def base : LibeventHandle := ⟨.eventBase, 0⟩

/-- The bufferevent of a life. -/
def evt : LibeventHandle := ⟨.bufferEvt, 1⟩

/-- The write events of the first `n` calls of `Connect`. -/
def writeEvents (n : Nat) : List LibeventHandle :=
  (List.range n).map fun i => ⟨.writeEvent, i + 2⟩

theorem writeEvents_succ (n : Nat) :
    writeEvents (n + 1) = writeEvents n ++ [⟨.writeEvent, n + 2⟩] := by
  rw [writeEvents, List.range_succ, List.map_append]
  rfl

theorem length_writeEvents (n : Nat) : (writeEvents n).length = n := by
  rw [writeEvents, List.length_map, List.length_range]

theorem getLast?_writeEvents_succ (n : Nat) :
    (writeEvents (n + 1)).getLast? = some ⟨.writeEvent, n + 2⟩ := by
  rw [writeEvents_succ, List.getLast?_concat]

/-- After `n` calls of `Connect`, of which the last has succeeded or none. -/
structure Tried (n : Nat) (success : Bool) (s : ConnectorMembers) : Prop where
  eventBase : s.eventBase = some base
  bufferEvt : s.bufferEvt = some evt
  writeEvent : s.writeEvent = (writeEvents n).getLast?
  clientCtx : s.clientCtx = if success then some (some evt) else none
  log : s.log = (base :: evt :: writeEvents n).map .acquire

theorem tried_create : Tried 0 false (construct.create .succeeds).1 :=
  ⟨rfl, rfl, rfl, rfl, rfl⟩

/-- The status plays no part. -/
theorem Tried.setStatus {n : Nat} {success : Bool} (h : Tried n success s)
    (iStatus : ConnectorStatus) :
    Tried n success { s with iStatus := iStatus } :=
  ⟨h.eventBase, h.bufferEvt, h.writeEvent, h.clientCtx, h.log⟩

theorem Tried.connect {n : Nat} (h : Tried n false s) (success : Bool) :
    ∃ s', s.connect success = some s' ∧ Tried (n + 1) success s' := by
  have hasserts : ¬ (s.eventBase = none ∨ s.bufferEvt = none) := by
    rw [h.eventBase, h.bufferEvt]
    rintro (hnone | hnone)
    · cases hnone
    · cases hnone
  have hnew : s.newHandle .writeEvent = ⟨.writeEvent, n + 2⟩ := by
    rw [newHandle, h.log, List.length_map, List.length_cons, List.length_cons, length_writeEvents]
  have hlog : s.log ++ [.acquire (s.newHandle .writeEvent)] =
      (base :: evt :: writeEvents (n + 1)).map .acquire := by
    rw [h.log, hnew, writeEvents_succ]
    simp
  have hlast : some (s.newHandle .writeEvent) = (writeEvents (n + 1)).getLast? := by
    rw [hnew, getLast?_writeEvents_succ]
  rw [ConnectorMembers.connect, if_neg hasserts]
  cases success with
  | true =>
    exact ⟨_, rfl, h.eventBase, h.bufferEvt, hlast, congrArg some h.bufferEvt, hlog⟩
  | false => exact ⟨_, rfl, h.eventBase, h.bufferEvt, hlast, h.clientCtx, hlog⟩

/-- How often the loop calls `Connect`. -/
def connectCalls : List Bool → Nat
  | [] => 0
  | true :: _ => 1
  | false :: rest => connectCalls rest + 1

/-- The loop comes to its end. -/
theorem Tried.connectLoop {n : Nat} (h : Tried n false s) (answers : List Bool) :
    ∃ s', ConnectorMembers.connectLoop answers s = some s' ∧
      Tried (n + connectCalls answers) (answers.any id) s' := by
  induction answers generalizing s n with
  | nil => exact ⟨s, rfl, h⟩
  | cons success rest ih =>
    obtain ⟨s₁, hconnect, hs₁⟩ := h.connect success
    rw [ConnectorMembers.connectLoop, hconnect, Option.bind_some]
    cases success with
    | true => exact ⟨_, rfl, hs₁.setStatus .alive⟩
    | false =>
      obtain ⟨s', hloop, hs'⟩ := ih (hs₁.setStatus .dead)
      refine ⟨s', hloop, ?_⟩
      rwa [show n + 1 + connectCalls rest = n + connectCalls (false :: rest) by
          rw [connectCalls]; omega] at hs'

/-- What a connector owns after the loop. -/
theorem Tried.owned_eq {n : Nat} {success : Bool} (h : Tried n success s) :
    s.owned = evt :: base :: ((writeEvents n).getLast?.toList ++
      if success then [evt] else []) := by
  rw [owned, h.bufferEvt, h.eventBase, h.writeEvent, h.clientCtx]
  cases success <;> simp

theorem Tried.startMainLoop {n : Nat} {success : Bool} (h : Tried n success s) :
    ∃ s', s.startMainLoop = some s' ∧ Tried n success s' := by
  rw [ConnectorMembers.startMainLoop, if_neg (by rw [h.eventBase]; nofun)]
  split_ifs with halive
  · exact ⟨_, rfl, h.setStatus .dead⟩
  · exact ⟨_, rfl, h⟩

/-- The ledger of a life that comes to its thread. -/
theorem life_of_succeeds (answers : List Bool) :
    ∃ s, life .succeeds answers = some s ∧
      s.log = (base :: evt :: writeEvents (connectCalls answers)).map .acquire ++
        (evt :: base :: ((writeEvents (connectCalls answers)).getLast?.toList ++
          if answers.any id then [evt] else [])).map .release := by
  obtain ⟨s₁, hloop, hs₁⟩ := tried_create.connectLoop answers
  obtain ⟨s₂, hmain, hs₂⟩ := hs₁.startMainLoop
  refine ⟨({ s₂.close with iStatus := .closed } : ConnectorMembers).close, ?_, ?_⟩
  · show (connectorMainThread answers (construct.create .succeeds).1).map close = _
    rw [connectorMainThread, hloop, Option.bind_some, hmain]
    rfl
  · rw [log_close_close, log_close, hs₂.log, hs₂.owned_eq, Nat.zero_add]

/-! ## When a ledger is settled -/

/-- The released handles, after `n` calls of `Connect`. -/
def releasedBy (n : Nat) (success : Bool) : List LibeventHandle :=
  evt :: base :: ((writeEvents n).getLast?.toList ++
    if success then [evt] else [])

/-- The destructor of the context frees the bufferevent once more. -/
theorem count_evt_releasedBy (n : Nat) : (releasedBy n true).count evt = 2 := by
  have hwrite : (writeEvents n).getLast?.toList.count evt = 0 := by
    rw [List.count_eq_zero]
    cases n with
    | zero => nofun
    | succ n =>
      rw [getLast?_writeEvents_succ, Option.toList_some, List.mem_singleton]
      nofun
  rw [releasedBy, List.count_cons_self, List.count_cons_of_ne (by decide),
    List.count_append, hwrite]
  rfl

/-- The first write event is not the last one, and is not released. -/
theorem count_first_releasedBy (n : Nat) :
    (releasedBy (n + 2) false).count ⟨.writeEvent, 2⟩ = 0 := by
  rw [List.count_eq_zero, releasedBy, getLast?_writeEvents_succ]
  intro hmem
  rcases List.mem_cons.mp hmem with hevt | hmem
  · cases hevt
  rcases List.mem_cons.mp hmem with hbase | hmem
  · cases hbase
  · simp at hmem

theorem released_iff (n : Nat) (success : Bool) :
    (∀ handle ∈ base :: evt :: writeEvents n,
        (releasedBy n success).count handle = 1) ↔
      success = false ∧ n ≤ 1 := by
  constructor
  · intro h
    cases success with
    | true =>
      have hevt := h evt (List.mem_cons_of_mem _ List.mem_cons_self)
      rw [count_evt_releasedBy] at hevt
      cases hevt
    | false =>
      refine ⟨rfl, ?_⟩
      by_contra hmany
      obtain ⟨k, rfl⟩ : ∃ k, n = k + 2 := ⟨n - 2, by omega⟩
      have hmem : (⟨.writeEvent, 2⟩ : LibeventHandle) ∈ writeEvents (k + 2) :=
        List.mem_map.mpr ⟨0, List.mem_range.mpr (by omega), rfl⟩
      have hfirst := h _ (List.mem_cons_of_mem _ (List.mem_cons_of_mem _ hmem))
      rw [count_first_releasedBy] at hfirst
      cases hfirst
  · rintro ⟨rfl, hfew⟩
    cases n with
    | zero => decide
    | succ n =>
      obtain rfl : n = 0 := by omega
      decide

/-- One call at most, and that a failure. -/
theorem connectCalls_le_one_iff :
    answers.any id = false ∧ connectCalls answers ≤ 1 ↔
      answers = [] ∨ answers = [false] := by
  match answers with
  | [] => decide
  | true :: rest => simp
  | [false] => decide
  | false :: true :: rest => simp
  | false :: false :: rest =>
    constructor
    · rintro ⟨-, hcalls⟩
      simp only [connectCalls] at hcalls
      omega
    · rintro (h | h)
      · cases h
      · cases h

/-- A life that ends with `Create`: the event base is all there is. -/
theorem releasedOnce_of_failed {outcome : CreateOutcome}
    (houtcome : outcome ≠ .succeeds) (answers : List Bool) :
    ∃ s, life outcome answers = some s ∧ ReleasedOnce s.log := by
  have hlog : ReleasedOnce ([base].map LedgerEvent.acquire ++ [base].map LedgerEvent.release) := by
    rw [releasedOnce_iff]
    decide
  cases outcome with
  | socketFails => exact ⟨_, rfl, hlog⟩
  | bufferEventFails => exact ⟨_, rfl, hlog⟩
  | succeeds => exact absurd rfl houtcome

/-- A life that comes to its thread. -/
theorem exists_life_releasedOnce_iff (answers : List Bool) :
    ∃ s, life .succeeds answers = some s ∧
      (ReleasedOnce s.log ↔ answers = [] ∨ answers = [false]) := by
  obtain ⟨s, hlife, hlog⟩ := life_of_succeeds answers
  refine ⟨s, hlife, ?_⟩
  rw [hlog, releasedOnce_iff, ← connectCalls_le_one_iff]
  exact released_iff (connectCalls answers) (answers.any id)

/-- **When everything is released exactly once.**  Every life of a connector
comes to its end, and its ledger is settled exactly if `Create` has failed,
`Connect` has not been called, or its only call has failed. -/
theorem released_once_iff (outcome : CreateOutcome) (answers : List Bool) :
    ∃ s, life outcome answers = some s ∧ (ReleasedOnce s.log ↔
        outcome ≠ .succeeds ∨ answers = [] ∨ answers = [false]) := by
  by_cases houtcome : outcome = .succeeds
  · subst houtcome
    obtain ⟨s, hlife, hiff⟩ := exists_life_releasedOnce_iff answers
    exact ⟨s, hlife, by simp [hiff]⟩
  · obtain ⟨s, hlife, honce⟩ := releasedOnce_of_failed houtcome answers
    exact ⟨s, hlife, iff_of_true honce (.inl houtcome)⟩

/-- The first `Connect` succeeds: `Close` frees the bufferevent, and then the
destructor of the context does. -/
theorem buffer_event_freed_twice :
    ∃ s, life .succeeds [true] = some s ∧
      s.log = [.acquire base, .acquire evt, .acquire ⟨.writeEvent, 2⟩,
        .release evt, .release base, .release ⟨.writeEvent, 2⟩,
        .release evt] ∧
      ¬ ReleasedOnce s.log := by
  refine ⟨_, rfl, rfl, fun honce => ?_⟩
  exact absurd (honce evt (by decide)) (by decide)

/-- The thread calls `Connect` up to thirty times, so a life in which it runs
is never in order. -/
theorem not_releasedOnce_of_thirty (hlength : answers.length = 30) :
    ∃ s, life .succeeds answers = some s ∧ ¬ ReleasedOnce s.log := by
  obtain ⟨s, hlife, hiff⟩ := exists_life_releasedOnce_iff answers
  refine ⟨s, hlife, fun honce => ?_⟩
  rcases hiff.mp honce with rfl | rfl
  · cases hlength
  · cases hlength

/-! ## The connector of the concurrent model -/

/-- What a pointer is worth while nobody is in `Close`. -/
def pointerOf : Bool → Pointer
  | true => .live
  | false => .null

/-- The members as the concurrent model has them. -/
def toConnector (s : ConnectorMembers) : Connector where
  iStatus := s.iStatus
  pointers
    | .bufferEvt => pointerOf s.bufferEvt.isSome
    | .eventBase => pointerOf s.eventBase.isSome
    | .writeEvent => pointerOf s.writeEvent.isSome
    | .clientCtx => pointerOf s.clientCtx.isSome
    | .connectorCtx => pointerOf s.connectorCtx

theorem toConnector_create : (construct.create .succeeds).1.toConnector = Connector.create := by
  ext resource
  · rfl
  · cases resource <;> rfl

theorem pointerOf_eq_null_iff {p : Option LibeventHandle} :
    pointerOf p.isSome = .null ↔ p = none := by
  cases p <;> simp [pointerOf]

theorem toConnector_connect (s : ConnectorMembers) (success : Bool) :
    s.toConnector.connect success = (s.connect success).map toConnector := by
  have hasserts : (s.toConnector.pointers .eventBase = .null ∨
      s.toConnector.pointers .bufferEvt = .null) ↔ (s.eventBase = none ∨ s.bufferEvt = none) :=
    or_congr pointerOf_eq_null_iff pointerOf_eq_null_iff
  unfold Connector.connect ConnectorMembers.connect
  simp only [hasserts]
  split_ifs with hnull hsuccess
  · rfl
  · refine congrArg some ?_
    ext resource
    · rfl
    · cases resource <;> rfl
  · refine congrArg some ?_
    ext resource
    · rfl
    · cases resource <;> rfl

/-- One step of the thread of the concurrent model. -/
def threadStep (t : ConnectorPc × Connector) (outcome : Bool) :
    Option (ConnectorPc × Connector) :=
  t.1.step t.2 outcome

/-- The loop that connects, from its round `i`. -/
theorem run_connectLoop {i : Nat} {s' : ConnectorMembers} (hlength : i + answers.length = 30)
    (hloop : connectLoop answers s = some s') :
    ∃ outcomes, runSteps threadStep (.connecting i, s.toConnector) outcomes =
      some (.starting, s'.toConnector) := by
  induction answers generalizing s i with
  | nil =>
    obtain rfl : i = 30 := hlength
    cases hloop
    exact ⟨[false], rfl⟩
  | cons success rest ih =>
    rw [List.length_cons] at hlength
    rw [connectLoop] at hloop
    obtain ⟨s₁, hconnect, hrest⟩ := Option.bind_eq_some_iff.mp hloop
    have hfirst : threadStep (.connecting i, s.toConnector) success =
        some (if success then .connected else .failed i, s₁.toConnector) := by
      show ConnectorPc.step (.connecting i) s.toConnector success = _
      rw [ConnectorPc.step, if_pos (by omega), toConnector_connect, hconnect]
      rfl
    cases success with
    | true =>
      cases hrest
      refine ⟨[true, false], ?_⟩
      rw [runSteps_cons, hfirst]
      rfl
    | false =>
      have hround : i + 1 + rest.length = 30 := by omega
      obtain ⟨outcomes, hrun⟩ := ih hround hrest
      refine ⟨false :: false :: outcomes, ?_⟩
      rw [runSteps_cons, hfirst]
      exact hrun

/-- `StartMainLoop`, with a callback that calls `SetDead` in its first round. -/
theorem run_startMainLoop {s' : ConnectorMembers} (hmain : s.startMainLoop = some s') :
    ∃ outcomes, runSteps threadStep (.starting, s.toConnector) outcomes =
      some (.closing .setClosed, s'.toConnector) := by
  unfold ConnectorMembers.startMainLoop at hmain
  split_ifs at hmain with hbase halive
  · cases hmain
    refine ⟨[false, false, true, false, false], ?_⟩
    have hstart : threadStep (.starting, s.toConnector) false = some (.testing, s.toConnector) :=
      if_neg (pointerOf_eq_null_iff.not.mpr hbase)
    have htest : threadStep (.testing, s.toConnector) false =
        some (.running, s.toConnector) := if_pos halive
    rw [runSteps_cons, hstart, Option.bind_some, runSteps_cons, htest]
    rfl
  · cases hmain
    refine ⟨[false, false], ?_⟩
    have hstart : threadStep (.starting, s.toConnector) false = some (.testing, s.toConnector) :=
      if_neg (pointerOf_eq_null_iff.not.mpr hbase)
    have htest : threadStep (.testing, s.toConnector) false =
        some (.closing .setClosed, s.toConnector) := if_neg halive
    rw [runSteps_cons, hstart, Option.bind_some, runSteps_cons, htest]
    rfl

/-- The two accesses of `Close` for one member. -/
theorem run_free_clear {connector : Connector} {resource : Resource}
    (hpointer : connector.pointers resource ≠ .dangling) :
    runSteps threadStep (.closing (.free resource), connector) [false, false] =
      some (ConnectorPc.afterTask (.clear resource), connector.setPointer resource .null) := by
  cases hvalue : connector.pointers resource with
  | null =>
    have hfree : threadStep (.closing (.free resource), connector) false =
        some (.closing (.clear resource), connector) := by
      simp only [threadStep, ConnectorPc.step, Connector.closeTask, hvalue]
      rfl
    rw [runSteps_cons, hfree]
    rfl
  | live =>
    have hfree : threadStep (.closing (.free resource), connector) false =
        some (.closing (.clear resource), connector.setPointer resource .dangling) := by
      simp only [threadStep, ConnectorPc.step, Connector.closeTask, hvalue]
      rfl
    rw [runSteps_cons, hfree]
    show some (ConnectorPc.afterTask (.clear resource),
      (connector.setPointer resource .dangling).setPointer resource .null) = _
    rw [Connector.setPointer, Connector.setPointer, Function.update_idem]
    rfl
  | dangling => exact absurd hvalue hpointer

theorem pointerOf_ne_dangling (b : Bool) : pointerOf b ≠ .dangling := by
  cases b <;> decide

/-- `Close`. -/
theorem run_close (s : ConnectorMembers) :
    ∃ outcomes, runSteps threadStep (.closing .setClosed, s.toConnector)
      outcomes = some (.leaving, s.close.toConnector) := by
  refine ⟨[false] ++ ([false, false] ++ ([false, false] ++ ([false, false] ++
    ([false, false] ++ [false, false])))), ?_⟩
  rw [runSteps_append]
  show runSteps threadStep (.closing (.free .bufferEvt), s.toConnector.setStatus .closed) _ = _
  rw [runSteps_append, run_free_clear (pointerOf_ne_dangling _), Option.bind_some]
  show runSteps threadStep (.closing (.free .eventBase), _) _ = _
  rw [runSteps_append, run_free_clear (pointerOf_ne_dangling _), Option.bind_some]
  show runSteps threadStep (.closing (.free .writeEvent), _) _ = _
  rw [runSteps_append, run_free_clear (pointerOf_ne_dangling _), Option.bind_some]
  show runSteps threadStep (.closing (.free .clientCtx), _) _ = _
  rw [runSteps_append, run_free_clear (pointerOf_ne_dangling _), Option.bind_some]
  show runSteps threadStep (.closing (.free .connectorCtx), _) _ = _
  rw [run_free_clear (pointerOf_ne_dangling _)]
  refine congrArg some (Prod.ext rfl ?_)
  ext resource
  · rfl
  · cases resource <;> rfl

/-- The thread of the concurrent model, started on a connector behind `Create`,
does what `connectorMainThread` does. -/
theorem exists_run_connectorMainThread (hlength : answers.length = 30) :
    ∃ s', connectorMainThread answers (construct.create .succeeds).1 = some s' ∧
      ∃ outcomes, runSteps threadStep (.connecting 0, Connector.create)
        outcomes = some (.finished, s'.toConnector) := by
  obtain ⟨s₁, hloop, hs₁⟩ := tried_create.connectLoop answers
  obtain ⟨s₂, hmain, -⟩ := hs₁.startMainLoop
  have hrounds : 0 + answers.length = 30 := by omega
  obtain ⟨first, hfirst⟩ := run_connectLoop hrounds hloop
  obtain ⟨second, hsecond⟩ := run_startMainLoop hmain
  obtain ⟨third, hthird⟩ := run_close s₂
  refine ⟨{ s₂.close with iStatus := .closed }, ?_,
    first ++ (second ++ (third ++ [false])), ?_⟩
  · rw [connectorMainThread, hloop, Option.bind_some, hmain]
    rfl
  · rw [← toConnector_create, runSteps_append, hfirst, Option.bind_some,
      runSteps_append, hsecond, Option.bind_some, runSteps_append, hthird]
    rfl

end ConnectorMembers

end Network
end GameServer
