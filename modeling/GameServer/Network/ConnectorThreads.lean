import GameServer.Lib.StdMap
import GameServer.Lib.Transition

/-!
# The end of a connector

A `Connector` is worked on by a thread of its own, which connects, runs the
event loop and calls `Close`, and by the logic thread.  In each of its rounds
the logic thread collects the connectors that are alive, works on the contexts
of these, and deletes the connectors that are closed.  All the two threads tell
each other is the status.

`Close` sets the status to closed before it releases anything, so that the
logic thread may delete a connector whose thread has not left `Close`.  And
being alive at one moment says nothing about the next: the thread may delete
the context that the logic thread is working on.

The model has any number of connectors.  A step is one access to the shared
members: reading or writing the status, testing and freeing a resource,
clearing its pointer, one use of a context.  A connector is known by a number
that is not used again.  `ProcessClosedConnectors` is taken to go on with the
next connector after it has erased one.  An operation on a deleted object has
no result; of what `Close` frees only the first deletion counts.
-/

namespace GameServer
namespace Network

open Lib

/-- `NEWTOWK_CONNECTOR_STATUS_TYPE`. -/
inductive ConnectorStatus where
  | unconnect
  | alive
  | dead
  | closed
deriving Repr, DecidableEq

/-- What a connector owns, in the order in which `Close` releases it. -/
inductive Resource where
  | bufferEvt
  | eventBase
  | writeEvent
  | clientCtx
  | connectorCtx
deriving Repr, DecidableEq

/-- What a pointer of a connector is worth. -/
inductive Pointer where
  | null
  | live
  /-- The object has been deleted, the pointer is not cleared yet. -/
  | dangling
deriving Repr, DecidableEq

/-- Where a call of `Close` stands: the next access to the connector. -/
inductive CloseTask where
  | setClosed
  /-- Test the pointer, and free the resource. -/
  | free (resource : Resource)
  /-- Set the pointer to `NULL`. -/
  | clear (resource : Resource)
deriving Repr, DecidableEq

/-- What follows in `Close`. -/
def CloseTask.next : CloseTask → Option CloseTask
  | .setClosed => some (.free .bufferEvt)
  | .free resource => some (.clear resource)
  | .clear .bufferEvt => some (.free .eventBase)
  | .clear .eventBase => some (.free .writeEvent)
  | .clear .writeEvent => some (.free .clientCtx)
  | .clear .clientCtx => some (.free .connectorCtx)
  | .clear .connectorCtx => none

/-- `Connector`: the members that both threads work on. -/
structure Connector where
  iStatus : ConnectorStatus
  pointers : Resource → Pointer

namespace Connector

@[ext] theorem ext {connector connector' : Connector}
    (hstatus : connector.iStatus = connector'.iStatus)
    (hpointers : ∀ resource, connector.pointers resource = connector'.pointers resource) :
    connector = connector' := by
  cases connector
  cases connector'
  cases hstatus
  cases funext hpointers
  rfl

/-- A connector after its constructor and `Create`. -/
def create : Connector where
  iStatus := .unconnect
  pointers := fun resource =>
    if resource = .bufferEvt ∨ resource = .eventBase then .live else .null

/-- The pointer `m_pstConnectorCtx`. -/
def connectorCtx (connector : Connector) : Pointer :=
  connector.pointers .connectorCtx

/-- `SetAlive`, `SetDead` and `SetClosed`. -/
def setStatus (connector : Connector) (iStatus : ConnectorStatus) :
    Connector :=
  { connector with iStatus := iStatus }

@[simp] theorem iStatus_setStatus (connector : Connector) (iStatus : ConnectorStatus) :
    (connector.setStatus iStatus).iStatus = iStatus := rfl

/-- Assign to a pointer. -/
def setPointer (connector : Connector) (resource : Resource)
    (pointer : Pointer) : Connector :=
  { connector with
    pointers := Function.update connector.pointers resource pointer }

/-- `Connect`, by whether `bufferevent_socket_connect` succeeds.  The write
event is new each time. -/
def connect (connector : Connector) (success : Bool) : Option Connector :=
  if connector.pointers .eventBase = .null ∨
      connector.pointers .bufferEvt = .null then
    none
  else
    let connector := connector.setPointer .writeEvent .live
    if success then
      some ((connector.setPointer .clientCtx .live).setPointer .connectorCtx
        .live)
    else
      some connector

/-- One access of `Close`; `none` when a resource is freed twice. -/
def closeTask (connector : Connector) : CloseTask → Option Connector
  | .setClosed => some (connector.setStatus .closed)
  | .free resource =>
    match connector.pointers resource with
    | .null => some connector
    | .live => some (connector.setPointer resource .dangling)
    | .dangling => none
  | .clear resource => some (connector.setPointer resource .null)

end Connector

/-! ## The connector's thread -/

/-- Where `ConnectorMainThread` stands. -/
inductive ConnectorPc where
  | unstarted
  /-- Before round `i` of the loop that connects. -/
  | connecting (i : Nat)
  /-- `Connect` has failed, `SetDead` follows. -/
  | failed (i : Nat)
  /-- `Connect` has succeeded, `SetAlive` follows. -/
  | connected
  /-- At the start of `StartMainLoop`. -/
  | starting
  /-- At the test of its loop. -/
  | testing
  /-- In the body of its loop. -/
  | running
  /-- In `Close`. -/
  | closing (task : CloseTask)
  /-- `Close` has returned, the last `SetClosed` follows. -/
  | leaving
  | finished
deriving Repr, DecidableEq

namespace ConnectorPc

/-- The thread has called `SetClosed` and not returned. -/
def inClose : ConnectorPc → Bool
  | .closing task => task ≠ .setClosed
  | .leaving => true
  | _ => false

/-- Where the thread stands behind an access of `Close`. -/
def afterTask (task : CloseTask) : ConnectorPc :=
  match task.next with
  | some task => .closing task
  | none => .leaving

/-- One step of `ConnectorMainThread`.  The outcome says whether `Connect`
succeeds, and in the loop whether a callback calls `SetDead` or the callbacks
are done. -/
def step (pc : ConnectorPc) (connector : Connector) (outcome : Bool) :
    Option (ConnectorPc × Connector) :=
  match pc with
  | .unstarted => none
  | .connecting i =>
    if i < 30 then
      (connector.connect outcome).map fun connector =>
        (if outcome then .connected else .failed i, connector)
    else
      some (.starting, connector)
  | .failed i => some (.connecting (i + 1), connector.setStatus .dead)
  | .connected => some (.starting, connector.setStatus .alive)
  | .starting =>
    if connector.pointers .eventBase = .null then none
    else some (.testing, connector)
  | .testing =>
    if connector.iStatus = .alive then some (.running, connector)
    else some (.closing .setClosed, connector)
  | .running =>
    if outcome then some (.running, connector.setStatus .dead)
    else some (.testing, connector)
  | .closing task =>
    (connector.closeTask task).map fun connector =>
      (afterTask task, connector)
  | .leaving => some (.finished, connector.setStatus .closed)
  | .finished => none

/-- How the members of a connector depend on where its thread stands. -/
structure Fits (pc : ConnectorPc) (connector : Connector) : Prop where
  closed : connector.iStatus = .closed ↔ pc.inClose = true ∨ pc = .finished
  dangling : connector.connectorCtx = .dangling →
    pc = .closing (.clear .connectorCtx)
  deleted : pc = .closing (.clear .connectorCtx) → connector.connectorCtx ≠ .live
  cleared : pc = .leaving ∨ pc = .finished → connector.connectorCtx = .null

section

variable {pc pc' : ConnectorPc} {connector connector' : Connector}
  {outcome : Bool}

/-- The thread has not come to the deletion of the context, or is behind it. -/
def ordinary : ConnectorPc → Bool
  | .closing task => task ≠ .clear .connectorCtx
  | .leaving => false
  | .finished => false
  | _ => true

/-- Most of the time all there is to say is whether the status is closed. -/
theorem fits_iff_of_ordinary (hpc : pc.ordinary = true) :
    pc.Fits connector ↔
      (connector.iStatus = .closed ↔ pc.inClose = true) ∧ connector.connectorCtx ≠ .dangling := by
  have hclear : pc ≠ .closing (.clear .connectorCtx) := by
    rintro rfl
    cases hpc
  have hleaving : pc ≠ .leaving := by
    rintro rfl
    cases hpc
  have hfinished : pc ≠ .finished := by
    rintro rfl
    cases hpc
  constructor
  · intro h
    exact ⟨by simpa [hfinished] using h.closed, fun hctx => hclear (h.dangling hctx)⟩
  · rintro ⟨hclosed, hctx⟩
    exact ⟨by simpa [hfinished] using hclosed, fun h => (hctx h).elim,
      fun h => (hclear h).elim, fun h => (h.elim hleaving hfinished).elim⟩

theorem fits_create : Fits .unstarted .create :=
  (fits_iff_of_ordinary rfl).mpr (by decide)

/-- `Connect` creates a context or leaves it as it is. -/
theorem connect_cases {success : Bool} (h : connector.connect success = some connector') :
    connector'.iStatus = connector.iStatus ∧ (connector'.connectorCtx = .live ∨
        connector'.connectorCtx = connector.connectorCtx) := by
  unfold Connector.connect at h
  split_ifs at h
  · cases h
    exact ⟨rfl, .inl rfl⟩
  · cases h
    exact ⟨rfl, .inr rfl⟩

/-- Freeing a resource. -/
theorem free_cases {resource : Resource}
    (h : connector.closeTask (.free resource) = some connector') :
    connector'.iStatus = connector.iStatus ∧
      (resource = .connectorCtx → connector'.connectorCtx ≠ .live) ∧
      (resource ≠ .connectorCtx → connector'.connectorCtx = connector.connectorCtx) := by
  simp only [Connector.closeTask] at h
  split at h
  · rename_i hnull
    cases h
    refine ⟨rfl, ?_, fun _ => rfl⟩
    rintro rfl
    rw [Connector.connectorCtx, hnull]
    decide
  · cases h
    refine ⟨rfl, ?_, fun hne => Function.update_of_ne hne.symm _ _⟩
    rintro rfl
    intro hctx
    cases hctx
  · cases h

/-- A step of `Close` by the connector's own thread. -/
theorem Fits.closing {task : CloseTask} (h : (ConnectorPc.closing task).Fits connector)
    (hclose : connector.closeTask task = some connector') :
    (afterTask task).Fits connector' := by
  cases task with
  | setClosed =>
    obtain ⟨-, hctx⟩ := (fits_iff_of_ordinary rfl).mp h
    cases hclose
    exact (fits_iff_of_ordinary rfl).mpr ⟨by simp [afterTask, CloseTask.next, inClose], hctx⟩
  | free resource =>
    obtain ⟨hclosed, hctx⟩ := (fits_iff_of_ordinary rfl).mp h
    obtain ⟨hstatus, hfreed, hother⟩ := free_cases hclose
    have hclosed' : connector'.iStatus = .closed :=
      hstatus.trans (hclosed.mpr rfl)
    by_cases hresource : resource = .connectorCtx
    · subst hresource
      exact ⟨by simp [hclosed', afterTask, CloseTask.next, inClose],
        fun _ => rfl, fun _ => hfreed rfl, fun hend => by
          cases hend <;> contradiction⟩
    · refine (fits_iff_of_ordinary ?_).mpr ⟨?_, ?_⟩
      · simpa [afterTask, CloseTask.next, ordinary] using hresource
      · simp [hclosed', afterTask, CloseTask.next, inClose]
      · rw [hother hresource]
        exact hctx
  | clear resource =>
    have hclosed : connector.iStatus = .closed := h.closed.mpr (.inl rfl)
    cases hclose
    cases resource with
    | connectorCtx =>
      refine ⟨by simp [hclosed, Connector.setPointer, afterTask,
        CloseTask.next, inClose], fun hctx => ?_, fun hpc => ?_,
        fun _ => rfl⟩
      · cases hctx
      · cases hpc
    | bufferEvt | eventBase | writeEvent | clientCtx =>
      obtain ⟨-, hctx⟩ := (fits_iff_of_ordinary rfl).mp h
      exact (fits_iff_of_ordinary rfl).mpr
        ⟨by simp [hclosed, Connector.setPointer, afterTask, CloseTask.next, inClose], hctx⟩

/-- A step of the connector's thread. -/
theorem Fits.step (h : pc.Fits connector)
    (hstep : pc.step connector outcome = some (pc', connector')) :
    pc'.Fits connector' := by
  cases pc with
  | unstarted => cases hstep
  | connecting i =>
    obtain ⟨hopen, hctx⟩ := (fits_iff_of_ordinary rfl).mp h
    by_cases hi : i < 30
    · rw [ConnectorPc.step, if_pos hi] at hstep
      obtain ⟨k, hconnect, heq⟩ := Option.map_eq_some_iff.mp hstep
      obtain ⟨hstatus, hcreated⟩ := connect_cases hconnect
      have hopen' : k.iStatus = .closed ↔ false = true := hstatus ▸ hopen
      have hctx' : k.connectorCtx ≠ .dangling := by
        obtain hlive | hkept := hcreated
        · simp [hlive]
        · rwa [hkept]
      cases heq
      cases outcome with
      | false => exact (fits_iff_of_ordinary rfl).mpr ⟨hopen', hctx'⟩
      | true => exact (fits_iff_of_ordinary rfl).mpr ⟨hopen', hctx'⟩
    · rw [ConnectorPc.step, if_neg hi] at hstep
      cases hstep
      exact (fits_iff_of_ordinary rfl).mpr ⟨hopen, hctx⟩
  | failed i =>
    obtain ⟨-, hctx⟩ := (fits_iff_of_ordinary rfl).mp h
    cases hstep
    exact (fits_iff_of_ordinary rfl).mpr ⟨by simp [inClose], hctx⟩
  | connected =>
    obtain ⟨-, hctx⟩ := (fits_iff_of_ordinary rfl).mp h
    cases hstep
    exact (fits_iff_of_ordinary rfl).mpr ⟨by simp [inClose], hctx⟩
  | starting =>
    obtain hmembers := (fits_iff_of_ordinary rfl).mp h
    simp only [ConnectorPc.step] at hstep
    split_ifs at hstep
    cases hstep
    exact (fits_iff_of_ordinary rfl).mpr hmembers
  | testing =>
    obtain hmembers := (fits_iff_of_ordinary rfl).mp h
    simp only [ConnectorPc.step] at hstep
    split_ifs at hstep
    · cases hstep
      exact (fits_iff_of_ordinary rfl).mpr hmembers
    · cases hstep
      exact (fits_iff_of_ordinary rfl).mpr hmembers
  | running =>
    obtain ⟨hopen, hctx⟩ := (fits_iff_of_ordinary rfl).mp h
    simp only [ConnectorPc.step] at hstep
    split_ifs at hstep
    · cases hstep
      exact (fits_iff_of_ordinary rfl).mpr ⟨by simp [inClose], hctx⟩
    · cases hstep
      exact (fits_iff_of_ordinary rfl).mpr ⟨hopen, hctx⟩
  | closing task =>
    obtain ⟨k, hclose, heq⟩ := Option.map_eq_some_iff.mp hstep
    cases heq
    exact h.closing hclose
  | leaving =>
    have hnull : connector.connectorCtx = .null := h.cleared (.inl rfl)
    cases hstep
    refine ⟨by simp [Connector.setStatus], fun hctx => ?_, fun hpc => ?_, fun _ => hnull⟩
    · cases hnull.symm.trans hctx
    · cases hpc
  | finished => cases hstep

/-- A live context survives every step of the thread but its deletion. -/
theorem Fits.live_step (h : pc.Fits connector) (hlive : connector.connectorCtx = .live)
    (hpc : pc ≠ .closing (.free .connectorCtx))
    (hstep : pc.step connector outcome = some (pc', connector')) :
    connector'.connectorCtx = .live := by
  cases pc with
  | connecting i =>
    by_cases hi : i < 30
    · rw [ConnectorPc.step, if_pos hi] at hstep
      obtain ⟨k, hconnect, heq⟩ := Option.map_eq_some_iff.mp hstep
      cases heq
      obtain hnew | hkept := (connect_cases hconnect).2
      · exact hnew
      · exact hkept.trans hlive
    · rw [ConnectorPc.step, if_neg hi] at hstep
      cases hstep
      exact hlive
  | closing task =>
    obtain ⟨k, hclose, heq⟩ := Option.map_eq_some_iff.mp hstep
    cases heq
    cases task with
    | setClosed =>
      cases hclose
      exact hlive
    | free resource =>
      have hresource : resource ≠ .connectorCtx := by
        rintro rfl
        exact hpc rfl
      exact ((free_cases hclose).2.2 hresource).trans hlive
    | clear resource =>
      cases hclose
      cases resource with
      | connectorCtx => exact (h.deleted rfl hlive).elim
      | bufferEvt | eventBase | writeEvent | clientCtx => exact hlive
  | unstarted | finished => cases hstep
  | failed | connected | leaving =>
    cases hstep
    exact hlive
  | starting | testing | running =>
    simp only [ConnectorPc.step] at hstep
    split_ifs at hstep <;> cases hstep <;> exact hlive

/-- The destructor finds nothing left when the thread has finished. -/
theorem Fits.closeTask_of_finished {task : CloseTask} (h : ConnectorPc.finished.Fits connector)
    (hclose : connector.closeTask task = some connector') :
    ConnectorPc.finished.Fits connector' := by
  have hclosed : connector.iStatus = .closed := h.closed.mpr (.inr rfl)
  have hnull : connector.connectorCtx = .null := h.cleared (.inr rfl)
  have hmembers : connector'.iStatus = .closed ∧ connector'.connectorCtx = .null := by
    cases task with
    | setClosed =>
      cases hclose
      exact ⟨rfl, hnull⟩
    | free resource =>
      by_cases hresource : resource = .connectorCtx
      · subst hresource
        simp only [Connector.closeTask, show connector.pointers
          .connectorCtx = .null from hnull] at hclose
        cases hclose
        exact ⟨hclosed, hnull⟩
      · obtain ⟨hstatus, -, hother⟩ := free_cases hclose
        exact ⟨hstatus.trans hclosed, (hother hresource).trans hnull⟩
    | clear resource =>
      cases hclose
      refine ⟨hclosed, ?_⟩
      cases resource with
      | connectorCtx => rfl
      | bufferEvt | eventBase | writeEvent | clientCtx => exact hnull
  obtain ⟨hclosed', hnull'⟩ := hmembers
  refine ⟨by simp [hclosed'], fun hctx => ?_, fun hpc => ?_, fun _ => hnull'⟩
  · cases hnull'.symm.trans hctx
  · cases hpc

end

end ConnectorPc

/-! ## The logic thread -/

/-- Where the logic thread stands in its work on a context. -/
inductive CtxTask where
  /-- `CheckAndSetSignalActived`. -/
  | signal
  /-- `CopyPacketsFromNetToLogic`. -/
  | copy
  /-- The handlers of the packets that are left. -/
  | handle (iPacketNum : Nat)
  /-- The test at the start of `SendNetworkPackets`. -/
  | send
  /-- `PacketSendPrepare`. -/
  | prepare
  /-- The loop that writes the command. -/
  | command
  /-- `ReleaseAllPackets`. -/
  | release
deriving Repr, DecidableEq

/-- Where the logic thread stands in `_ProcessSSNetworkPacket`. -/
inductive RoundPc where
  | idle
  /-- In `ProcessAliveConnectors`. -/
  | collecting (rest vecConnectorQueue : List Nat)
  /-- In the loop over the connectors collected. -/
  | visiting (rest : List Nat)
  /-- `IsAlive` was true, `ConnectorCtx()` follows. -/
  | obtaining (connector : Nat) (rest : List Nat)
  /-- With the pointer that `ConnectorCtx()` has returned. -/
  | working (connector : Nat) (task : CtxTask) (rest : List Nat)
  /-- In `ProcessClosedConnectors`. -/
  | sweeping (rest : List Nat)
  /-- In the destructor of a connector. -/
  | deleting (connector : Nat) (task : CloseTask) (rest : List Nat)
  /-- The destructor has returned. -/
  | freeing (connector : Nat) (rest : List Nat)
deriving Repr, DecidableEq

namespace RoundPc

/-- The connector whose context the logic thread works on. -/
def worksOn : RoundPc → Option Nat
  | .working connector _ _ => some connector
  | _ => none

/-- The connector whose context it is about to get. -/
def obtains : RoundPc → Option Nat
  | .obtaining connector _ => some connector
  | _ => none

/-- The connector that `ProcessClosedConnectors` looks at. -/
def sweeps : RoundPc → Option Nat
  | .sweeping (connector :: _) => some connector
  | _ => none

theorem sweeps_eq_some_iff {pc : RoundPc} {c : Nat} :
    pc.sweeps = some c ↔ ∃ rest, pc = .sweeping (c :: rest) := by
  constructor
  · intro h
    unfold sweeps at h
    split at h
    · rename_i rest
      cases h
      exact ⟨rest, rfl⟩
    · cases h
  · rintro ⟨rest, rfl⟩
    rfl

theorem obtains_eq_some_iff {pc : RoundPc} {c : Nat} :
    pc.obtains = some c ↔ ∃ rest, pc = .obtaining c rest := by
  constructor
  · intro h
    unfold obtains at h
    split at h
    · rename_i rest
      cases h
      exact ⟨rest, rfl⟩
    · cases h
  · rintro ⟨rest, rfl⟩
    rfl

end RoundPc

/-- The connectors, the positions of their threads and of the logic thread, and
the map of `ConnectorPool` in its order.  As history it is known which
connectors the logic thread has begun to delete. -/
structure ConnectorThreads where
  connectors : Nat → Option Connector
  threads : Nat → ConnectorPc
  created : Nat
  pool : List Nat
  logic : RoundPc
  deleted : List Nat

/-- The actions of the threads. -/
inductive ConnectorAction where
  /-- `NewConnector`, by what `AddConnector` returns. -/
  | create (added : Bool)
  /-- `StartMainThread`. -/
  | start (connector : Nat)
  /-- The thread of a connector takes a step. -/
  | thread (connector : Nat) (outcome : Bool)
  /-- The logic thread starts a round. -/
  | round
  /-- The logic thread takes a step.  The outcome is the number of packets
  copied; for the signal and for a write to the pipe, zero means no. -/
  | logic (outcome : Nat)

namespace ConnectorThreads

/-- No connectors. -/
def init : ConnectorThreads :=
  ⟨fun _ => none, fun _ => .unstarted, 0, [], .idle, []⟩

/-- One use of a context, and what follows.  `none` as the next task means that
the logic thread is done with the connector. -/
def ctxTask (connector : Connector) (outcome : Nat) :
    CtxTask → Option (Option CtxTask)
  | .send =>
    some (if connector.iStatus = .alive then some .prepare else some .release)
  | .command =>
    if connector.iStatus = .alive then
      -- a failed write is tried again
      some (if outcome = 0 then some .command else some .release)
    else
      some (some .release)
  | task =>
    if connector.connectorCtx = .live then
      match task with
      | .signal => some (if outcome = 0 then none else some .copy)
      | .copy => some (some (.handle outcome))
      | .handle 0 => some (some .send)
      | .handle (iPacketNum + 1) => some (some (.handle iPacketNum))
      | .prepare => some (some .command)
      | _ => some none
    else
      none

/-- One step of the logic thread. -/
def logicStep (s : ConnectorThreads) (outcome : Nat) :
    Option ConnectorThreads :=
  match s.logic with
  | .idle => none
  | .collecting [] vecConnectorQueue =>
    some { s with logic := .visiting vecConnectorQueue }
  | .collecting (c :: rest) vecConnectorQueue =>
    (s.connectors c).map fun connector =>
      { s with logic :=
          if connector.iStatus = .alive then
            .collecting rest (vecConnectorQueue ++ [c])
          else
            .collecting rest vecConnectorQueue }
  | .visiting [] => some { s with logic := .sweeping s.pool }
  | .visiting (c :: rest) =>
    (s.connectors c).map fun connector =>
      { s with logic :=
          if connector.iStatus = .alive then .obtaining c rest
          else .visiting rest }
  | .obtaining c rest =>
    (s.connectors c).bind fun connector =>
      if connector.connectorCtx = .null then none
      else some { s with logic := .working c .signal rest }
  | .working c task rest =>
    (s.connectors c).bind fun connector =>
      (ctxTask connector outcome task).map fun next =>
        { s with logic :=
            match next with
            | some task => .working c task rest
            | none => .visiting rest }
  | .sweeping [] => some { s with logic := .idle }
  | .sweeping (c :: rest) =>
    (s.connectors c).map fun connector =>
      if connector.iStatus = .closed then
        { s with
          pool := s.pool.erase c
          logic := .deleting c .setClosed rest
          deleted := s.deleted ++ [c] }
      else
        { s with logic := .sweeping rest }
  | .deleting c task rest =>
    (s.connectors c).bind fun connector =>
      (connector.closeTask task).map fun connector =>
        { s with
          connectors := Function.update s.connectors c (some connector)
          logic :=
            match task.next with
            | some task => .deleting c task rest
            | none => .freeing c rest }
  | .freeing c rest =>
    some { s with
      connectors := Function.update s.connectors c none
      logic := .sweeping rest }

/-- One action.  `none` means that it is not enabled, that an assertion fails
or that a deleted object is used. -/
def step (s : ConnectorThreads) : ConnectorAction → Option ConnectorThreads
  | .create added =>
    if s.logic = .idle then
      some { s with
        connectors := Function.update s.connectors s.created (some .create)
        created := s.created + 1
        pool := if added then s.pool ++ [s.created] else s.pool }
    else
      none
  | .start c =>
    if s.logic = .idle ∧ (s.connectors c).isSome ∧
        s.threads c = .unstarted then
      some { s with threads := Function.update s.threads c (.connecting 0) }
    else
      none
  | .thread c outcome =>
    (s.connectors c).bind fun connector =>
      ((s.threads c).step connector outcome).map fun (pc, connector) =>
        { s with
          connectors := Function.update s.connectors c (some connector)
          threads := Function.update s.threads c pc }
  | .round =>
    if s.logic = .idle then
      some { s with logic := .collecting s.pool [] }
    else
      none
  | .logic outcome => s.logicStep outcome

/-- A connector is destroyed only when nobody uses it: the thread of a
connector that is being deleted has finished, and the context that the logic
thread works on exists. -/
structure Safe (s : ConnectorThreads) : Prop where
  finished : ∀ c ∈ s.deleted, s.threads c = .finished
  live : ∀ c, s.logic.worksOn = some c →
    ∃ connector, s.connectors c = some connector ∧
      connector.connectorCtx = .live

/-- The threads keep out of each other's way: `ProcessClosedConnectors` does
not look at a connector between the two calls of `SetClosed` of its thread;
`ConnectorCtx()` is not called between the deletion of the context and the
assignment of `NULL`; and the thread does not delete the context while the
logic thread works on it. -/
def Apart (s : ConnectorThreads) : ConnectorAction → Prop
  | .thread c _ => s.threads c = .closing (.free .connectorCtx) →
      s.logic.worksOn ≠ some c
  | .logic _ =>
    (∀ c ∈ s.logic.sweeps, (s.threads c).inClose = false) ∧
      ∀ c ∈ s.logic.obtains, s.threads c ≠ .closing (.clear .connectorCtx)
  | _ => True

instance decidableApart (s : ConnectorThreads) :
    ∀ a, Decidable (s.Apart a)
  | .thread c _ => inferInstanceAs (Decidable (s.threads c =
      .closing (.free .connectorCtx) → s.logic.worksOn ≠ some c))
  | .logic _ => inferInstanceAs (Decidable
      ((∀ c ∈ s.logic.sweeps, (s.threads c).inClose = false) ∧
        ∀ c ∈ s.logic.obtains, s.threads c ≠ .closing (.clear .connectorCtx)))
  | .create _ => isTrue trivial
  | .start _ => isTrue trivial
  | .round => isTrue trivial

/-- What holds between any two steps of threads that keep apart. -/
structure Inv (s : ConnectorThreads) : Prop where
  safe : s.Safe
  fits : ∀ {c connector}, s.connectors c = some connector →
    (s.threads c).Fits connector
  /-- The destructor runs for a connector that is being deleted. -/
  deleting : ∀ {c task rest}, s.logic = .deleting c task rest → c ∈ s.deleted
  /-- Of connectors to come there is nothing yet. -/
  coming : ∀ {c}, s.created ≤ c →
    s.connectors c = none ∧ s.threads c = .unstarted

theorem inv_init : Inv init where
  safe := ⟨fun _ h => (nomatch h), fun _ h => (nomatch h)⟩
  fits := fun h => nomatch h
  deleting := fun h => nomatch h
  coming := fun _ => ⟨rfl, rfl⟩

section

variable {s s' : ConnectorThreads} {connector : Connector}

/-- A connector to come is none of those there are. -/
theorem Inv.ne_of_coming (h : s.Inv) {c d : Nat}
    (hc : s.connectors c = some connector) (hd : s.created ≤ d) : d ≠ c := by
  rintro rfl
  rw [(h.coming hd).1] at hc
  cases hc

/-- A step of the logic thread that changes its position only. -/
theorem Inv.move (h : s.Inv) {logic : RoundPc} (hworks : logic.worksOn = none)
    (hdeleting : ∀ c task rest, logic ≠ .deleting c task rest) :
    Inv { s with logic := logic } where
  safe := ⟨h.safe.finished, fun c hc => by
    rw [show logic.worksOn = some c from hc] at hworks
    cases hworks⟩
  fits := h.fits
  deleting := fun hlogic => (hdeleting _ _ _ hlogic).elim
  coming := h.coming

/-- A step of the logic thread to the work on a live context. -/
theorem Inv.work (h : s.Inv) {c : Nat} (hc : s.connectors c = some connector)
    (hlive : connector.connectorCtx = .live) (task : CtxTask) (rest : List Nat) :
    Inv { s with logic := .working c task rest } where
  safe := ⟨h.safe.finished, fun c' hc' => by
    cases hc'
    exact ⟨connector, hc, hlive⟩⟩
  fits := h.fits
  deleting := fun hlogic => nomatch hlogic
  coming := h.coming

/-- `NewConnector`, between two rounds of the logic thread. -/
theorem Inv.create (h : s.Inv) (hidle : s.logic = .idle) (pool : List Nat) :
    Inv { s with
      connectors := Function.update s.connectors s.created (some .create)
      created := s.created + 1
      pool := pool } where
  safe := by
    refine ⟨h.safe.finished, fun c hc => ?_⟩
    rw [hidle] at hc
    cases hc
  fits := by
    intro c k hk
    rcases update_some_eq_some_iff.mp hk with ⟨rfl, rfl⟩ | ⟨-, hold⟩
    · show (s.threads s.created).Fits .create
      rw [(h.coming (Nat.le_refl _)).2]
      exact ConnectorPc.fits_create
    · exact h.fits hold
  deleting := h.deleting
  coming := by
    intro c hc
    obtain ⟨hnone, hunstarted⟩ := h.coming (Nat.le_of_succ_le hc)
    exact ⟨(Function.update_of_ne (Nat.ne_of_gt hc) _ _).trans hnone, hunstarted⟩

/-- `StartMainThread`. -/
theorem Inv.start (h : s.Inv) {c : Nat} (hc : s.connectors c = some connector)
    (hunstarted : s.threads c = .unstarted) :
    Inv { s with
      threads := Function.update s.threads c (.connecting 0) } where
  safe := by
    refine ⟨fun d hd => ?_, h.safe.live⟩
    have hfinished := h.safe.finished d hd
    have hne : d ≠ c := by
      rintro rfl
      rw [hunstarted] at hfinished
      cases hfinished
    exact (Function.update_of_ne hne _ _).trans hfinished
  fits := by
    intro d k hk
    have hfits := h.fits hk
    by_cases hdc : d = c
    · subst hdc
      rw [hunstarted, ConnectorPc.fits_iff_of_ordinary rfl] at hfits
      show (Function.update s.threads d _ d).Fits k
      rw [Function.update_self, ConnectorPc.fits_iff_of_ordinary rfl]
      exact hfits
    · show (Function.update s.threads c _ d).Fits k
      rw [Function.update_of_ne hdc]
      exact hfits
  deleting := h.deleting
  coming := fun hd => ⟨(h.coming hd).1, (Function.update_of_ne
    (h.ne_of_coming hc hd) _ _).trans (h.coming hd).2⟩

/-- A step of the thread of a connector. -/
theorem Inv.thread (h : s.Inv) {c : Nat} {outcome : Bool}
    {connector' : Connector} {pc : ConnectorPc}
    (hc : s.connectors c = some connector)
    (hstep : (s.threads c).step connector outcome = some (pc, connector'))
    (hapart : s.threads c = .closing (.free .connectorCtx) → s.logic.worksOn ≠ some c) :
    Inv { s with
      connectors := Function.update s.connectors c (some connector')
      threads := Function.update s.threads c pc } where
  safe := by
    constructor
    · intro d hd
      have hfinished := h.safe.finished d hd
      have hne : d ≠ c := by
        rintro rfl
        rw [hfinished] at hstep
        cases hstep
      exact (Function.update_of_ne hne _ _).trans hfinished
    · intro d hd
      obtain ⟨k, hk, hlive⟩ := h.safe.live d hd
      by_cases hdc : d = c
      · subst hdc
        rw [hc] at hk
        cases hk
        exact ⟨connector', Function.update_self _ _ _, (h.fits hc).live_step
          hlive (fun hpc => hapart hpc hd) hstep⟩
      · exact ⟨k, (Function.update_of_ne hdc _ _).trans hk, hlive⟩
  fits := by
    intro d k hk
    by_cases hdc : d = c
    · subst hdc
      cases (Function.update_self _ _ _).symm.trans hk
      show (Function.update s.threads d pc d).Fits connector'
      rw [Function.update_self]
      exact (h.fits hc).step hstep
    · show (Function.update s.threads c pc d).Fits k
      rw [Function.update_of_ne hdc]
      exact h.fits ((Function.update_of_ne hdc _ _).symm.trans hk)
  deleting := h.deleting
  coming := by
    intro d hd
    have hne := h.ne_of_coming hc hd
    obtain ⟨hnone, hunstarted⟩ := h.coming hd
    exact ⟨(Function.update_of_ne hne _ _).trans hnone,
      (Function.update_of_ne hne _ _).trans hunstarted⟩

/-- The logic thread begins to delete a connector. -/
theorem Inv.delete (h : s.Inv) {c : Nat} (hc : s.connectors c = some connector)
    (hclosed : connector.iStatus = .closed)
    (hapart : (s.threads c).inClose = false) (rest : List Nat) :
    Inv { s with
      pool := s.pool.erase c
      logic := .deleting c .setClosed rest
      deleted := s.deleted ++ [c] } where
  safe := by
    refine ⟨fun d hd => ?_, fun _ hworks => (nomatch hworks)⟩
    rcases List.mem_append.mp hd with hold | hnew
    · exact h.safe.finished d hold
    · cases List.mem_singleton.mp hnew
      obtain hin | hfinished := (h.fits hc).closed.mp hclosed
      · rw [hapart] at hin
        cases hin
      · exact hfinished
  fits := h.fits
  deleting := by
    intro d task rest' hlogic
    cases hlogic
    exact List.mem_append_right _ (List.mem_singleton_self c)
  coming := h.coming

/-- The destructor takes a step. -/
theorem Inv.destruct (h : s.Inv) {c : Nat} {task : CloseTask} {rest : List Nat}
    {connector' : Connector} (hlogic : s.logic = .deleting c task rest)
    (hc : s.connectors c = some connector)
    (hclose : connector.closeTask task = some connector') {logic : RoundPc}
    (hnext : logic = (match task.next with
      | some task => .deleting c task rest
      | none => .freeing c rest)) :
    Inv { s with
      connectors := Function.update s.connectors c (some connector')
      logic := logic } := by
  have hdeleted := h.deleting hlogic
  have hworks : logic.worksOn = none := by
    rw [hnext]
    cases task.next <;> rfl
  refine ⟨⟨h.safe.finished, fun d hd => ?_⟩, ?_, ?_, fun hd =>
    ⟨(Function.update_of_ne (h.ne_of_coming hc hd) _ _).trans (h.coming hd).1, (h.coming hd).2⟩⟩
  · rw [show logic.worksOn = some d from hd] at hworks
    cases hworks
  · intro d k hk
    by_cases hdc : d = c
    · subst hdc
      cases (Function.update_self _ _ _).symm.trans hk
      have hfits := h.fits hc
      rw [h.safe.finished d hdeleted] at hfits
      show (s.threads d).Fits connector'
      rw [h.safe.finished d hdeleted]
      exact hfits.closeTask_of_finished hclose
    · exact h.fits ((Function.update_of_ne hdc _ _).symm.trans hk)
  · intro d task' rest' hd
    rw [show logic = _ from hd] at hnext
    cases hafter : task.next with
    | none =>
      rw [hafter] at hnext
      cases hnext
    | some next =>
      rw [hafter] at hnext
      cases hnext
      exact hdeleted

/-- The memory of a deleted connector is freed. -/
theorem Inv.free (h : s.Inv) (c : Nat) (rest : List Nat) :
    Inv { s with
      connectors := Function.update s.connectors c none
      logic := .sweeping rest } where
  safe := ⟨h.safe.finished, fun _ hworks => (nomatch hworks)⟩
  fits := fun hk => h.fits (update_none_eq_some_iff.mp hk).2
  deleting := fun hdeleting => nomatch hdeleting
  coming := by
    intro d hd
    refine ⟨?_, (h.coming hd).2⟩
    show Function.update s.connectors c none d = none
    rw [Function.update_apply, (h.coming hd).1, ite_self]

/-- A step of the logic thread. -/
theorem Inv.logicStep (h : s.Inv) {outcome : Nat} (hapart : s.Apart (.logic outcome))
    (hstep : s.logicStep outcome = some s') : s'.Inv := by
  obtain ⟨hsweep, hobtain⟩ := hapart
  unfold ConnectorThreads.logicStep at hstep
  cases hlogic : s.logic with
  | idle =>
    simp only [hlogic] at hstep
    cases hstep
  | collecting rest queue =>
    cases rest with
    | nil =>
      simp only [hlogic] at hstep
      cases hstep
      exact h.move rfl (fun _ _ _ => nofun)
    | cons c rest =>
      simp only [hlogic] at hstep
      obtain ⟨connector, -, rfl⟩ := Option.map_eq_some_iff.mp hstep
      split_ifs
      · exact h.move rfl (fun _ _ _ => nofun)
      · exact h.move rfl (fun _ _ _ => nofun)
  | visiting rest =>
    cases rest with
    | nil =>
      simp only [hlogic] at hstep
      cases hstep
      exact h.move rfl (fun _ _ _ => nofun)
    | cons c rest =>
      simp only [hlogic] at hstep
      obtain ⟨connector, -, rfl⟩ := Option.map_eq_some_iff.mp hstep
      split_ifs
      · exact h.move rfl (fun _ _ _ => nofun)
      · exact h.move rfl (fun _ _ _ => nofun)
  | obtaining c rest =>
    simp only [hlogic] at hstep
    obtain ⟨connector, hc, hstep⟩ := Option.bind_eq_some_iff.mp hstep
    split_ifs at hstep with hnull
    cases hstep
    rw [hlogic] at hobtain
    have hclear := hobtain c rfl
    -- neither null nor dangling
    cases hctx : connector.connectorCtx with
    | null => exact (hnull hctx).elim
    | live => exact h.work hc hctx .signal rest
    | dangling => exact (hclear ((h.fits hc).dangling hctx)).elim
  | working c task rest =>
    simp only [hlogic] at hstep
    obtain ⟨connector, hc, hstep⟩ := Option.bind_eq_some_iff.mp hstep
    obtain ⟨next, -, rfl⟩ := Option.map_eq_some_iff.mp hstep
    obtain ⟨k, hk, hlive⟩ := h.safe.live c (by rw [hlogic]; rfl)
    cases next with
    | none => exact h.move rfl (fun _ _ _ => nofun)
    | some task => exact h.work hk hlive task rest
  | sweeping rest =>
    cases rest with
    | nil =>
      simp only [hlogic] at hstep
      cases hstep
      exact h.move rfl (fun _ _ _ => nofun)
    | cons c rest =>
      simp only [hlogic] at hstep
      obtain ⟨connector, hc, rfl⟩ := Option.map_eq_some_iff.mp hstep
      rw [hlogic] at hsweep
      split_ifs with hclosed
      · exact h.delete hc hclosed (hsweep c rfl) rest
      · exact h.move rfl (fun _ _ _ => nofun)
  | deleting c task rest =>
    simp only [hlogic] at hstep
    obtain ⟨connector, hc, hstep⟩ := Option.bind_eq_some_iff.mp hstep
    obtain ⟨connector', hclose, rfl⟩ := Option.map_eq_some_iff.mp hstep
    exact h.destruct hlogic hc hclose rfl
  | freeing c rest =>
    simp only [hlogic] at hstep
    cases hstep
    exact h.free c rest

/-- Steps of threads that keep apart keep the invariant. -/
theorem inv_step (s : ConnectorThreads) (a : ConnectorAction)
    (s' : ConnectorThreads) (h : s.Inv) (hapart : s.Apart a)
    (hstep : s.step a = some s') : s'.Inv := by
  cases a with
  | create added =>
    by_cases hidle : s.logic = .idle
    · rw [step, if_pos hidle] at hstep
      cases hstep
      exact h.create hidle _
    · rw [step, if_neg hidle] at hstep
      cases hstep
  | start c =>
    simp only [step] at hstep
    split_ifs at hstep with henabled
    obtain ⟨-, hsome, hunstarted⟩ := henabled
    obtain ⟨connector, hc⟩ := Option.isSome_iff_exists.mp hsome
    cases hstep
    exact h.start hc hunstarted
  | thread c outcome =>
    obtain ⟨connector, hc, hstep⟩ := Option.bind_eq_some_iff.mp hstep
    obtain ⟨⟨pc, connector'⟩, hthread, rfl⟩ :=
      Option.map_eq_some_iff.mp hstep
    exact h.thread hc hthread hapart
  | round =>
    simp only [step] at hstep
    split_ifs at hstep
    cases hstep
    exact h.move rfl (fun _ _ _ => nofun)
  | logic outcome => exact h.logicStep hapart hstep

/-- A state is safe only if the step to it kept apart. -/
theorem apart_of_safe (s : ConnectorThreads) (a : ConnectorAction)
    (s' : ConnectorThreads) (h : s.Inv) (hstep : s.step a = some s')
    (hsafe : s'.Safe) : s.Apart a := by
  cases a with
  | create added => trivial
  | start c => trivial
  | round => trivial
  | thread c outcome =>
    intro hpc hworks
    obtain ⟨connector, hc, hstep⟩ := Option.bind_eq_some_iff.mp hstep
    obtain ⟨⟨pc, connector'⟩, hthread, rfl⟩ :=
      Option.map_eq_some_iff.mp hstep
    rw [hpc] at hthread
    obtain ⟨k, hclose, heq⟩ := Option.map_eq_some_iff.mp hthread
    cases heq
    obtain ⟨k, hk, hlive⟩ := hsafe.live c hworks
    cases (Function.update_self _ _ _).symm.trans hk
    exact (ConnectorPc.free_cases hclose).2.1 rfl hlive
  | logic outcome =>
    replace hstep : s.logicStep outcome = some s' := hstep
    unfold ConnectorThreads.logicStep at hstep
    refine ⟨fun c hc => ?_, fun c hc hpc => ?_⟩
    · obtain ⟨rest, hlogic⟩ := RoundPc.sweeps_eq_some_iff.mp hc
      simp only [hlogic] at hstep
      obtain ⟨connector, hconnector, rfl⟩ := Option.map_eq_some_iff.mp hstep
      by_contra hin
      -- its status is closed, so it is deleted at once
      have hin' : (s.threads c).inClose = true := by simpa using hin
      have hclosed := (h.fits hconnector).closed.mpr (.inl hin')
      rw [if_pos hclosed] at hsafe
      have hfinished : s.threads c = .finished := hsafe.finished c
        (List.mem_append_right _ (List.mem_singleton_self c))
      rw [hfinished] at hin'
      cases hin'
    · obtain ⟨rest, hlogic⟩ := RoundPc.obtains_eq_some_iff.mp hc
      simp only [hlogic] at hstep
      obtain ⟨connector, hconnector, hstep⟩ :=
        Option.bind_eq_some_iff.mp hstep
      split_ifs at hstep
      cases hstep
      obtain ⟨k, hk, hlive⟩ := hsafe.live c rfl
      cases hconnector.symm.trans hk
      exact (h.fits hconnector).deleted hpc hlive

end

/-- **When a connector is destroyed safely.**  All along a run the logic thread
deletes only connectors whose threads have finished and works only on contexts
that exist, exactly when the threads keep apart at each of its steps. -/
theorem safe_iff (actions : List ConnectorAction) (s : ConnectorThreads)
    (hrun : runSteps step init actions = some s) :
    (∀ first rest r, actions = first ++ rest → runSteps step init first = some r → r.Safe) ↔
      RunMeets step Apart init actions :=
  forall_reached_iff_runMeets inv_step apart_of_safe (fun _ h => h.safe) inv_init hrun

/-- A connector is created and connects. -/
def connecting : List ConnectorAction :=
  [ConnectorAction.create true, .start 0] ++
    List.replicate 4 (ConnectorAction.thread 0 true)

/-- The logic thread works on it, it dies and is closed, and only then does the
logic thread come back and delete it. -/
def orderly : List ConnectorAction :=
  connecting ++ [ConnectorAction.round] ++
    List.replicate 15 (ConnectorAction.logic 1) ++
    [ConnectorAction.thread 0 true, .thread 0 false] ++
    List.replicate 13 (ConnectorAction.thread 0 true) ++
    [ConnectorAction.round] ++ List.replicate 17 (ConnectorAction.logic 1)

/-- An orderly life of a connector. -/
theorem safe_iff_orderly :
    ∃ s, runSteps step init orderly = some s ∧ s.deleted = [0] ∧
      s.threads 0 = .finished ∧ s.connectors 0 = none ∧ s.Safe := by
  have hview : ((runSteps step init orderly).map fun s =>
      (s.deleted, s.threads 0, (s.connectors 0).isNone)) =
      some ([0], .finished, true) := by
    decide +kernel
  obtain ⟨s, hrun, hview⟩ := Option.map_eq_some_iff.mp hview
  simp only [Prod.mk.injEq, Option.isNone_iff_eq_none] at hview
  obtain ⟨hdeleted, hfinished, hgone⟩ := hview
  have hmeets : RunMeets step Apart init orderly := by decide +kernel
  exact ⟨s, hrun, hdeleted, hfinished, hgone, (safe_iff orderly s hrun).mpr
    hmeets orderly [] s (List.append_nil _).symm hrun⟩

/-- The thread has just called `SetClosed` when the logic thread looks for
closed connectors. -/
def deletedInClose : List ConnectorAction :=
  connecting ++ [ConnectorAction.thread 0 true, .thread 0 false] ++
    List.replicate 2 (ConnectorAction.thread 0 true) ++
    [ConnectorAction.round] ++ List.replicate 4 (ConnectorAction.logic 1)

/-- The logic thread has got the context when the connector dies. -/
def contextDeleted : List ConnectorAction :=
  connecting ++ [ConnectorAction.round] ++
    List.replicate 4 (ConnectorAction.logic 1) ++
    [ConnectorAction.thread 0 true, .thread 0 false] ++
    List.replicate 11 (ConnectorAction.thread 0 true)

/-- A connector is deleted while its thread is about to free its first
resource; and a context is deleted while the logic thread is about to ask it
for its signal. -/
theorem safe_fails_of_overlap :
    (∃ s, runSteps step init deletedInClose = some s ∧ s.deleted = [0] ∧
      s.threads 0 = .closing (.free .bufferEvt) ∧ ¬ s.Safe) ∧
    ∃ s, runSteps step init contextDeleted = some s ∧ s.logic = .working 0 .signal [] ∧
      (s.connectors 0).map Connector.connectorCtx = some .dangling ∧
      ¬ s.Safe := by
  constructor
  · have hview : ((runSteps step init deletedInClose).map fun s =>
        (s.deleted, s.threads 0)) =
        some ([0], .closing (.free .bufferEvt)) := by
      decide +kernel
    obtain ⟨s, hrun, hview⟩ := Option.map_eq_some_iff.mp hview
    obtain ⟨hdeleted, hpc⟩ := Prod.mk.inj hview
    refine ⟨s, hrun, hdeleted, hpc, fun hsafe => ?_⟩
    have hfinished := hsafe.finished 0 (by rw [hdeleted]; exact .head _)
    rw [hpc] at hfinished
    cases hfinished
  · have hview : ((runSteps step init contextDeleted).map fun s =>
        (s.logic, (s.connectors 0).map Connector.connectorCtx)) =
        some (.working 0 .signal [], some .dangling) := by
      decide +kernel
    obtain ⟨s, hrun, hview⟩ := Option.map_eq_some_iff.mp hview
    obtain ⟨hlogic, hctx⟩ := Prod.mk.inj hview
    refine ⟨s, hrun, hlogic, hctx, fun hsafe => ?_⟩
    obtain ⟨connector, hc, hlive⟩ := hsafe.live 0 (by rw [hlogic]; rfl)
    rw [hc, Option.map_some, hlive] at hctx
    cases hctx

end ConnectorThreads

end Network
end GameServer
