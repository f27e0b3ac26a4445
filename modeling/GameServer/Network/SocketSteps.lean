import GameServer.Network.SocketLogic
import GameServer.Socket.Reservation
import GameServer.Socket.TableRuns

/-!
# The socket server and its table

`SocketServer` is run by threads that never interrupt each other in a function of
`socket_server.c`.  Here its functions are shown to be steps of models in which
they do: requests and events are steps of `Socket.Table`, where
`clear_closed_event` is one of its own, and `reserve_id` is a run of a thread in
`Socket.Reserving`, whose accesses are steps of the table in turn and which takes
a request for a new socket wherever the table does.
-/

namespace GameServer
namespace Network

open Lib Socket

/-! ## Requests and events -/

/-- The table of a server that is at the head of the loop of
`socket_server_poll`. -/
structure SocketServer.HasTable (ss : SocketServer) (t : Table) : Prop where
  slot : t.slot = ss.slot
  ev : t.ev = ss.ev
  doing : t.doing = .polling

/-- Steps of the table lead to that of the server. -/
def SocketServer.Reached (ss : SocketServer) (t : Table) : Prop :=
  ∃ actions t', runSteps Table.step t actions = some t' ∧ ss.HasTable t'

section Table

variable {t t' : Table} {ss ss' : SocketServer} {answers : SystemAnswers}
  {message : Option SocketMessage}

theorem SocketServer.Reached.of_step {a : TableAction}
    (hstep : t.step a = some t') (h : ss.Reached t') : ss.Reached t := by
  obtain ⟨actions, t'', hrun, htable⟩ := h
  refine ⟨a :: actions, t'', ?_, htable⟩
  rw [runSteps_cons, hstep, Option.bind_some, hrun]

theorem SocketServer.HasTable.reached (h : ss.HasTable t) : ss.Reached t :=
  ⟨[], t, rfl, h⟩

/-- The call of `clear_closed_event` is a step of its own, or there is none. -/
theorem reached_cleared {message : Option Message} (hslot : t.slot = ss.slot)
    (hev : t.ev = ss.ev) (hdoing : t.doing = .after message) :
    SocketServer.Reached (ss.clearClosedEvent (message.bind SocketMessage.ofMessage)) t := by
  cases message with
  | none => exact SocketServer.HasTable.reached ⟨hslot, hev, hdoing⟩
  | some m =>
    refine .of_step (Table.step_clear hdoing) (SocketServer.HasTable.reached ?_)
    have hclosed : closedId (SocketMessage.ofMessage m) =
        if m.type = .close ∨ m.type = .error then some m.id else none := by
      unfold SocketMessage.ofMessage
      cases m.type <;> rfl
    rw [Option.bind_some, SocketServer.clearClosedEvent, hclosed, Table.clearClosedEvent]
    split_ifs
    · exact ⟨hslot, by simp [hslot, hev], rfl⟩
    · exact ⟨hslot, hev, rfl⟩

/-- A request as it is in the pipe. -/
inductive CtrlRequest.Is (answers : SystemAnswers) :
    CtrlRequest → Request → CtrlAnswers → Prop
  | start {id : Int32} : Is answers (.start id.toInt) (.start id 1001)
      { spAdd := answers.spAdd }
  | listen {id fd : Int32} (hfd : fd.toInt = answers.fd) :
      Is answers (.listen id.toInt) (.listen id fd 1001) {}
  | send {id sz : Int32} {buffer : UInt64} {contents : List Byte}
      (hbuffer : buffer.toNat = answers.place) (hsz : ¬ sz < 0) :
      Is answers (.send id.toInt contents) (.send .high id sz buffer)
        { write := answers.write, contents := contents }

/-- Executing it is what `ctrl_cmd` does with the request in the slot. -/
theorem CtrlRequest.Is.ctrlCmd_eq {request : CtrlRequest} {r : Request}
    {answers' : CtrlAnswers} (h : CtrlRequest.Is answers request r answers')
    (ss : SocketServer) :
    ss.ctrlCmd answers request =
      (ctrlCmd (ss.socketOf r.id) answers' r).map (ss.finish (hashId r.id)) := by
  cases h with
  | start => rfl
  | listen hfd =>
    rw [SocketServer.ctrlCmd, ← hfd]
    rfl
  | @send id sz buffer contents hbuffer hsz =>
    have hrequest : CtrlAnswers.requestSend
        { write := answers.write, contents := contents } sz buffer =
          ⟨answers.place, none, contents⟩ := by
      rw [CtrlAnswers.requestSend, hbuffer, if_neg hsz]
    rw [SocketServer.ctrlCmd, ← hrequest]
    rfl

/-- **A request** is one of the table. -/
theorem reached_of_ctrlCmd {request : CtrlRequest} {r : Request}
    {answers' : CtrlAnswers} (h : ss.HasTable t)
    (hreq : CtrlRequest.Is answers request r answers')
    (hheld : r.isNew → (r.id, true) ∈ t.held)
    (hcmd : ss.ctrlCmd answers request = some (ss', message)) :
    (ss'.clearClosedEvent message).Reached t := by
  rw [hreq.ctrlCmd_eq] at hcmd
  obtain ⟨out, hout, hpair⟩ := Option.map_eq_some_iff.mp hcmd
  obtain ⟨rfl, rfl⟩ := Prod.mk.inj hpair
  have hstep : t.step (.request r answers') = some (t.executed r answers' out) := by
    rw [Table.step, if_pos h.doing, Table.request, if_neg (by tauto), h.slot]
    exact congrArg (Option.map _) hout
  refine .of_step hstep (reached_cleared ?_ h.ev ?_)
  · rw [Table.executed, h.slot]
    rfl
  · cases hreq <;> rfl

/-- `report_accept`, with the id that `reserve_id` returns. -/
theorem hasTable_reportAccept {i : Nat} (h : ss.HasTable t)
    (haccept : ss.reportAccept i answers = some (ss', message)) :
    ∃ t', t.reportAccept i (if answers.accept then
        some (answers.fd, ss.reserveId.2) else none) = some t' ∧
      ss'.HasTable t' := by
  unfold SocketServer.reportAccept at haccept
  split_ifs at haccept with hwaits
  · rw [if_pos hwaits]
    split at haccept
    · next ss₁ hreserve =>
      cases haccept
      obtain ⟨allocId, rfl⟩ := SocketServer.reserveIdFrom_eq_none hreserve
      rw [hreserve]
      exact ⟨t, rfl, h.slot, h.ev, h.doing⟩
    · next ss₁ id hreserve =>
      obtain ⟨hfree, allocId, rfl⟩ :=
        SocketServer.reserveIdFrom_eq_some hreserve
      obtain ⟨out, hout, hpair⟩ := Option.map_eq_some_iff.mp haccept
      obtain ⟨rfl, -⟩ := Prod.mk.inj hpair
      -- `reserve_id` may have taken the slot that is looked at, but not its owner
      have howner : (SocketServer.slot (SocketServer.setSlot
          { ss with allocId := allocId } (hashId id)
          ((ss.socketOf id).reserved id)) i).owner = (ss.slot i).owner := by
        by_cases hi : i = hashId id
        · subst hi
          rw [SocketServer.slot_setSlot_self]
          rfl
        · exact congrArg Sock.owner (Function.update_of_ne hi ..)
      rw [howner, SocketServer.socketOf, SocketServer.slot_setSlot_self,
        SocketServer.socketOf] at hout
      refine ⟨{ t with slot := Function.update t.slot (hashId id) out.sock }, ?_, ?_, h.ev, h.doing⟩
      · have htype : (ss.slot (hashId id)).type = .invalid := hfree
        simp only [hreserve, Table.reportAccept, h.slot, htype, ne_eq,
          not_true_eq_false, if_false, hout, Option.map_some]
      · rw [SocketServer.setSlot_setSlot, h.slot]
        rfl
  · cases haccept
    rw [if_neg hwaits]
    exact ⟨t, rfl, h⟩

/-- **An event** is one of the table. -/
theorem reached_of_takeEvent (h : ss.HasTable t)
    (htake : ss.takeEvent answers = some (ss', message)) : ss'.Reached t := by
  unfold SocketServer.takeEvent at htake
  split at htake
  · cases htake
  · next e rest hev =>
    have hskip : SocketServer.HasTable { ss with ev := rest }
        { t with ev := rest } := ⟨h.slot, rfl, h.doing⟩
    have hstep : ∀ accepted, t.step (.event answers.event accepted) =
        t.takeEvent answers.event accepted := fun _ => if_pos h.doing
    have hev' : t.ev = e :: rest := h.ev.trans hev
    dsimp only at htake
    split at htake
    · next hs =>
      -- `clear_closed_event` has emptied the entry
      cases htake
      refine .of_step (a := .event answers.event none) ?_ hskip.reached
      rw [hstep, Table.takeEvent, hev']
      simp only [hs]
    · next i hs =>
      by_cases hlisten : (ss.slot i).type = .listen
      · -- `report_accept`, whose message clears no events
        rw [if_pos hlisten] at htake
        obtain ⟨t', hreport, htable⟩ := hasTable_reportAccept hskip htake
        obtain ⟨accepted, hreport⟩ : ∃ accepted, Table.reportAccept
            { t with ev := rest } i accepted = some t' := ⟨_, hreport⟩
        refine .of_step (a := .event answers.event accepted) ?_ htable.reached
        rw [hstep, Table.takeEvent, hev']
        simp only [hs]
        rw [if_pos (h.slot ▸ hlisten), hreport]
      · rw [if_neg hlisten] at htake
        obtain ⟨out, hout, hpair⟩ := Option.map_eq_some_iff.mp htake
        obtain ⟨rfl, -⟩ := Prod.mk.inj hpair
        have htaken : t.step (.event answers.event none) = some { t with
            slot := Function.update t.slot i out.sock
            ev := Table.eventsAfter (ss.slot i) e rest out.message
            doing := .afterEvent (ss.slot i) out.message } := by
          rw [hstep, Table.takeEvent_cons hev' hs (h.slot ▸ hlisten), h.slot, hout]
          rfl
        have hslot : Function.update t.slot i out.sock = (ss.setSlot i out.sock).slot := by
          rw [h.slot]
          rfl
        refine .of_step htaken ?_
        -- only these two cases return without `clear_closed_event`
        split_ifs with hconnecting
        · exact SocketServer.HasTable.reached ⟨hslot, rfl, if_pos (.inl hconnecting)⟩
        · by_cases hudp : out.message.map (·.type) = some .udp
          · -- a datagram, which is no message of this server
            have hnone : out.message.bind SocketMessage.ofMessage = none := by
              obtain ⟨m, hm, htype⟩ := Option.map_eq_some_iff.mp hudp
              rw [hm, Option.bind_some, SocketMessage.ofMessage, htype]
            rw [SocketServer.finish, hnone]
            exact SocketServer.HasTable.reached ⟨hslot, rfl, if_pos (.inr hudp)⟩
          · exact reached_cleared hslot rfl (if_neg (not_or.mpr ⟨hconnecting, hudp⟩))

/-- What a pass through the loop gets is what the table can get: a request that is
in the pipe as it is written, on a slot that is held if it is for a new socket,
and one event for each descriptor. -/
def SocketState.CallFits (s : SocketState) (t : Table) : PollCall → Prop
  | .cmd answers => ∀ request pipe, s.ss.pipe.read = some (request, pipe) →
      ∃ r answers', CtrlRequest.Is answers request r answers' ∧
        (r.isNew → (r.id, true) ∈ t.held)
  | .wait events => (events.filterMap (·.s)).Nodup
  | .noCmd | .event _ => True

/-- **A pass through the loop of `socket_server_poll`** is a run of the table. -/
theorem reached_of_poll {s s' : SocketState} {call : PollCall}
    (h : s.ss.HasTable t) (hfits : s.CallFits t call)
    (hpoll : s.poll call = some (s', message)) : s'.ss.Reached t := by
  cases call with
  | cmd answers =>
    obtain ⟨-, hbind⟩ := Option.ite_none_right_eq_some.mp hpoll
    obtain ⟨⟨request, pipe⟩, hread, hcmd⟩ := Option.bind_eq_some_iff.mp hbind
    obtain ⟨⟨ss', message'⟩, hexec, hpair⟩ := Option.map_eq_some_iff.mp hcmd
    obtain ⟨rfl, rfl⟩ := Prod.mk.inj hpair
    obtain ⟨r, answers', hreq, hheld⟩ := hfits request pipe hread
    have hpiped : SocketServer.HasTable { s.ss with pipe := pipe } t :=
      ⟨h.slot, h.ev, h.doing⟩
    exact reached_of_ctrlCmd hpiped hreq hheld hexec
  | noCmd =>
    obtain ⟨-, hpair⟩ := Option.ite_none_right_eq_some.mp hpoll
    cases hpair
    exact SocketServer.HasTable.reached ⟨h.slot, h.ev, h.doing⟩
  | wait events =>
    obtain ⟨⟨-, -, hnone, -, hpolled⟩, hpair⟩ :=
      Option.ite_none_right_eq_some.mp hpoll
    cases hpair
    have hreports : t.Reports events := by
      refine ⟨hfits, fun e he i hi => ?_⟩
      rw [h.slot]
      exact hpolled e he i hi
    have hstep : t.step (.wait events) = some { t with ev := events } :=
      if_pos ⟨h.doing, h.ev.trans hnone, hreports⟩
    exact .of_step hstep (SocketServer.HasTable.reached ⟨h.slot, rfl, h.doing⟩)
  | event answers =>
    obtain ⟨-, hmap⟩ := Option.ite_none_right_eq_some.mp hpoll
    obtain ⟨⟨ss', message'⟩, htake, hpair⟩ := Option.map_eq_some_iff.mp hmap
    obtain ⟨rfl, -⟩ := Prod.mk.inj hpair
    exact reached_of_takeEvent h htake

end Table

end Network

/-! ## Reserving -/

namespace Socket

open Lib Network

/-- What the threads in `reserve_id` share, as `Network.SocketServer` has it. -/
structure Reserving.Sees {τ : Type*} (s : Reserving τ) (ss : SocketServer) :
    Prop where
  allocId : s.allocId = ss.allocId
  range : ss.allocId < 2 ^ 31
  type : ∀ i, (ss.slot i).type = s.type i
  id : ∀ i, (ss.slot i).id = s.id i
  fd : ∀ i, (ss.slot i).fd = s.fd i

section Alone

variable {τ : Type*} [DecidableEq τ] {s : Reserving τ} {a : τ}

theorem Reserving.Sees.set {ss : SocketServer} {id : Int} (h : s.Sees ss) :
    Reserving.Sees ({ s with
        type := Function.update s.type (hashId id) .reserve
        id := Function.update s.id (hashId id) id
        fd := Function.update s.fd (hashId id) (-1) }.goto a (.returned (some id)))
      (ss.setSlot (hashId id) ((ss.socketOf id).reserved id)) := by
  refine ⟨h.allocId, h.range, fun i => ?_, fun i => ?_, fun i => ?_⟩
  all_goals
    by_cases hi : i = hashId id
    · simp [SocketServer.setSlot, Reserving.goto, Sock.reserved, Sock.named, hi]
    · simp [SocketServer.setSlot, Reserving.goto, hi, h.type i, h.id i, h.fd i]

/-- The next id, which is masked if it is negative. -/
theorem exists_run_check {n i : Nat} (hpc : s.pc a = .add i)
    (halloc : s.allocId = n) (hrange : n < 2 ^ 31) :
    ∃ actions, runSteps Reserving.step s actions =
      some ({ s with allocId := ((n + 1) % 2 ^ 31 : Nat) }.goto a
        (.check i ((n + 1) % 2 ^ 31 : Nat))) := by
  by_cases hlast : n + 1 < 2 ^ 31
  · have hadd : addAndFetch s.allocId = ((n + 1) % 2 ^ 31 : Nat) := by
      rw [addAndFetch, halloc, Nat.mod_eq_of_lt hlast, if_pos (by omega)]
      rfl
    refine ⟨[.run a], ?_⟩
    simp only [runSteps, Reserving.step, Reserving.access, hpc, hadd, Option.bind_some]
    rw [if_neg (by omega)]
  · obtain rfl : n = 2 ^ 31 - 1 := by omega
    refine ⟨[.run a, .run a], ?_⟩
    have hadd : addAndFetch s.allocId = -2 ^ 31 := by
      rw [addAndFetch, halloc]
      rfl
    simp only [runSteps, Reserving.step, Reserving.access, hpc, hadd,
      Option.bind_some, Reserving.goto, Function.update_self,
      Function.update_idem]
    rfl

/-- The slot of the id is free. -/
theorem runSteps_taking {i : Nat} {id : Int} (hpc : s.pc a = .check i id)
    (hfree : s.type (hashId id) = .invalid) :
    runSteps Reserving.step s [.run a, .run a, .run a, .run a] = some ({ s with
        type := Function.update s.type (hashId id) .reserve
        id := Function.update s.id (hashId id) id
        fd := Function.update s.fd (hashId id) (-1) }.goto a (.returned (some id))) := by
  simp only [runSteps, Reserving.step, Reserving.access, Reserving.goto, hpc,
    hfree, Function.update_self, Function.update_idem, if_true,
    Option.bind_some]

/-- It is not. -/
theorem runSteps_nextRound {i : Nat} {id : Int} (hpc : s.pc a = .check i id)
    (hused : s.type (hashId id) ≠ .invalid) :
    runSteps Reserving.step s [.run a] = some (s.goto a (nextRound i)) := by
  simp only [runSteps, Reserving.step, Reserving.access, hpc, hused, if_false, Option.bind_some]

/-- A thread that runs alone goes through the loop of `reserve_id`. -/
theorem reserveIdFrom_view {ss ss' : SocketServer} {rounds i : Nat}
    {result : Option Int} (hsees : s.Sees ss) (hrounds : i + rounds = maxSocket)
    (hpc : s.pc a = if i < maxSocket then .add i else .returned none)
    (h : SocketServer.reserveIdFrom rounds ss = (ss', result)) :
    ∃ actions s', runSteps Reserving.step s actions = some s' ∧
      s'.pc a = .returned result ∧ s'.Sees ss' := by
  induction rounds generalizing s ss i with
  | zero =>
    cases h
    rw [if_neg (by omega)] at hpc
    exact ⟨[], s, rfl, hpc, hsees⟩
  | succ rounds ih =>
    rw [if_pos (by omega)] at hpc
    obtain ⟨checks, hchecks⟩ := exists_run_check hpc hsees.allocId hsees.range
    rw [SocketServer.reserveIdFrom] at h
    dsimp only at h
    obtain ⟨n, hn⟩ : ∃ n, n = (ss.allocId + 1) % 2 ^ 31 := ⟨_, rfl⟩
    have hrange : n < 2 ^ 31 := by omega
    rw [← hn] at h hchecks
    obtain ⟨m, hm⟩ : ∃ m : Reserving τ,
        m = { s with allocId := (n : Int) }.goto a (.check i n) := ⟨_, rfl⟩
    have hcheck : m.pc a = .check i n := by
      rw [hm]
      exact Function.update_self ..
    have hmsees : m.Sees { ss with allocId := n } := by
      rw [hm]
      exact ⟨rfl, hrange, hsees.type, hsees.id, hsees.fd⟩
    rw [← hm] at hchecks
    split_ifs at h with hfree
    · cases h
      have hrun := runSteps_taking hcheck ((hmsees.type _).symm.trans hfree)
      refine ⟨_, _, by rw [runSteps_append, hchecks, Option.bind_some, hrun],
        Function.update_self .., hmsees.set⟩
    · have hrun := runSteps_nextRound hcheck fun hinvalid => hfree ((hmsees.type _).trans hinvalid)
      obtain ⟨actions, s', hrest, hreturned, hsees'⟩ :=
        ih (s := m.goto a (nextRound i)) ⟨hmsees.allocId, hrange, hmsees.type, hmsees.id, hmsees.fd⟩
          (i := i + 1) (by omega) (Function.update_self ..) h
      refine ⟨checks ++ ([.run a] ++ actions), s', ?_, hreturned, hsees'⟩
      rw [runSteps_append, hchecks, Option.bind_some, runSteps_append, hrun,
        Option.bind_some, hrest]

/-- **`reserve_id`** of `Network.SocketServer` is a call of a thread that nobody
interrupts. -/
theorem reserveId_view {ss ss' : SocketServer} {result : Option Int}
    (hsees : s.Sees ss) (hpc : s.pc a = .outside)
    (h : ss.reserveId = (ss', result)) :
    ∃ actions s', runSteps Reserving.step s (.call a :: actions) = some s' ∧
      s'.pc a = .returned result ∧ s'.Sees ss' := by
  obtain ⟨actions, s', hrun, hreturned, hsees'⟩ :=
    reserveIdFrom_view (s := s.goto a (.add 0)) (i := 0)
      ⟨hsees.allocId, hsees.range, hsees.type, hsees.id, hsees.fd⟩ (Nat.zero_add _)
      (Function.update_self ..) h
  refine ⟨actions, s', ?_, hreturned, hsees'⟩
  rw [runSteps_cons, Reserving.step, if_pos hpc, Option.bind_some, hrun]

end Alone

/-- What the threads in `reserve_id` share, as the table has it.  A descriptor is
stored by `Table.step` together with the id. -/
structure Reserving.Fills {τ : Type*} (s : Reserving τ) (t : Table) : Prop where
  type : ∀ i, (t.slot i).type = s.type i
  id : ∀ i, (t.slot i).id = s.id i
  held : ∀ a id, s.pc a = .storeId id → (id, false) ∈ t.held

section Fills

variable {τ : Type*} [DecidableEq τ] {s : Reserving τ} {a : τ} {t : Table}

/-- A thread goes on, and has stored its id if it was about to. -/
theorem Reserving.Fills.goto (h : s.Fills t) {next : ReserveAt}
    (hnext : ∀ id, next ≠ .storeId id) : (s.goto a next).Fills t := by
  refine ⟨h.type, h.id, fun b id hb => ?_⟩
  by_cases hab : b = a
  · simp only [Reserving.goto, hab, Function.update_self] at hb
    exact absurd hb (hnext id)
  · simp only [Reserving.goto, Function.update_of_ne hab] at hb
    exact h.held b id hb

omit [DecidableEq τ] in
/-- A slot gets another content. -/
theorem Reserving.Fills.put {s' : Reserving τ} {t' : Table} {i : Nat}
    {sock : Sock} (h : s.Fills t)
    (hslot : t'.slot = Function.update t.slot i sock)
    (htype : s'.type = Function.update s.type i sock.type)
    (hid : s'.id = Function.update s.id i sock.id)
    (hheld : ∀ b id, s'.pc b = .storeId id → (id, false) ∈ t'.held) : s'.Fills t' := by
  refine ⟨fun j => ?_, fun j => ?_, hheld⟩
  · by_cases hj : j = i
    · rw [hslot, htype, hj, Function.update_self, Function.update_self]
    · rw [hslot, htype, Function.update_of_ne hj, Function.update_of_ne hj, h.type]
  · by_cases hj : j = i
    · rw [hslot, hid, hj, Function.update_self, Function.update_self]
    · rw [hslot, hid, Function.update_of_ne hj, Function.update_of_ne hj, h.id]

omit [DecidableEq τ] in
/-- The id stays where only the type of the slot changes. -/
theorem Reserving.Fills.update_id (h : s.Fills t) (i : Nat) :
    s.id = Function.update s.id i (t.slot i).id := by
  rw [h.id, Function.update_eq_self]

/-- The compare-and-swap. -/
theorem Reserving.Fills.swap (h : s.Fills t) (id : Int) :
    Reserving.Fills ({ s with
        type := Function.update s.type (hashId id) .reserve }.goto a (.storeId id))
      { t with
        slot := Function.update t.slot (hashId id)
          { t.slot (hashId id) with type := .reserve }
        held := (id, false) :: t.held } := by
  refine h.put rfl rfl (h.update_id _) fun b id' hb => ?_
  by_cases hab : b = a
  · simp only [Reserving.goto, hab, Function.update_self] at hb
    cases hb
    exact List.mem_cons_self
  · simp only [Reserving.goto, Function.update_of_ne hab] at hb
    exact List.mem_cons_of_mem _ (h.held b id' hb)

/-- The store of the id.  No other thread has the slot. -/
theorem Reserving.Fills.store (h : s.Fills t) (hheld : s.HeldOnce) {id : Int}
    (hpc : s.pc a = .storeId id) :
    Reserving.Fills ({ s with
        id := Function.update s.id (hashId id) id }.goto a (.storeFd id))
      { t with
        slot := Function.update t.slot (hashId id) ((t.slot (hashId id)).named id)
        held := (id, true) :: t.held.erase (id, false) } := by
  have htype : s.type = Function.update s.type (hashId id) (t.slot (hashId id)).type := by
    rw [h.type, Function.update_eq_self]
  refine h.put rfl htype rfl fun b id' hb => ?_
  by_cases hab : b = a
  · simp [Reserving.goto, hab] at hb
  · simp only [Reserving.goto, Function.update_of_ne hab] at hb
    have hne : id' ≠ id := by
      rintro rfl
      have ha : s.holds (.inl a) = some (hashId id') := by
        rw [Reserving.holds, hpc]
        rfl
      have hb' : s.holds (.inl b) = some (hashId id') := by
        rw [Reserving.holds, hb]
        rfl
      exact hab (Sum.inl.inj (hheld.1 hb' ha))
    refine List.mem_cons_of_mem _ ?_
    exact (List.mem_erase_of_ne (by simpa using hne)).mpr (h.held b id' hb)

/-- **An access of a thread in `reserve_id`** is a step of the table, or changes
nothing that the table has. -/
theorem access_view {s' : Reserving τ} (hfills : s.Fills t)
    (hheld : s.HeldOnce) (hstep : s.access a = some s') :
    ∃ actions t', runSteps Table.step t actions = some t' ∧ s'.Fills t' := by
  unfold Reserving.access at hstep
  split at hstep
  · cases hstep
    have hadded : Reserving.Fills
        { s with allocId := addAndFetch s.allocId } t :=
      ⟨hfills.type, hfills.id, hfills.held⟩
    exact ⟨[], t, rfl, hadded.goto (by intro id; split_ifs <;> simp)⟩
  · cases hstep
    have hmasked : Reserving.Fills
        { s with allocId := andAndFetch s.allocId } t :=
      ⟨hfills.type, hfills.id, hfills.held⟩
    exact ⟨[], t, rfl, hmasked.goto (by simp)⟩
  · cases hstep
    refine ⟨[], t, rfl, hfills.goto fun id => ?_⟩
    unfold nextRound
    split_ifs <;> simp
  · next i id hpc =>
    split_ifs at hstep with hfree
    · cases hstep
      refine ⟨[.reserve id], _, ?_, hfills.swap id⟩
      rw [runSteps_cons, Table.step, if_pos ((hfills.type _).trans hfree)]
      rfl
    · cases hstep
      exact ⟨[], t, rfl, hfills.goto (by simp)⟩
  · next id hpc =>
    cases hstep
    refine ⟨[.store id], _, ?_, hfills.store hheld hpc⟩
    rw [runSteps_cons, Table.step, if_pos (hfills.held a id hpc)]
    rfl
  · next id hpc =>
    cases hstep
    have hstored : Reserving.Fills { s with
        fd := Function.update s.fd (hashId id) (-1) } t :=
      ⟨hfills.type, hfills.id, hfills.held⟩
    exact ⟨[], t, rfl, hstored.goto (by simp)⟩
  · cases hstep
  · cases hstep

omit [DecidableEq τ] in
/-- **A request for a new socket** that the table executes is one that is taken
from the pipe, with the second store still to come if there is one. -/
theorem takeRequest_view {r : Request} {answers : CtrlAnswers} {out : Outcome}
    (h : s.Fills t) (hnew : r.isNew)
    (hcmd : ctrlCmd (t.slot (hashId r.id)) answers r = some out) :
    ∃ fd outcome s', s.takeRequest r.id fd outcome = some s' ∧
      (r.freesTwice answers → s'.again = some r.id) ∧
      s'.Fills (t.executed r answers out) := by
  have hheld : ∀ b id, s.pc b = .storeId id → (id, false) ∈ (t.executed r answers out).held := by
    intro b id hpc
    rw [Table.executed, if_pos hnew]
    exact (List.mem_erase_of_ne (by simp)).mpr (h.held b id hpc)
  obtain ⟨hsock, htwice⟩ | ⟨htype, honce, b, fd, owner, hsock⟩ := sock_of_isNew hnew hcmd
  · by_cases hfrees : r.freesTwice answers
    · have hreserve := (h.type _).symm.trans (htwice hfrees)
      refine ⟨0, .notAdded true, _, if_pos hreserve, fun _ => rfl, ?_⟩
      exact h.put rfl (by rw [hsock]; rfl) (by rw [hsock]; exact h.update_id _) hheld
    · refine ⟨0, .refused, _, rfl, fun htwice => absurd htwice hfrees, ?_⟩
      exact h.put rfl (by rw [hsock]; rfl) (by rw [hsock]; exact h.update_id _) hheld
  · have hmade : s.takeRequest r.id fd (.made out.sock.type) =
        s.newFd r.id fd out.sock.type := by
      refine if_neg ?_
      rw [hsock]
      cases b <;> simp [Birth.sock, Birth.type]
    refine ⟨fd, .made out.sock.type, _, hmade.trans (if_pos ((h.type _).symm.trans htype)),
      fun htwice => ?_, h.put rfl rfl (by rw [hsock]; rfl) hheld⟩
    rw [honce] at htwice
    cases htwice

end Fills

end Socket
end GameServer
