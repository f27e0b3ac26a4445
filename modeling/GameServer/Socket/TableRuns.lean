import GameServer.Socket.TableSlots

/-!
# Runs of the socket server

Three things that other threads do at the wrong moment disturb the server.  All of
them are calls of `reserve_id`, which takes a slot as soon as its type says that
it is free and stores the new id afterwards.

* A slot is taken between `force_close` and `clear_closed_event`.  The events of
  a closed socket are recognized by the type and the id of the slot, so that they
  are not cleared.
* A slot is taken, and a request to send to the socket that was there before is
  executed while the slot still has the old id.  The package is queued.
* A slot is taken between the two stores with which `open_socket` and
  `add_udp_socket` free it when `sp_add` fails.  The second one takes it away.

`Table.sockets_lived_iff` says that nothing else can go wrong: as long as none of
them happens, and only then, every slot is free, reserved, or has a socket that
lives the life of `Life.step`, and every event that is left belongs to a socket
that is in the poll or whose events are cleared next.  The last section follows
the first of the three.
-/

namespace GameServer
namespace Socket

open Lib Network

namespace Table

/-! ## A table in order -/

/-- The slots that other threads hold are reserved, each for one of them. -/
structure Holding (t : Table) : Prop where
  reserve : ∀ h ∈ t.held, (t.slot (hashId h.1)).type = .reserve
  named : ∀ h ∈ t.held, h.2 = true → (t.slot (hashId h.1)).id = h.1
  once : (t.held.map fun h => hashId h.1).Nodup

/-- The socket in a slot has been closed, and its events are cleared next. -/
def Closing (t : Table) (i : Nat) : Prop :=
  (t.slot i).type = .invalid ∧ ∃ message, t.doing = .clearing message ∧
    (message.type = .close ∨ message.type = .error) ∧
    (t.slot i).id = message.id

/-- There is a socket that an event may belong to. -/
def Owns (t : Table) (i : Nat) : Prop :=
  (t.slot i).type.isPolled ∨ t.Closing i

/-- Every slot is in order, and so are the events. -/
structure Served (t : Table) : Prop where
  slots : ∀ i, SlotOk (t.slot i)
  holding : t.Holding
  events : (t.ev.filterMap (·.s)).Nodup
  owned : ∀ e ∈ t.ev, ∀ i, e.s = some i → t.Owns i

/-- A slot that is about to be freed once more is free, or has been taken. -/
structure Inv (t : Table) : Prop extends Served t where
  again : ∀ i ∈ t.doing.again,
    (t.slot i).type = .invalid ∨ ∃ h ∈ t.held, hashId h.1 = i

/-- Nothing that disturbs the server. -/
def NoRace (t : Table) : TableAction → Prop
  | .reserve id => hashId id ∉ t.ev.filterMap (·.s)
  | .request r _ =>
    r.isSend → (t.slot (hashId r.id)).type = .reserve →
      (t.slot (hashId r.id)).id ≠ r.id
  | .freeAgain => ∀ i ∈ t.doing.again, (t.slot i).type = .invalid
  | _ => True

instance (t : Table) : DecidablePred t.NoRace
  | .reserve _ => inferInstanceAs (Decidable (_ ∉ _))
  | .request _ _ => inferInstanceAs (Decidable (_ → _ → _ ≠ _))
  | .freeAgain => inferInstanceAs (Decidable (∀ i ∈ t.doing.again, _))
  | .store _ | .clear | .wait _ | .event _ _ => .isTrue trivial

variable {i : Nat} {e : SocketEvent} {t t' : Table} {s : Sock}

theorem mem_filterMap_s {events : List SocketEvent} (he : e ∈ events)
    (hi : e.s = some i) : i ∈ events.filterMap (·.s) :=
  List.mem_filterMap.mpr ⟨e, he, hi⟩

theorem Served.owns (h : t.Served) (hi : i ∈ t.ev.filterMap (·.s)) : t.Owns i := by
  obtain ⟨e, he, hs⟩ := List.mem_filterMap.mp hi
  exact h.owned e he i hs

/-- No event belongs to a slot that is reserved. -/
theorem Served.not_mem_of_reserve (h : t.Served)
    (htype : (t.slot i).type = .reserve) : i ∉ t.ev.filterMap (·.s) := by
  intro hi
  rcases h.owns hi with hpolled | ⟨hinvalid, -⟩
  · simp [htype, SocketType.isPolled] at hpolled
  · simp [htype] at hinvalid

/-- While no events are to be cleared, they belong to sockets in the poll. -/
theorem Served.isPolled (h : t.Served) (hdoing : ∀ message, t.doing ≠ .clearing message)
    (hi : i ∈ t.ev.filterMap (·.s)) : (t.slot i).type.isPolled := by
  refine (h.owns hi).resolve_right ?_
  rintro ⟨-, message, hclearing, -⟩
  exact hdoing message hclearing

/-! ## Events -/

/-- Events that are left: each belongs to a slot that had one before, and the
slot has the same id. -/
structure Leaves (t t' : Table) : Prop where
  sublist : (t'.ev.filterMap (·.s)).Sublist (t.ev.filterMap (·.s))
  owned : ∀ i ∈ t'.ev.filterMap (·.s),
    t'.Owns i ∧ (t'.slot i).id = (t.slot i).id

theorem Leaves.trans {t'' : Table} (h : t.Leaves t') (h' : t'.Leaves t'') : t.Leaves t'' := by
  refine ⟨h'.sublist.trans h.sublist, fun i hi => ?_⟩
  obtain ⟨howns, hid⟩ := h'.owned i hi
  exact ⟨howns, hid.trans (h.owned i (h'.sublist.subset hi)).2⟩

theorem Served.leaves (h : t.Served) : t.Leaves t :=
  ⟨.refl _, fun _ hi => ⟨h.owns hi, rfl⟩⟩

/-- A slot changes.  Either the server does what it did before, or no events were
to be cleared. -/
theorem leaves_update (h : t.Served) (hslot : t'.slot = Function.update t.slot i s)
    (hdoing : t'.doing = t.doing ∨ ∀ message, t.doing ≠ .clearing message)
    (hevents : (t'.ev.filterMap (·.s)).Sublist (t.ev.filterMap (·.s)))
    (hi : i ∈ t'.ev.filterMap (·.s) → t'.Owns i ∧ s.id = (t.slot i).id) :
    t.Leaves t' := by
  refine ⟨hevents, fun j hj => ?_⟩
  by_cases hji : j = i
  · subst hji
    rw [hslot, Function.update_self]
    exact hi hj
  · have hsame : t'.slot j = t.slot j := by
      rw [hslot, Function.update_of_ne hji]
    refine ⟨?_, by rw [hsame]⟩
    rcases h.owns (hevents.subset hj) with hpolled | hclosing
    · exact .inl (by rw [hsame]; exact hpolled)
    · obtain ⟨hinvalid, message, hclearing, hmessage⟩ := hclosing
      rcases hdoing with heq | hnone
      · exact .inr ⟨by rw [hsame]; exact hinvalid, message,
          heq.trans hclearing, by rw [hsame]; exact hmessage⟩
      · exact absurd hclearing (hnone message)

/-- What a step leaves in order. -/
theorem Inv.of_leaves (h : t.Inv) (hleaves : t.Leaves t')
    (hslots : ∀ i, SlotOk (t'.slot i)) (hholding : t'.Holding)
    (hagain : ∀ i ∈ t'.doing.again, (t'.slot i).type = .invalid ∨
      ∃ h ∈ t'.held, hashId h.1 = i) : t'.Inv where
  slots := hslots
  holding := hholding
  events := h.events.sublist hleaves.sublist
  owned := fun _ he i hi => (hleaves.owned i (mem_filterMap_s he hi)).1
  again := hagain

theorem slotOk_update (h : ∀ i, SlotOk (t.slot i)) (hs : SlotOk s) (j : Nat) :
    SlotOk (Function.update t.slot i s j) := by
  by_cases hj : j = i
  · rw [hj, Function.update_self]
    exact hs
  · rw [Function.update_of_ne hj]
    exact h j

/-- A slot changes and stays reserved if it was. -/
theorem Holding.update (h : t.Holding)
    (hslot : t'.slot = Function.update t.slot i s) (hheld : t'.held = t.held)
    (hs : (t.slot i).type = .reserve → s.type = .reserve ∧ s.id = (t.slot i).id) : t'.Holding := by
  have hsame : ∀ x ∈ t.held, (t'.slot (hashId x.1)).type = .reserve ∧
      (t'.slot (hashId x.1)).id = (t.slot (hashId x.1)).id := by
    intro x hx
    have hreserve := h.reserve x hx
    rw [hslot]
    by_cases hxi : hashId x.1 = i
    · rw [hxi, Function.update_self]
      exact hs (hxi ▸ hreserve)
    · rw [Function.update_of_ne hxi]
      exact ⟨hreserve, rfl⟩
  refine ⟨fun x hx => ?_, fun x hx hstored => ?_, hheld ▸ h.once⟩
  · exact (hsame x (hheld ▸ hx)).1
  · rw [(hsame x (hheld ▸ hx)).2]
    exact h.named x (hheld ▸ hx) hstored

/-- The other slots that are held are different ones. -/
theorem Holding.ne_of_mem_erase (h : t.Holding) {x y : Int × Bool}
    (hx : x ∈ t.held) (hy : y ∈ t.held.erase x) :
    y ∈ t.held ∧ hashId y.1 ≠ hashId x.1 := by
  have hnodup : t.held.Nodup := List.Nodup.of_map _ h.once
  obtain ⟨hne, hmem⟩ := (List.Nodup.mem_erase_iff hnodup).mp hy
  refine ⟨hmem, fun heq => hne ?_⟩
  exact List.inj_on_of_nodup_map h.once hmem hx heq

theorem Holding.once_erase (h : t.Holding) (x : Int × Bool) :
    ((t.held.erase x).map fun h => hashId h.1).Nodup :=
  h.once.sublist (List.erase_sublist.map _)

/-! ## Other threads -/

/-- A thread holds a reserved slot that no other thread holds; the rest is held
as before. -/
theorem Inv.hold {x : Int × Bool} {rest : List (Int × Bool)} (h : t.Inv)
    (hslot : t'.slot = Function.update t.slot (hashId x.1) s)
    (hheld : t'.held = x :: rest) (hdoing : t'.doing = t.doing)
    (hleaves : t.Leaves t') (htype : s.type = .reserve) (hslotOk : SlotOk s)
    (hnamed : x.2 = true → s.id = x.1)
    (hrest : ∀ y ∈ rest, y ∈ t.held ∧ hashId y.1 ≠ hashId x.1)
    (honce : (rest.map fun y => hashId y.1).Nodup)
    (hkept : ∀ y ∈ t.held, hashId y.1 ≠ hashId x.1 → y ∈ rest) : t'.Inv := by
  have hother : ∀ y ∈ rest, t'.slot (hashId y.1) = t.slot (hashId y.1) :=
    fun y hy => by rw [hslot, Function.update_of_ne (hrest y hy).2]
  refine h.of_leaves hleaves (fun i => hslot ▸ slotOk_update h.slots hslotOk i) ⟨?_, ?_, ?_⟩ ?_
  · rw [hheld, List.forall_mem_cons]
    refine ⟨by rw [hslot, Function.update_self, htype], fun y hy => ?_⟩
    rw [hother y hy]
    exact h.holding.reserve y (hrest y hy).1
  · rw [hheld, List.forall_mem_cons]
    refine ⟨fun hstored => ?_, fun y hy hstored => ?_⟩
    · rw [hslot, Function.update_self, hnamed hstored]
    · rw [hother y hy]
      exact h.holding.named y (hrest y hy).1 hstored
  · rw [hheld, List.map_cons, List.nodup_cons]
    refine ⟨fun hmem => ?_, honce⟩
    obtain ⟨y, hy, heq⟩ := List.mem_map.mp hmem
    exact (hrest y hy).2 heq
  · intro i hagain
    rw [hdoing] at hagain
    rw [hheld]
    -- the slot may be the one that the socket thread is about to free again
    by_cases hi : i = hashId x.1
    · exact .inr ⟨x, List.mem_cons_self, hi.symm⟩
    · rw [hslot, Function.update_of_ne hi]
      refine (h.again i hagain).imp_right ?_
      rintro ⟨y, hy, rfl⟩
      exact ⟨y, List.mem_cons_of_mem _ (hkept y hy hi), rfl⟩

/-- A compare-and-swap of `reserve_id`. -/
theorem reserve_step {id : Int} (h : t.Inv) (hrace : t.NoRace (.reserve id))
    (hstep : t.step (.reserve id) = some t') : t'.Inv ∧ t.Leaves t' := by
  simp only [Table.step] at hstep
  split_ifs at hstep with htype
  cases hstep
  have hpending := (h.slots (hashId id)).pending_eq (.inl htype)
  have hnew : ∀ x ∈ t.held, hashId x.1 ≠ hashId id := by
    intro x hx heq
    have hreserve := h.holding.reserve x hx
    rw [heq, htype] at hreserve
    cases hreserve
  have hleaves : t.Leaves { t with
      slot := Function.update t.slot (hashId id)
        { t.slot (hashId id) with type := .reserve }
      held := (id, false) :: t.held } :=
    leaves_update h.toServed rfl (.inl rfl) (.refl _) fun hi => absurd hi hrace
  have hslotOk : SlotOk { t.slot (hashId id) with type := .reserve } :=
    .inl ⟨.inr rfl, hpending⟩
  have hnamed : (id, false).2 = true → (t.slot (hashId id)).id = id := by
    simp
  exact ⟨h.hold rfl rfl rfl hleaves rfl hslotOk hnamed
    (fun x hx => ⟨hx, hnew x hx⟩) h.holding.once fun x hx _ => hx, hleaves⟩

/-- The stores behind it. -/
theorem store_step {id : Int} (h : t.Inv) (hstep : t.step (.store id) = some t') :
    t'.Inv ∧ t.Leaves t' := by
  simp only [Table.step] at hstep
  split_ifs at hstep with hheld
  cases hstep
  have hreserve : (t.slot (hashId id)).type = .reserve :=
    h.holding.reserve _ hheld
  have hpending := (h.slots (hashId id)).pending_eq (.inr hreserve)
  have hleaves : t.Leaves { t with
      slot := Function.update t.slot (hashId id) ((t.slot (hashId id)).named id)
      held := (id, true) :: t.held.erase (id, false) } :=
    leaves_update h.toServed rfl (.inl rfl) (.refl _) fun hi =>
      absurd hi (h.not_mem_of_reserve hreserve)
  have htype : ((t.slot (hashId id)).named id).type = .reserve := hreserve
  have hslotOk : SlotOk ((t.slot (hashId id)).named id) :=
    .inl ⟨.inr hreserve, hpending⟩
  have hrest : ∀ x ∈ t.held.erase (id, false),
      x ∈ t.held ∧ hashId x.1 ≠ hashId id :=
    fun x hx => h.holding.ne_of_mem_erase hheld hx
  refine ⟨h.hold rfl rfl rfl hleaves htype hslotOk (fun _ => rfl) hrest
    (h.holding.once_erase _) ?_, hleaves⟩
  intro x hx hne
  refine (List.mem_erase_of_ne ?_).mpr hx
  rintro rfl
  exact hne rfl

/-! ## Requests -/

/-- A socket in the poll is there afterwards, or its events are cleared next. -/
theorem owns_of_polledOrClosed {out : Outcome} (hslot : t'.slot i = out.sock)
    (hout : PolledOrClosed s out)
    (hdoing : out.sock.type = .invalid → t'.doing = .after out.message) :
    t'.Owns i ∧ out.sock.id = s.id := by
  obtain ⟨hid, hpolled | ⟨hinvalid, m, hm, hkind, hmid⟩⟩ := hout
  · exact ⟨.inl (by rw [hslot]; exact hpolled), hid⟩
  · refine ⟨.inr ⟨by rw [hslot]; exact hinvalid, m, ?_, hkind, ?_⟩, hid⟩
    · rw [hdoing hinvalid, hm]
      rfl
    · rw [hslot, hid, hmid]

@[simp] theorem again_after (message : Option Message) : (Doing.after message).again = none := by
  cases message <;> rfl

theorem again_executed (t : Table) (r : Request) (answers : CtrlAnswers)
    (out : Outcome) : (t.executed r answers out).doing.again =
      if r.freesTwice answers then some (hashId r.id) else none := by
  rw [executed]
  dsimp only
  split_ifs
  · rfl
  · exact again_after _

/-- A request for a new socket. -/
theorem request_step_of_isNew {r : Request} {answers : CtrlAnswers} (h : t.Inv)
    (hdoing : t.doing = .polling) (hnew : r.isNew)
    (hstep : t.request r answers = some t') : t'.Inv ∧ t.Leaves t' := by
  rw [request, Option.ite_none_left_eq_some, not_and, not_not] at hstep
  obtain ⟨hheld, hstep⟩ := hstep
  have hmem := hheld hnew
  obtain ⟨out, hout, rfl⟩ := Option.map_eq_some_iff.mp hstep
  have hreserve : (t.slot (hashId r.id)).type = .reserve :=
    h.holding.reserve _ hmem
  have herase : (t.executed r answers out).held = t.held.erase (r.id, true) := if_pos hnew
  -- the other slots that are held
  have hothers : ∀ x ∈ (t.executed r answers out).held, x ∈ t.held ∧
      (t.executed r answers out).slot (hashId x.1) = t.slot (hashId x.1) := by
    intro x hx
    obtain ⟨hx, hne⟩ := h.holding.ne_of_mem_erase hmem (herase ▸ hx)
    exact ⟨hx, Function.update_of_ne hne ..⟩
  have hleaves : t.Leaves (t.executed r answers out) :=
    leaves_update h.toServed rfl (.inr (by simp [hdoing])) (.refl _) fun hi =>
      absurd hi (h.not_mem_of_reserve hreserve)
  refine ⟨h.of_leaves hleaves
    (slotOk_update h.slots (slotOk_of_isNew (h.slots _) hreserve hnew hout))
    ⟨fun x hx => ?_, fun x hx hstored => ?_, ?_⟩ ?_, hleaves⟩
  · rw [(hothers x hx).2]
    exact h.holding.reserve x (hothers x hx).1
  · rw [(hothers x hx).2]
    exact h.holding.named x (hothers x hx).1 hstored
  · rw [herase]
    exact h.holding.once_erase _
  · intro i hagain
    rw [again_executed, Option.mem_def, Option.ite_none_right_eq_some, Option.some.injEq] at hagain
    obtain ⟨htwice, rfl⟩ := hagain
    have hslot : (t.executed r answers out).slot (hashId r.id) = out.sock :=
      Function.update_self ..
    exact .inl (by rw [hslot, type_of_freesTwice hnew htwice hout])

/-- Another request. -/
theorem request_step_of_not_isNew {r : Request} {answers : CtrlAnswers}
    (h : t.Inv) (hdoing : t.doing = .polling) (hnew : ¬ r.isNew)
    (hrace : t.NoRace (.request r answers))
    (hstep : t.request r answers = some t') : t'.Inv ∧ t.Leaves t' := by
  rw [request, if_neg (by simp [hnew])] at hstep
  obtain ⟨out, hout, rfl⟩ := Option.map_eq_some_iff.mp hstep
  obtain ⟨hslot, hreserved, hends⟩ :=
    slot_of_not_isNew (h.slots (hashId r.id)) hnew hrace hout
  have htwice : r.freesTwice answers = false := by
    cases r with
    | bind | listen | openHost | udp => exact absurd rfl hnew
    | start | close | exit | send | sendUdp | setopt | setUdp => rfl
  have hleaves : t.Leaves (t.executed r answers out) := by
    refine leaves_update h.toServed rfl (.inr (by simp [hdoing])) (.refl _) fun hi => ?_
    have hpolled := h.isPolled (by simp [hdoing]) hi
    refine owns_of_polledOrClosed (Function.update_self ..) (hends hpolled) fun _ => ?_
    rw [executed, htwice]
    rfl
  refine ⟨h.of_leaves hleaves (slotOk_update h.slots hslot)
    (h.holding.update rfl (by simp [executed, hnew]) hreserved) ?_, hleaves⟩
  simp [again_executed, htwice]

/-- The slot is freed once more. -/
theorem freeAgain_step (h : t.Inv) (hrace : t.NoRace .freeAgain)
    (hstep : t.step .freeAgain = some t') : t'.Inv ∧ t.Leaves t' := by
  rw [Table.step] at hstep
  split at hstep
  · next i message hdoing =>
    cases hstep
    have htype : (t.slot i).type = .invalid :=
      hrace i (by rw [hdoing]; rfl)
    have hpending := (h.slots i).pending_eq (.inl htype)
    have hleaves : t.Leaves { t with
        slot := Function.update t.slot i { t.slot i with type := .invalid }
        doing := .after message } := by
      refine leaves_update h.toServed rfl (.inr (by simp [hdoing])) (.refl _) fun hi => ?_
      have hpolled := h.isPolled (by simp [hdoing]) hi
      simp [htype, SocketType.isPolled] at hpolled
    refine ⟨h.of_leaves hleaves (slotOk_update h.slots (.inl ⟨.inl rfl, hpending⟩))
      (h.holding.update rfl rfl (by simp [htype])) (by simp), hleaves⟩
  · cases hstep

/-! ## Clearing events -/

@[simp] theorem slot_clearClosedEvent (t : Table) (message : Message) :
    (t.clearClosedEvent message).slot = t.slot := by
  unfold clearClosedEvent
  split_ifs <;> rfl

@[simp] theorem held_clearClosedEvent (t : Table) (message : Message) :
    (t.clearClosedEvent message).held = t.held := by
  unfold clearClosedEvent
  split_ifs <;> rfl

/-- Clearing some events leaves the others. -/
theorem sublist_filterMap_map {f : SocketEvent → SocketEvent}
    (hf : ∀ e, f e = e ∨ (f e).s = none) (events : List SocketEvent) :
    ((events.map f).filterMap (·.s)).Sublist (events.filterMap (·.s)) := by
  induction events with
  | nil => exact .slnil
  | cons e rest ih =>
    rw [List.map_cons]
    rcases hf e with heq | hnone
    · rw [heq, List.filterMap_cons, List.filterMap_cons]
      split
      · exact ih
      · exact ih.cons_cons _
    · rw [List.filterMap_cons_none hnone, List.filterMap_cons]
      split
      · exact ih
      · exact ih.cons _

theorem sublist_clearClosedEvent (t : Table) (message : Message) :
    ((t.clearClosedEvent message).ev.filterMap (·.s)).Sublist (t.ev.filterMap (·.s)) := by
  unfold clearClosedEvent
  split_ifs
  · refine sublist_filterMap_map (fun e => ?_) _
    split
    · exact .inl rfl
    · split_ifs
      · exact .inr rfl
      · exact .inl rfl
  · exact .refl _

/-- The event of a slot is left exactly when the slot is not that of the socket
that was closed. -/
theorem mem_clearClosedEvent_iff {message : Message} (hi : e.s = some i) :
    e ∈ (t.clearClosedEvent message).ev ↔ e ∈ t.ev ∧
      ¬ ((message.type = .close ∨ message.type = .error) ∧
        (t.slot i).type = .invalid ∧ (t.slot i).id = message.id) := by
  unfold clearClosedEvent
  split_ifs with hkind
  · simp only [hkind, true_and]
    constructor
    · intro he
      obtain ⟨e', he', rfl⟩ := List.mem_map.mp he
      split at hi
      · next hnone =>
        rw [hnone] at hi
        cases hi
      · next j hj =>
        split_ifs at hi with hclosed
        rw [hj] at hi
        cases hi
        rw [if_neg hclosed]
        exact ⟨he', hclosed⟩
    · rintro ⟨he, hopen⟩
      refine List.mem_map.mpr ⟨e, he, ?_⟩
      rw [hi]
      exact if_neg hopen
  · simp [hkind]

theorem clear_step (h : t.Inv) (hstep : t.step .clear = some t') : t'.Inv ∧ t.Leaves t' := by
  rw [Table.step] at hstep
  split at hstep
  · next message hdoing =>
    cases hstep
    have hsublist := sublist_clearClosedEvent t message
    have hleaves : t.Leaves
        { t.clearClosedEvent message with doing := .polling } := by
      refine ⟨hsublist, fun i hi => ?_⟩
      obtain ⟨e, he, hs⟩ := List.mem_filterMap.mp hi
      obtain ⟨hmem, hopen⟩ := (mem_clearClosedEvent_iff hs).mp he
      simp only [slot_clearClosedEvent, and_true]
      refine .inl ((h.owned e hmem i hs).elim ?_ ?_)
      · intro hpolled
        simpa using hpolled
      · rintro ⟨hinvalid, message', hclearing, hkind, hid⟩
        rw [hdoing, Doing.clearing.injEq] at hclearing
        subst hclearing
        exact absurd ⟨hkind, hinvalid, hid⟩ hopen
    refine ⟨h.of_leaves hleaves ?_ ⟨?_, ?_, ?_⟩ (by simp [Doing.again]), hleaves⟩
    · simpa using h.slots
    · simpa using h.holding.reserve
    · simpa using h.holding.named
    · simpa using h.holding.once
  · cases hstep

/-! ## Events -/

/-- What `report_accept` does: a free slot gets a socket. -/
theorem reportAccept_step {accepted : Option (Int × Option Int)} (h : t.Inv)
    (hdoing : t.doing = .polling) (hstep : t.reportAccept i accepted = some t') :
    t'.Inv ∧ t.Leaves t' := by
  unfold reportAccept at hstep
  split at hstep
  · cases hstep
    exact ⟨h, h.leaves⟩
  · cases hstep
    exact ⟨h, h.leaves⟩
  · next fd id =>
    dsimp only at hstep
    split_ifs at hstep with htype
    rw [not_not] at htype
    obtain ⟨out, hout, rfl⟩ := Option.map_eq_some_iff.mp hstep
    have hslot : SlotOk out.sock := by
      rw [sock_of_acceptSocket hout]
      exact .inr (lived_birth .accepted id fd (t.slot i).owner)
    have hleaves : t.Leaves
        { t with slot := Function.update t.slot (hashId id) out.sock } := by
      refine leaves_update h.toServed rfl (.inl rfl) (.refl _) fun hi => ?_
      have hpolled := h.isPolled (by simp [hdoing]) hi
      simp [htype, SocketType.isPolled] at hpolled
    refine ⟨h.of_leaves hleaves (slotOk_update h.slots hslot)
      (h.holding.update rfl rfl (by simp [htype])) ?_, hleaves⟩
    simp [hdoing, Doing.again]

/-- The event that is taken is left out or kept. -/
theorem sublist_eventsAfter (s : Sock) (e : SocketEvent)
    (rest : List SocketEvent) (message : Option Message) :
    ((eventsAfter s e rest message).filterMap (·.s)).Sublist ((e :: rest).filterMap (·.s)) := by
  have hrest : (rest.filterMap (·.s)).Sublist ((e :: rest).filterMap (·.s)) :=
    (List.sublist_cons_self e rest).filterMap _
  unfold eventsAfter
  split_ifs
  · exact hrest
  · exact .refl _
  · rw [List.filterMap_cons, List.filterMap_cons]
  · exact hrest

/-- A socket that is closed by its event has no event left, or events are cleared
next. -/
theorem afterEvent_of_closed {rest : List SocketEvent} {out : Outcome}
    (hs : PolledOrClosed s out) (hi : i ∉ rest.filterMap (·.s))
    (hleft : i ∈ (eventsAfter s e rest out.message).filterMap (·.s))
    (htype : out.sock.type = .invalid) :
    Doing.afterEvent s out.message = .after out.message := by
  refine if_neg ?_
  rintro (hconnecting | hudp)
  · rw [eventsAfter, if_pos (.inl hconnecting)] at hleft
    exact hi hleft
  · obtain ⟨-, hpolled | ⟨-, m, hm, hkind, -⟩⟩ := hs
    · simp [htype, SocketType.isPolled] at hpolled
    · rw [hm] at hudp
      rcases hkind with hkind | hkind
      · simp [hkind] at hudp
      · simp [hkind] at hudp

/-- What taking an event does. -/
theorem takeEvent_step {answers : EventAnswers}
    {accepted : Option (Int × Option Int)} (h : t.Inv)
    (hdoing : t.doing = .polling)
    (hstep : t.takeEvent answers accepted = some t') :
    t'.Inv ∧ t.Leaves t' := by
  unfold takeEvent at hstep
  split at hstep
  · cases hstep
  · next e rest hev =>
    have hrest : (rest.filterMap (·.s)).Sublist (t.ev.filterMap (·.s)) := by
      rw [hev]
      exact (List.sublist_cons_self e rest).filterMap _
    -- the event is left out
    have hskip : Inv { t with ev := rest } ∧ t.Leaves { t with ev := rest } :=
      have hleaves : t.Leaves { t with ev := rest } :=
        ⟨hrest, fun _ hi => ⟨h.owns (hrest.subset hi), rfl⟩⟩
      ⟨h.of_leaves hleaves h.slots
        ⟨h.holding.reserve, h.holding.named, h.holding.once⟩ h.again, hleaves⟩
    split at hstep
    · cases hstep
      exact hskip
    · next i hi =>
      dsimp only at hstep
      split_ifs at hstep with hlisten
      · obtain ⟨hinv, hleaves⟩ := reportAccept_step hskip.1 hdoing hstep
        exact ⟨hinv, hskip.2.trans hleaves⟩
      · obtain ⟨out, hout, rfl⟩ := Option.map_eq_some_iff.mp hstep
        have hpolled : (t.slot i).type.isPolled := by
          refine h.isPolled (by simp [hdoing]) ?_
          rw [hev]
          exact mem_filterMap_s List.mem_cons_self hi
        have hends := (acts_of_pollEvent hout).polledOrClosed hpolled
        have hslot : SlotOk out.sock :=
          .inr (((h.slots i).lived hpolled).act
            (a := .event e.read e.write answers) (fun _ _ _ _ => hpolled) hout)
        have honce : i ∉ rest.filterMap (·.s) := by
          have hnodup := h.events
          rw [hev, List.filterMap_cons, hi] at hnodup
          exact (List.nodup_cons.mp hnodup).1
        have hleaves : t.Leaves { t with
            slot := Function.update t.slot i out.sock
            ev := eventsAfter (t.slot i) e rest out.message
            doing := .afterEvent (t.slot i) out.message } := by
          refine leaves_update h.toServed rfl (.inr (by simp [hdoing]))
            (hev ▸ sublist_eventsAfter ..) fun hleft => ?_
          exact owns_of_polledOrClosed (Function.update_self ..) hends
            (afterEvent_of_closed hends honce hleft)
        refine ⟨h.of_leaves hleaves (slotOk_update h.slots hslot)
          (h.holding.update rfl rfl fun htype => ?_) ?_, hleaves⟩
        · simp [htype, SocketType.isPolled] at hpolled
        · dsimp only
          rw [Doing.afterEvent]
          split_ifs
          · simp [Doing.again]
          · simp

/-! ## Steps and runs -/

/-- What a step does that is not a call of `sp_wait`. -/
theorem step_leaves {a : TableAction} (h : t.Inv) (hrace : t.NoRace a)
    (hwait : ∀ events, a ≠ .wait events) (hstep : t.step a = some t') : t'.Inv ∧ t.Leaves t' := by
  cases a with
  | reserve id => exact reserve_step h hrace hstep
  | store id => exact store_step h hstep
  | request r answers =>
    rw [Table.step, Option.ite_none_right_eq_some] at hstep
    by_cases hnew : r.isNew
    · exact request_step_of_isNew h hstep.1 hnew hstep.2
    · exact request_step_of_not_isNew h hstep.1 hnew hrace hstep.2
  | freeAgain => exact freeAgain_step h hrace hstep
  | clear => exact clear_step h hstep
  | wait events => exact absurd rfl (hwait events)
  | event answers accepted =>
    rw [Table.step, Option.ite_none_right_eq_some] at hstep
    exact takeEvent_step h hstep.1 hstep.2

theorem Inv.step {a : TableAction} (h : t.Inv) (hrace : t.NoRace a)
    (hstep : t.step a = some t') : t'.Inv := by
  cases a with
  | wait events =>
    rw [Table.step, Option.ite_none_right_eq_some] at hstep
    obtain ⟨⟨hdoing, -, hnodup, hpolled⟩, hstep⟩ := hstep
    cases hstep
    exact
      { slots := h.slots
        holding := ⟨h.holding.reserve, h.holding.named, h.holding.once⟩
        events := hnodup
        owned := fun e he i hi => .inl (hpolled e he i hi)
        again := h.again }
  | reserve | store | request | freeAgain | clear | event =>
    exact (step_leaves h hrace (by simp) hstep).1

/-- A race is seen at once. -/
theorem Inv.noRace {a : TableAction} (h : t.Inv) (hstep : t.step a = some t')
    (hserved : t'.Served) : t.NoRace a := by
  cases a with
  | reserve id =>
    intro hi
    simp only [Table.step] at hstep
    split_ifs at hstep with htype
    cases hstep
    refine hserved.not_mem_of_reserve (i := hashId id) ?_ hi
    dsimp only
    rw [Function.update_self]
  | request r answers =>
    intro hsend htype hid
    rw [Table.step, Option.ite_none_right_eq_some] at hstep
    obtain ⟨-, hstep⟩ := hstep
    rw [request, Option.ite_none_left_eq_some] at hstep
    obtain ⟨out, hout, rfl⟩ := Option.map_eq_some_iff.mp hstep.2
    obtain ⟨hreserve, hne⟩ := pending_of_send_reserve hsend htype hid hout
    have hslot : (t.executed r answers out).slot (hashId r.id) = out.sock :=
      Function.update_self ..
    have hok := hserved.slots (hashId r.id)
    rw [hslot] at hok
    exact hne (hok.pending_eq (.inr hreserve))
  | freeAgain =>
    intro i hagain
    rcases h.again i hagain with hfree | ⟨x, hx, hxi⟩
    · exact hfree
    · rw [Table.step] at hstep
      split at hstep
      · next j message hdoing =>
        cases hstep
        obtain rfl : j = i := by simpa [hdoing, Doing.again] using hagain
        have hreserve := hserved.holding.reserve x hx
        dsimp only at hreserve
        rw [hxi, Function.update_self] at hreserve
        cases hreserve
      · cases hstep
  | store | clear | wait | event => trivial

theorem inv_create (memory : Nat → Sock) : (create memory).Inv where
  slots := fun _ => .inl ⟨.inl rfl, rfl⟩
  holding := ⟨by simp [create], by simp [create], .nil⟩
  events := .nil
  owned := by simp [create]
  again := by simp [create, Doing.again]

/-- **The sockets of a running server live as `Life.step` says.**  In every state
of a run every slot is free or reserved, with nothing queued, or has a socket that
began and went on as a life, with events only while its descriptor was in the
poll; a slot that another thread holds is reserved, and for that thread only;
every event that is left belongs to a socket that is polled or whose events are
cleared next, and no two belong to the same one.  This is so exactly when none of
the three races happens. -/
theorem sockets_lived_iff {memory : Nat → Sock} {actions : List TableAction}
    {t : Table} (hrun : runSteps step (create memory) actions = some t) :
    (∀ first rest r, actions = first ++ rest →
      runSteps step (create memory) first = some r → r.Served) ↔
    RunMeets step NoRace (create memory) actions :=
  forall_reached_iff_runMeets (fun _ _ _ h hrace hstep => h.step hrace hstep)
    (fun _ _ _ h hstep hserved => h.noRace hstep hserved)
    (fun _ h => h.toServed) (inv_create memory) hrun

/-- A connection is opened and can be read and written, but the read fails.
Another slot is reserved before the event is cleared. -/
def oneConnectionRun : List TableAction :=
  [.reserve 1, .store 1,
    .request (.openHost 1 80 0 [104]) { connect := .inProgress 5 true },
    .wait [⟨some 1, false, true⟩], .event {} none,
    .wait [⟨some 1, true, true⟩], .event { read := .failed } none,
    .reserve 2, .clear]

theorem sockets_lived_iff_one_connection :
    ∃ t, runSteps step (create fun _ => Birth.udp.sock 0 0 0)
        oneConnectionRun = some t ∧
      t.ev = [⟨none, false, true⟩] ∧ t.held = [(2, false)] ∧
      ∀ first rest r, oneConnectionRun = first ++ rest →
        runSteps step (create fun _ => Birth.udp.sock 0 0 0) first = some r →
        r.Served := by
  obtain ⟨t, hrun⟩ : ∃ t, runSteps step (create fun _ => Birth.udp.sock 0 0 0)
      oneConnectionRun = some t := ⟨_, rfl⟩
  have hraces : RunMeets step NoRace (create fun _ => Birth.udp.sock 0 0 0)
      oneConnectionRun := by
    decide
  refine ⟨t, hrun, ?_, ?_, (sockets_lived_iff hrun).mpr hraces⟩
  · cases hrun
    rfl
  · cases hrun
    rfl

theorem leaves_of_run {actions : List TableAction} (h : t.Inv)
    (hraces : RunMeets step NoRace t actions)
    (hwait : ∀ events, .wait events ∉ actions)
    (hrun : runSteps step t actions = some t') : t.Leaves t' := by
  induction actions generalizing t with
  | nil =>
    cases hrun
    exact h.leaves
  | cons a rest ih =>
    obtain ⟨t₁, hstep, hrest⟩ := runSteps_cons_eq_some_iff.mp hrun
    obtain ⟨hinv, hleaves⟩ := step_leaves h hraces.1
      (fun events ha => hwait events (by simp [ha])) hstep
    exact hleaves.trans (ih hinv (hraces.2 t₁ hstep)
      (fun events ha => hwait events (List.mem_cons_of_mem _ ha)) hrest)

/-- **An event reaches the socket it was reported for.**  Without a race, from one
call of `sp_wait` to the next, an event that is left belongs to a slot that had
one at the beginning and has kept its id, however many sockets were closed and
slots reserved in the meantime.  The socket is still polled, or has just been
closed and its events are cleared next. -/
theorem events_keep_socket {memory : Nat → Sock}
    {before after : List TableAction} {t₀ t : Table}
    (hraces : RunMeets step NoRace (create memory) (before ++ after))
    (hbefore : runSteps step (create memory) before = some t₀)
    (hafter : runSteps step t₀ after = some t)
    (hwait : ∀ events, .wait events ∉ after) :
    ∀ e ∈ t.ev, ∀ i, e.s = some i → i ∈ t₀.ev.filterMap (·.s) ∧ (t.slot i).id = (t₀.slot i).id ∧
      ((t.slot i).type.isPolled ∨ t.Closing i) := by
  obtain ⟨hraces₀, hraces₁⟩ := runMeets_append.mp hraces
  have hinv : t₀.Inv :=
    runSteps_invariant_of_meets (fun _ _ _ h ha hstep => h.step ha hstep)
      (inv_create memory) hraces₀ hbefore
  have hleaves := leaves_of_run hinv (hraces₁ t₀ hbefore) hwait hafter
  intro e he i hi
  obtain ⟨howns, hid⟩ := hleaves.owned i (mem_filterMap_s he hi)
  exact ⟨hleaves.sublist.subset (mem_filterMap_s he hi), hid, howns⟩

/-- Two sockets have events. -/
def twoEventsRun : List TableAction :=
  [.reserve 1, .store 1, .request (.bind 1 5 0) {}, .clear, .reserve 2,
    .store 2, .request (.bind 2 6 0) {}, .clear,
    .wait [⟨some 1, true, false⟩, ⟨some 2, true, false⟩]]

/-- One of the two is closed and its slot is reserved again. -/
theorem events_keep_socket_one_closed :
    ∃ t₀ t : Table, runSteps step (create fun _ => Birth.udp.sock 0 0 0) twoEventsRun = some t₀ ∧
      runSteps step t₀ [.request (.close 1 0) {}, .clear, .reserve (1 + maxSocket)] = some t ∧
      t.ev.filterMap (·.s) = [2] ∧ (t.slot 2).id = (t₀.slot 2).id := by
  obtain ⟨t₀, hbefore⟩ : ∃ t₀, runSteps step
      (create fun _ => Birth.udp.sock 0 0 0) twoEventsRun = some t₀ := ⟨_, rfl⟩
  obtain ⟨t, hafter⟩ : ∃ t, runSteps step t₀
      [.request (.close 1 0) {}, .clear, .reserve (1 + maxSocket)] = some t := by
    cases hbefore
    exact ⟨_, rfl⟩
  have hraces : RunMeets step NoRace (create fun _ => Birth.udp.sock 0 0 0) (twoEventsRun ++
        [.request (.close 1 0) {}, .clear, .reserve (1 + maxSocket)]) := by
    decide
  have hkeeps := events_keep_socket hraces hbefore hafter (by simp)
  have hev : t.ev = [⟨none, true, false⟩, ⟨some 2, true, false⟩] := by
    cases hbefore
    cases hafter
    rfl
  refine ⟨t₀, t, hbefore, hafter, by rw [hev]; rfl, ?_⟩
  exact (hkeeps ⟨some 2, true, false⟩ (by simp [hev]) 2 rfl).2.1

/-! ## A race -/

/-- Reading from a slot that is only reserved: there is no descriptor, and the
assertion of `force_close` fails. -/
theorem pollEvent_of_reserve_read (htype : s.type = .reserve) (write : Bool)
    {answers : EventAnswers} (hread : answers.read = .failed)
    (hrecv : answers.recv = .failed) :
    pollEvent s true write answers = none := by
  have hclose : ∀ calls, closeWith s calls .error = none := by
    intro calls
    simp [closeWith, forceClose, htype]
  have htcp : forwardMessageTcp s .failed = none := by
    unfold forwardMessageTcp
    cases s.p with
    | size sz => exact hclose _
    | udpAddress address => rfl
  rw [pollEvent.eq_def, htype, hread, hrecv]
  cases s.protocol with
  | tcp => exact htcp
  | udp => exact hclose _
  | udpv6 => exact hclose _

/-- Writing to it: nothing is queued, and only the event for writing is
disabled. -/
theorem pollEvent_of_reserve_write (htype : s.type = .reserve)
    (hempty : sendBufferEmpty s) (write : Bool) (answers : EventAnswers) :
    ∃ calls, pollEvent s false write answers = some ⟨s, calls, none⟩ := by
  obtain ⟨owner, high, low, wbSize, fd, id, protocol, type, p⟩ := s
  obtain ⟨rfl, rfl⟩ := hempty
  dsimp only at htype
  subst htype
  cases write with
  | false => exact ⟨_, rfl⟩
  | true => cases protocol <;> exact ⟨_, rfl⟩

theorem takeEvent_cons {rest : List SocketEvent} (hev : t.ev = e :: rest)
    (hi : e.s = some i) (hlisten : (t.slot i).type ≠ .listen)
    (answers : EventAnswers) (accepted : Option (Int × Option Int)) :
    t.takeEvent answers accepted = (pollEvent (t.slot i) e.read e.write answers).map fun out =>
        { t with
          slot := Function.update t.slot i out.sock
          ev := eventsAfter (t.slot i) e rest out.message
          doing := .afterEvent (t.slot i) out.message } := by
  unfold takeEvent
  rw [hev]
  dsimp only
  rw [hi]
  dsimp only
  rw [if_neg hlisten]

theorem step_clear {message : Message} (hdoing : t.doing = .clearing message) :
    t.step .clear =
      some { t.clearClosedEvent message with doing := .polling } := by
  simp only [Table.step, hdoing]

/-- **An event that is not cleared.**  Whatever closed a socket: if another thread
takes its slot before events are cleared, an event of the closed socket stays.
When it is taken while the slot is still reserved, and the socket could be read,
then the read fails because there is no descriptor, and the server stops at the
assertion of `force_close`.  If it could only be written, nothing happens. -/
theorem stale_event_after_reservation {t : Table} {message : Message}
    {e : SocketEvent} {i : Nat} {new : Int}
    (hdoing : t.doing = .clearing message)
    (htype : (t.slot i).type = .invalid) (hnew : hashId new = i)
    (he : e ∈ t.ev) (hi : e.s = some i) :
    ∃ t₁ t₂, t.step (.reserve new) = some t₁ ∧ t₁.step .clear = some t₂ ∧
      e ∈ t₂.ev ∧ (t₂.slot i).type = .reserve ∧
      ∀ (t₃ : Table) (rest : List SocketEvent), t₃.doing = .polling →
        t₃.ev = e :: rest → (t₃.slot i).type = .reserve →
        ∀ (answers : EventAnswers) (accepted : Option (Int × Option Int)),
          (e.read = true → answers.read = .failed → answers.recv = .failed →
            t₃.step (.event answers accepted) = none) ∧
          (e.read = false → sendBufferEmpty (t₃.slot i) → t₃.step (.event answers accepted) =
              some { t₃ with ev := rest }) := by
  subst hnew
  have hreserve : t.step (.reserve new) = some { t with
      slot := Function.update t.slot (hashId new)
        { t.slot (hashId new) with type := .reserve }
      held := (new, false) :: t.held } := by
    simp only [Table.step, htype, if_true]
  refine ⟨_, _, hreserve, step_clear hdoing, ?_, ?_, ?_⟩
  · -- the slot is not free any more
    refine (mem_clearClosedEvent_iff hi).mpr ⟨he, ?_⟩
    rintro ⟨-, hfree, -⟩
    dsimp only at hfree
    rw [Function.update_self] at hfree
    cases hfree
  · simp
  · intro t₃ rest hpolling hev hslot answers accepted
    have htake := takeEvent_cons hev hi (by simp [hslot]) answers accepted
    rw [Table.step, if_pos hpolling, htake]
    refine ⟨fun hread hfailed hrecv => ?_, fun hread hempty => ?_⟩
    · rw [hread, pollEvent_of_reserve_read hslot e.write hfailed hrecv]
      rfl
    · obtain ⟨calls, hpoll⟩ :=
        pollEvent_of_reserve_write hslot hempty e.write answers
      rw [hread, hpoll, Option.map_some]
      simp [eventsAfter, hread, Doing.afterEvent, hslot, Doing.after, hpolling]

/-- A connection is opened, can be read, and is closed on request. -/
def closedOnRequestRun : List TableAction :=
  [.reserve 1, .store 1,
    .request (.openHost 1 80 0 [104]) { connect := .connected 5 true none },
    .clear, .wait [⟨some 1, true, false⟩], .request (.close 1 0) {}]

/-- Its slot is taken before the event is cleared, and the server stops. -/
theorem stale_event_after_reservation_one_socket :
    ∃ t t₁ t₂ : Table, runSteps step (create fun _ => Birth.udp.sock 0 0 0)
        closedOnRequestRun = some t ∧
      t.step (.reserve (1 + maxSocket)) = some t₁ ∧
      t₁.step .clear = some t₂ ∧ ⟨some 1, true, false⟩ ∈ t₂.ev ∧
      t₂.step (.event { read := .failed, recv := .failed } none) = none := by
  obtain ⟨t, hrun⟩ : ∃ t, runSteps step (create fun _ => Birth.udp.sock 0 0 0)
      closedOnRequestRun = some t := ⟨_, rfl⟩
  obtain ⟨hdoing, hfree, hev⟩ : t.doing = .clearing ⟨.close, 1, 0, 0, .null⟩ ∧
        (t.slot 1).type = .invalid ∧ t.ev = [⟨some 1, true, false⟩] := by
    cases hrun
    exact ⟨rfl, rfl, rfl⟩
  have hnew : hashId (1 + maxSocket) = 1 := by decide
  obtain ⟨t₁, t₂, hreserve, hclear, hstays, htype, htaken⟩ :=
    stale_event_after_reservation (e := ⟨some 1, true, false⟩) hdoing hfree hnew (by simp [hev]) rfl
  refine ⟨t, t₁, t₂, hrun, hreserve, hclear, hstays, ?_⟩
  refine (htaken t₂ [] ?_ ?_ htype _ _).1 rfl rfl rfl
  · cases hrun
    cases hreserve
    cases hclear
    rfl
  · cases hrun
    cases hreserve
    cases hclear
    rfl

end Table

end Socket
end GameServer
