import GameServer.Timer.GameTimer

/-!
# `GameTimer` is a map from keys to deadlines

The reference model keeps one entry for each key: a deadline and a callback.
Adding a timer overwrites the entry of its key, removing a timer drops it, and
an entry fires once, when the clock has reached its deadline and before the
clock goes on.

`GameTimer` simulates this model although its wheel keeps the nodes of removed
and replaced timers: a node counts only as long as its handle leads to a
context.  The invariant says that handles are never given twice, that the two
maps agree, and that no dispatched handle is left in them.
-/

namespace GameServer
namespace Gametimer

open Lib

variable {κ ρ : Type*}

/-! ## The reference model -/

/-- What the reference model keeps for a key. -/
structure RefEntry (κ ρ : Type*) where
  key : TimerKey
  deadline : Nat
  callback : κ
  queue : ρ

/-- The clock, the entries in the order of their addition, and what has
fired. -/
structure RefTimer (κ ρ : Type*) where
  clock : Nat
  entries : List (RefEntry κ ρ)
  fired : List (TimerKey × κ × ρ)

/-- The operations of the reference model. -/
inductive RefAction (κ ρ : Type*) where
  | add (key : TimerKey) (delay : Delay) (callback : κ) (queue : ρ)
  | remove (key : TimerKey)
  | tick
  | fire

namespace RefTimer

def init : RefTimer κ ρ := ⟨0, [], []⟩

/-- The entries of all other keys. -/
def drop (r : RefTimer κ ρ) (key : TimerKey) : List (RefEntry κ ρ) :=
  r.entries.filter fun entry => entry.key ≠ key

/-- One operation.  The clock does not go on while an entry is due; of several
due entries the one added first fires. -/
def step (r : RefTimer κ ρ) : RefAction κ ρ → Option (RefTimer κ ρ)
  | .add key delay callback queue =>
    some { r with
      entries := r.drop key ++
        [⟨key, r.clock + delay.ticks, callback, queue⟩] }
  | .remove key => some { r with entries := r.drop key }
  | .tick =>
    if r.entries.all fun entry => r.clock < entry.deadline then
      some { r with clock := r.clock + 1 }
    else
      none
  | .fire =>
    (r.entries.find? fun entry => entry.deadline = r.clock).map fun entry =>
      { r with
        entries := r.drop entry.key
        fired := r.fired ++ [(entry.key, entry.callback, entry.queue)] }

end RefTimer

/-! ## The invariant -/

namespace GameTimer

/-- Handles are the numbers of the calls that created them; a handle in the
context map leads to a live context, of which it is the only owner; the two
maps agree; and a dispatched handle is in none of them. -/
structure Inv (s : GameTimer κ ρ) : Prop where
  wheel : s.wheel.Inv
  counter : s.dwCounter.toNat = s.wheel.added.length
  handle_le : ∀ a ∈ s.wheel.added,
    a.event.handle.toNat ≤ s.wheel.added.length
  handles_nodup : (s.wheel.added.map fun a => a.event.handle).Nodup
  registered : ∀ handle address, s.contextMap handle = some address →
    (∃ a ∈ s.wheel.added, a.event = ⟨handle, address⟩) ∧
      ∃ ctx, s.heap address = some ctx
  owner : ∀ handle handle' address, s.contextMap handle = some address →
    s.contextMap handle' = some address → handle = handle'
  keys : ∀ key handle, s.timerKeyMap key = some handle ↔
    ∃ ctx, s.context handle = some ctx ∧ ctx.timerKey = key
  dispatched : ∀ p ∈ s.wheel.dispatched, s.contextMap p.2.handle = none

theorem inv_construct : (construct : GameTimer κ ρ).Inv where
  wheel := WheelState.inv_fresh
  counter := rfl
  handle_le := by
    intro a ha
    cases ha
  handles_nodup := List.nodup_nil
  registered := by
    intro handle address h
    cases h
  owner := by
    intro handle handle' address h
    cases h
  keys := by
    intro key handle
    constructor
    · intro h
      cases h
    · rintro ⟨ctx, hctx, -⟩
      cases hctx
  dispatched := by
    intro p hp
    cases hp

/-- The entry the reference model keeps for a node of the wheel, if the node's
handle still leads to a context. -/
def entryOf (s : GameTimer κ ρ) (p : Nat × TimerEvent) :
    Option (RefEntry κ ρ) :=
  (s.context p.2.handle).map fun ctx =>
    ⟨ctx.timerKey, p.1, ctx.stCallback, ctx.rstQueue⟩

/-- The entries of all nodes ever added, in the order of addition. -/
def entries (s : GameTimer κ ρ) : List (RefEntry κ ρ) :=
  s.wheel.deadlines.filterMap s.entryOf

variable {s s' : GameTimer κ ρ} {a : Addition TimerEvent} {address : Address}
  {handle : UInt32} {key : TimerKey}

/-- Two nodes with the same handle carry the same event. -/
theorem Inv.event_eq (h : s.Inv) {b : Addition TimerEvent}
    (ha : a ∈ s.wheel.added) (hb : b ∈ s.wheel.added)
    (hhandle : a.event.handle = b.event.handle) : a.event = b.event := by
  have hab := List.inj_on_of_nodup_map h.handles_nodup ha hb hhandle
  rw [hab]

theorem Inv.context_of_contextMap (h : s.Inv) (hmap : s.contextMap handle = some address) :
    ∃ ctx, s.context handle = some ctx := by
  obtain ⟨-, ctx, hctx⟩ := h.registered handle address hmap
  exact ⟨ctx, by rw [context, hmap, Option.bind_some, hctx]⟩

theorem context_of_contextMap_none (hmap : s.contextMap handle = none) :
    s.context handle = none := by
  rw [context, hmap, Option.bind_none]

/-! ## Removing a handle -/

/-- What `_RemoveTimerHandle` leaves of the timer that had the handle. -/
structure Removed (s s' : GameTimer κ ρ) (handle : UInt32) : Prop where
  wheel : s'.wheel = s.wheel
  counter : s'.dwCounter = s.dwCounter
  pushed : s'.pushed = s.pushed
  contextMap : ∀ h, s'.contextMap h = if h = handle then none else s.contextMap h
  context : ∀ h, s'.context h = if h = handle then none else s.context h

section DropHandle

variable {handle : UInt32} {address : Address} {ctx : TimerContext κ ρ}

theorem contextMap_dropHandle (key : TimerKey) (handle' : UInt32) :
    (s.dropHandle handle address key).contextMap handle' =
      if handle' = handle then none else s.contextMap handle' :=
  Function.update_apply s.contextMap handle none handle'

theorem heap_dropHandle_of_ne (s : GameTimer κ ρ) (handle : UInt32)
    (key : TimerKey) {address' : Address} (hne : address' ≠ address) :
    (s.dropHandle handle address key).heap address' = s.heap address' := by
  show Function.update s.heap address none address' = s.heap address'
  rw [Function.update_of_ne hne]

/-- The deleted context belongs to no other handle. -/
theorem Inv.address_ne_of_handle_ne (h : s.Inv)
    (hmap : s.contextMap handle = some address) {handle' : UInt32}
    {address' : Address} (hmap' : s.contextMap handle' = some address')
    (hne : handle' ≠ handle) : address' ≠ address := by
  rintro rfl
  exact hne (h.owner handle' handle address' hmap' hmap)

theorem Inv.context_dropHandle (h : s.Inv)
    (hmap : s.contextMap handle = some address) (key : TimerKey)
    (handle' : UInt32) :
    (s.dropHandle handle address key).context handle' =
      if handle' = handle then none else s.context handle' := by
  rw [context, contextMap_dropHandle]
  split_ifs with heq
  · rfl
  · rw [context]
    cases hmap' : s.contextMap handle' with
    | none => rfl
    | some address' =>
      exact heap_dropHandle_of_ne s handle key (h.address_ne_of_handle_ne hmap hmap' heq)

/-- Exactly the key of the deleted context is taken out of the key map. -/
theorem Inv.keys_dropHandle (h : s.Inv) (hmap : s.contextMap handle = some address)
    (hcontext : s.context handle = some ctx) (key : TimerKey)
    (handle' : UInt32) :
    (s.dropHandle handle address ctx.timerKey).timerKeyMap key = some handle' ↔
      ∃ ctx', (s.dropHandle handle address ctx.timerKey).context handle' =
        some ctx' ∧ ctx'.timerKey = key := by
  rw [h.context_dropHandle hmap]
  show Function.update s.timerKeyMap ctx.timerKey none key = some handle' ↔ _
  rw [Function.update_apply]
  split_ifs with hkey heq heq
  · simp
  · -- another context with this key would share the key's handle
    constructor
    · intro hnone
      cases hnone
    · rintro ⟨ctx', hctx', hkey'⟩
      have h₁ := (h.keys key handle').mpr ⟨ctx', hctx', hkey'⟩
      have h₂ := (h.keys key handle).mpr ⟨ctx, hcontext, hkey.symm⟩
      exact (heq (Option.some.inj (h₁.symm.trans h₂))).elim
  · constructor
    · intro hsome
      obtain ⟨ctx', hctx', hkey'⟩ := (h.keys key handle').mp hsome
      rw [heq, hcontext] at hctx'
      cases hctx'
      exact (hkey hkey'.symm).elim
    · rintro ⟨ctx', hctx', -⟩
      cases hctx'
  · exact h.keys key handle'

theorem Inv.dropHandle (h : s.Inv) (hmap : s.contextMap handle = some address)
    (hcontext : s.context handle = some ctx) :
    (s.dropHandle handle address ctx.timerKey).Inv where
  wheel := h.wheel
  counter := h.counter
  handle_le := h.handle_le
  handles_nodup := h.handles_nodup
  registered := by
    intro handle' address' hmap'
    rw [contextMap_dropHandle] at hmap'
    split_ifs at hmap' with heq
    obtain ⟨hadded, ctx', hctx'⟩ := h.registered handle' address' hmap'
    have hheap := heap_dropHandle_of_ne s handle ctx.timerKey
      (h.address_ne_of_handle_ne hmap hmap' heq)
    exact ⟨hadded, ctx', hheap.trans hctx'⟩
  owner := by
    intro h₁ h₂ address' hmap₁ hmap₂
    rw [contextMap_dropHandle] at hmap₁ hmap₂
    split_ifs at hmap₁ hmap₂
    exact h.owner h₁ h₂ address' hmap₁ hmap₂
  keys := h.keys_dropHandle hmap hcontext
  dispatched := by
    intro p hp
    rw [contextMap_dropHandle]
    split_ifs
    · rfl
    · exact h.dispatched p hp

end DropHandle

/-- There is nothing to take away for a handle that is not in the map. -/
theorem removed_of_none (hmap : s.contextMap handle = none) : Removed s s handle where
  wheel := rfl
  counter := rfl
  pushed := rfl
  contextMap := by
    intro h
    split_ifs with heq
    · rw [heq, hmap]
    · rfl
  context := by
    intro h
    split_ifs with heq
    · rw [heq, context_of_contextMap_none hmap]
    · rfl

/-- `_RemoveTimerHandle` always succeeds, keeps the invariant, and takes the
handle and its context away. -/
theorem Inv.removeTimerHandle (h : s.Inv) (handle : UInt32) :
    ∃ s', s.removeTimerHandle handle = some s' ∧ s'.Inv ∧ Removed s s' handle := by
  cases hmap : s.contextMap handle with
  | none =>
    exact ⟨s, by rw [GameTimer.removeTimerHandle, hmap], h, removed_of_none hmap⟩
  | some address =>
    obtain ⟨-, ctx, hctx⟩ := h.registered handle address hmap
    have hcontext : s.context handle = some ctx := by
      rw [context, hmap, Option.bind_some, hctx]
    have hremove : s.removeTimerHandle handle =
        some (s.dropHandle handle address ctx.timerKey) := by
      rw [GameTimer.removeTimerHandle, hmap]
      simp only [hctx, Option.map_some]
    exact ⟨_, hremove, h.dropHandle hmap hcontext, rfl, rfl, rfl,
      contextMap_dropHandle _, h.context_dropHandle hmap _⟩

/-- Removing the handle of a context drops the entry of its key. -/
theorem Inv.entries_of_removed (h : s.Inv) {ctx : TimerContext κ ρ}
    (hcontext : s.context handle = some ctx) (hremoved : Removed s s' handle) :
    s'.entries = s.entries.filter fun entry => entry.key ≠ ctx.timerKey := by
  rw [entries, entries, hremoved.wheel, List.filter_filterMap]
  apply List.filterMap_congr
  intro p _
  rw [entryOf, entryOf, hremoved.context]
  split_ifs with heq
  · rw [heq, hcontext]
    simp [Option.filter]
  · cases hp : s.context p.2.handle with
    | none => rfl
    | some ctx' =>
      have hkey : ctx'.timerKey ≠ ctx.timerKey := by
        intro hsame
        have h₁ := (h.keys _ _).mpr ⟨ctx', hp, hsame⟩
        have h₂ := (h.keys _ _).mpr ⟨ctx, hcontext, rfl⟩
        exact heq (Option.some.inj (h₁.symm.trans h₂))
      simp [Option.filter, hkey]

/-- What is left when the timer of a key has been removed. -/
theorem Inv.removeKey (h : s.Inv) (key : TimerKey) :
    ∃ s', s.removeKey key = some s' ∧ s'.Inv ∧ s'.wheel = s.wheel ∧
      s'.dwCounter = s.dwCounter ∧ s'.pushed = s.pushed ∧
      s'.timerKeyMap key = none ∧
      s'.entries = s.entries.filter fun entry => entry.key ≠ key := by
  cases hkey : s.timerKeyMap key with
  | none =>
    refine ⟨s, by rw [GameTimer.removeKey, hkey], h, rfl, rfl, rfl, hkey, ?_⟩
    symm
    rw [List.filter_eq_self]
    intro entry hentry
    obtain ⟨p, -, hp⟩ := List.mem_filterMap.mp hentry
    obtain ⟨ctx, hctx, rfl⟩ := Option.map_eq_some_iff.mp hp
    rw [decide_eq_true_eq]
    intro hsame
    have hsome := (h.keys key _).mpr ⟨ctx, hctx, hsame⟩
    rw [hkey] at hsome
    cases hsome
  | some handle =>
    obtain ⟨ctx, hctx, rfl⟩ := (h.keys key handle).mp hkey
    obtain ⟨s', hremove, hinv, hremoved⟩ := h.removeTimerHandle handle
    refine ⟨s', ?_, hinv, hremoved.wheel, hremoved.counter, hremoved.pushed,
      ?_, h.entries_of_removed hctx hremoved⟩
    · rw [GameTimer.removeKey, hkey]
      exact hremove
    · -- no other handle had the key
      cases hkey' : s'.timerKeyMap ctx.timerKey with
      | none => rfl
      | some handle' =>
        obtain ⟨ctx', hctx', hsame⟩ := (hinv.keys _ _).mp hkey'
        rw [hremoved.context] at hctx'
        split_ifs at hctx' with heq
        have h' := (h.keys _ _).mpr ⟨ctx', hctx', hsame⟩
        rw [hkey] at h'
        exact (heq (Option.some.inj h').symm).elim

/-! ## The operations -/

/-- The value of a counter that has not reached the end. -/
theorem toNat_add_one {counter : UInt32} (h : counter.toNat + 1 < 2 ^ 32) :
    (counter + 1).toNat = counter.toNat + 1 := by
  rw [UInt32.toNat_add]
  exact Nat.mod_eq_of_lt h

/-- Handles of earlier calls are below the next one. -/
theorem Inv.handle_ne_next (h : s.Inv)
    (hcalls : s.wheel.added.length + 1 < 2 ^ 32) (ha : a ∈ s.wheel.added) :
    a.event.handle ≠ s.dwCounter + 1 := by
  intro heq
  have hle := h.handle_le a ha
  rw [heq, toNat_add_one (by rw [h.counter]; exact hcalls), h.counter] at hle
  omega

/-- The next handle is free. -/
theorem Inv.contextMap_next (h : s.Inv) (hcalls : s.wheel.added.length + 1 < 2 ^ 32) :
    s.contextMap (s.dwCounter + 1) = none := by
  cases hmap : s.contextMap (s.dwCounter + 1) with
  | none => rfl
  | some address =>
    obtain ⟨⟨a, ha, hevent⟩, -⟩ := h.registered _ _ hmap
    exact (h.handle_ne_next hcalls ha (by rw [hevent])).elim

/-- A registered context does not live at an address that is free. -/
theorem Inv.address_ne_of_free (h : s.Inv) {address' : Address}
    (hfree : s.heap address = none) (hmap : s.contextMap handle = some address') :
    address' ≠ address := by
  obtain ⟨-, ctx, hctx⟩ := h.registered handle address' hmap
  rintro rfl
  rw [hfree] at hctx
  cases hctx

/-- What `AddTimer` does when it enters `ctx` at `address` under the next
handle. -/
structure Registered (s s' : GameTimer κ ρ) (address : Address)
    (ctx : TimerContext κ ρ) (delay : Delay) : Prop where
  wheel : s.wheel.step (.add delay ⟨s.dwCounter + 1, address⟩) = some s'.wheel
  counter : s'.dwCounter = s.dwCounter + 1
  heap : s'.heap = Function.update s.heap address (some ctx)
  contextMap : ∀ h, s'.contextMap h =
    if h = s.dwCounter + 1 then some address else s.contextMap h
  timerKeyMap : ∀ k, s'.timerKeyMap k =
    if k = ctx.timerKey then some (s.dwCounter + 1) else s.timerKeyMap k

namespace Registered

variable {s' : GameTimer κ ρ} {address : Address} {ctx : TimerContext κ ρ}
  {delay : Delay}

theorem added (hreg : Registered s s' address ctx delay) :
    s'.wheel.added = s.wheel.added ++
      [⟨s.wheel.ticks, delay, ⟨s.dwCounter + 1, address⟩⟩] := by
  rw [← Option.some.inj hreg.wheel]

theorem dispatched (hreg : Registered s s' address ctx delay) :
    s'.wheel.dispatched = s.wheel.dispatched := by
  rw [← Option.some.inj hreg.wheel]

theorem heap_self (hreg : Registered s s' address ctx delay) : s'.heap address = some ctx := by
  rw [hreg.heap, Function.update_self]

theorem heap_of_contextMap (hreg : Registered s s' address ctx delay)
    (h : s.Inv) (hfree : s.heap address = none) {handle : UInt32}
    {address' : Address} (hmap : s.contextMap handle = some address') :
    s'.heap address' = s.heap address' := by
  rw [hreg.heap, Function.update_of_ne (h.address_ne_of_free hfree hmap)]

/-- The new handle leads to the new context, every other where it led. -/
theorem context (hreg : Registered s s' address ctx delay) (h : s.Inv)
    (hfree : s.heap address = none) (handle : UInt32) :
    s'.context handle =
      if handle = s.dwCounter + 1 then some ctx else s.context handle := by
  rw [GameTimer.context, hreg.contextMap]
  split_ifs with heq
  · exact hreg.heap_self
  · rw [GameTimer.context]
    cases hmap : s.contextMap handle with
    | none => rfl
    | some address' => exact hreg.heap_of_contextMap h hfree hmap

theorem registered (hreg : Registered s s' address ctx delay) (h : s.Inv)
    (hfree : s.heap address = none) (handle : UInt32) (address' : Address)
    (hmap : s'.contextMap handle = some address') :
    (∃ a ∈ s'.wheel.added, a.event = ⟨handle, address'⟩) ∧ ∃ ctx, s'.heap address' = some ctx := by
  rw [hreg.contextMap] at hmap
  rw [hreg.added]
  split_ifs at hmap with heq
  · cases hmap
    exact ⟨⟨_, List.mem_append_right _ (List.mem_singleton_self _),
      by rw [heq]⟩, ctx, hreg.heap_self⟩
  · obtain ⟨⟨a, ha, hevent⟩, ctx', hctx'⟩ := h.registered handle address' hmap
    exact ⟨⟨a, List.mem_append_left _ ha, hevent⟩, ctx',
      (hreg.heap_of_contextMap h hfree hmap).trans hctx'⟩

theorem owner (hreg : Registered s s' address ctx delay) (h : s.Inv)
    (hfree : s.heap address = none) (handle handle' : UInt32)
    (address' : Address) (hmap : s'.contextMap handle = some address')
    (hmap' : s'.contextMap handle' = some address') : handle = handle' := by
  rw [hreg.contextMap] at hmap hmap'
  split_ifs at hmap hmap' with heq heq' heq'
  · rw [heq, heq']
  · cases hmap
    exact (h.address_ne_of_free hfree hmap' rfl).elim
  · cases hmap'
    exact (h.address_ne_of_free hfree hmap rfl).elim
  · exact h.owner handle handle' address' hmap hmap'

theorem keys (hreg : Registered s s' address ctx delay) (h : s.Inv) (hfree : s.heap address = none)
    (hnext : s.contextMap (s.dwCounter + 1) = none)
    (hkey : s.timerKeyMap ctx.timerKey = none) (key : TimerKey)
    (handle : UInt32) :
    s'.timerKeyMap key = some handle ↔
      ∃ ctx, s'.context handle = some ctx ∧ ctx.timerKey = key := by
  rw [hreg.timerKeyMap, hreg.context h hfree]
  split_ifs with hk heq heq
  · simp [hk, heq]
  · -- another handle with the new key would have been in the key map
    constructor
    · intro hsame
      exact (heq (Option.some.inj hsame).symm).elim
    · rintro ⟨ctx', hctx', hkey'⟩
      have hsome := (h.keys key handle).mpr ⟨ctx', hctx', hkey'⟩
      rw [hk, hkey] at hsome
      cases hsome
  · constructor
    · intro hsome
      obtain ⟨ctx', hctx', -⟩ := (h.keys key handle).mp hsome
      rw [heq, context_of_contextMap_none hnext] at hctx'
      cases hctx'
    · rintro ⟨ctx', hctx', hkey'⟩
      cases hctx'
      exact (hk hkey'.symm).elim
  · exact h.keys key handle

/-- **Registering a timer** with a free handle, a free address and a free key
keeps the invariant. -/
theorem inv (hreg : Registered s s' address ctx delay) (h : s.Inv)
    (hcalls : s.wheel.added.length + 1 < 2 ^ 32)
    (hfree : s.heap address = none)
    (hkey : s.timerKeyMap ctx.timerKey = none) : s'.Inv where
  wheel := WheelState.inv_step s.wheel _ s'.wheel h.wheel hreg.wheel
  counter := by
    rw [hreg.counter, toNat_add_one (by rw [h.counter]; exact hcalls),
      hreg.added, List.length_append, h.counter]
    rfl
  handle_le := by
    intro a ha
    rw [hreg.added] at ha ⊢
    rw [List.length_append, List.length_singleton]
    rcases List.mem_append.mp ha with ha | ha
    · exact (h.handle_le a ha).trans (Nat.le_succ _)
    · rw [List.mem_singleton.mp ha, ← h.counter]
      exact (toNat_add_one (by rw [h.counter]; exact hcalls)).le
  handles_nodup := by
    rw [hreg.added, List.map_append, List.nodup_append]
    refine ⟨h.handles_nodup, List.nodup_singleton _, ?_⟩
    intro x hx y hy
    obtain ⟨a, ha, rfl⟩ := List.mem_map.mp hx
    rw [List.mem_singleton.mp hy]
    exact h.handle_ne_next hcalls ha
  registered := hreg.registered h hfree
  owner := hreg.owner h hfree
  keys := hreg.keys h hfree (h.contextMap_next hcalls) hkey
  dispatched := by
    intro p hp
    rw [hreg.dispatched] at hp
    rw [hreg.contextMap]
    split_ifs with heq
    · obtain ⟨a, ha, rfl⟩ :=
        List.mem_map.mp (h.wheel.mem_deadlines_of_dispatched hp)
      exact (h.handle_ne_next hcalls ha heq).elim
    · exact h.dispatched p hp

/-- The new timer becomes the last entry. -/
theorem entries (hreg : Registered s s' address ctx delay) (h : s.Inv)
    (hcalls : s.wheel.added.length + 1 < 2 ^ 32)
    (hfree : s.heap address = none) :
    s'.entries = s.entries ++ [⟨ctx.timerKey, s.wheel.ticks + delay.ticks,
      ctx.stCallback, ctx.rstQueue⟩] := by
  have hdeadlines : s'.wheel.deadlines = s.wheel.deadlines ++
      [(s.wheel.ticks + delay.ticks, ⟨s.dwCounter + 1, address⟩)] :=
    WheelState.deadlines_of_added hreg.added
  rw [GameTimer.entries, hdeadlines, List.filterMap_append]
  congr 1
  · apply List.filterMap_congr
    intro p hp
    obtain ⟨a, ha, rfl⟩ := List.mem_map.mp hp
    rw [entryOf, entryOf, hreg.context h hfree, if_neg (h.handle_ne_next hcalls ha)]
  · rw [List.filterMap_cons, entryOf, hreg.context h hfree, if_pos rfl]
    rfl

end Registered

/-- **`AddTimer`.**  It overwrites the entry of its key. -/
theorem Inv.addTimer (h : s.Inv) (hnul : (0 : UInt8) ∉ key)
    (hlength : key.length ≤ gametimerMaxTimerKeyLen) {time : Int32}
    {delay : Delay} (hdelay : Delay.ofInt time = some delay)
    (hcalls : s.wheel.added.length + 1 < 2 ^ 32 - 2) {callback : κ} {queue : ρ}
    {iRet : Int}
    (hadd : s.addTimer key time callback queue address = some (s', iRet)) :
    s'.Inv ∧ s'.wheel.ticks = s.wheel.ticks ∧ s'.pushed = s.pushed ∧
      s'.entries = (s.entries.filter fun entry => entry.key ≠ key) ++
        [⟨key, s.wheel.ticks + delay.ticks, callback, queue⟩] := by
  obtain ⟨s₁, hremove, hinv, hwheel, hcounter, hpushed, hkey, hentries⟩ :=
    h.removeKey key
  have hcalls₁ : s₁.wheel.added.length + 1 < 2 ^ 32 := by
    rw [hwheel]
    omega
  have hmax : s₁.dwCounter + 1 < uint32Max := by
    rw [UInt32.lt_iff_toNat_lt, toNat_add_one (by rw [hinv.counter]; exact hcalls₁),
      hinv.counter, hwheel]
    show _ < 4294967295
    omega
  have hgenerate := generateHandleID_of_free (hinv.contextMap_next hcalls₁) hmax
  have hlong : ¬ gametimerMaxTimerKeyLen < key.length := by omega
  rw [GameTimer.addTimer, if_neg hlong, registerTimer, hremove,
    Option.bind_some, hgenerate, Option.bind_some] at hadd
  cases hheap : s₁.heap address with
  | some ctx =>
    rw [hheap, Option.isSome_some, if_pos rfl] at hadd
    cases hadd
  | none =>
    let ctx : TimerContext κ ρ := ⟨s₁.dwCounter + 1,
      strncpy gametimerMaxTimerKeyLenExtra key, callback, queue⟩
    have hread : ctx.timerKey = key :=
      cString_strncpy hnul (hlength.trans (by decide))
    have hticks : s₁.wheel.ticks = s.wheel.ticks := by rw [hwheel]
    have hnext := hinv.contextMap_next hcalls₁
    simp only [hheap, Option.isSome_none, Bool.false_eq_true, if_false,
      addTimerHandle, hdelay, Option.bind_some, WheelState.step,
      Option.map_some, Option.some.injEq, Prod.mk.injEq] at hadd
    obtain ⟨hs', -⟩ := hadd
    have hreg : Registered s₁ s' address ctx delay := by
      subst hs'
      refine ⟨rfl, rfl, rfl, fun handle => ?_, fun k => ?_⟩
      · show mapInsert s₁.contextMap (s₁.dwCounter + 1) address handle = _
        rw [mapInsert_of_none hnext, Function.update_apply]
      · show mapInsert s₁.timerKeyMap key (s₁.dwCounter + 1) k = _
        rw [mapInsert_of_none hkey, Function.update_apply, hread]
    have hsame : s'.wheel.ticks = s₁.wheel.ticks ∧ s'.pushed = s₁.pushed := by
      subst hs'
      exact ⟨rfl, rfl⟩
    refine ⟨hreg.inv hinv hcalls₁ hheap (by rw [hread, hkey]),
      hsame.1.trans hticks, hsame.2.trans hpushed, ?_⟩
    rw [← hentries, ← hticks, hreg.entries hinv hcalls₁ hheap, hread]

/-- **`RemoveTimer`.**  It drops the entry of its key. -/
theorem Inv.removeTimer (h : s.Inv) (hlength : ¬ gametimerMaxTimerKeyLen < key.length) :
    ∃ s', s.removeTimer key = some (s', 0) ∧ s'.Inv ∧ s'.wheel = s.wheel ∧ s'.pushed = s.pushed ∧
      s'.entries = s.entries.filter fun entry => entry.key ≠ key := by
  obtain ⟨s', hremove, hinv, hwheel, -, hpushed, hkey, hentries⟩ :=
    h.removeKey key
  -- the key is gone already when it is erased
  have herase : Function.update s'.timerKeyMap key none = s'.timerKeyMap := by
    rw [Function.update_eq_self_iff, hkey]
  refine ⟨s', ?_, hinv, hwheel, hpushed, hentries⟩
  rw [GameTimer.removeTimer, if_neg hlength, hremove, Option.map_some, herase]

/-- A node whose handle is gone does nothing. -/
theorem timerTimeout_of_none {event : TimerEvent} (hmap : s.contextMap event.handle = none) :
    s.timerTimeout event = some s := by
  simp only [timerTimeout, hmap, Option.bind_some, GameTimer.removeTimerHandle]

/-- Pushing a context is not visible in the maps. -/
theorem Inv.push (h : s.Inv) (ctx : TimerContext κ ρ) :
    Inv { s with pushed := s.pushed ++ [ctx] } :=
  ⟨h.wheel, h.counter, h.handle_le, h.handles_nodup, h.registered, h.owner, h.keys, h.dispatched⟩

/-- A node whose handle leads to a context pushes that context, the one the
node points to, and takes it out of the maps. -/
theorem Inv.timerTimeout (h : s.Inv) (ha : a ∈ s.wheel.added)
    (hmap : s.contextMap a.event.handle = some address) :
    ∃ ctx s', s.context a.event.handle = some ctx ∧ s.timerTimeout a.event = some s' ∧ s'.Inv ∧
      Removed { s with pushed := s.pushed ++ [ctx] } s' a.event.handle := by
  obtain ⟨⟨b, hb, hevent⟩, ctx, hctx⟩ := h.registered _ _ hmap
  -- handles are unique, so the node carries the address in the map
  have haddress : a.event.ctx = address := by
    have hsame := h.event_eq ha hb (by rw [hevent])
    rw [hsame, hevent]
  obtain ⟨s', hremove, hinv, hremoved⟩ :=
    (h.push ctx).removeTimerHandle a.event.handle
  refine ⟨ctx, s', ?_, ?_, hinv, hremoved⟩
  · rw [context, hmap, Option.bind_some, hctx]
  · simp only [GameTimer.timerTimeout, hmap, haddress, hctx, Option.map_some, Option.bind_some]
    exact hremove

/-! ## The simulation -/

/-- What the reference model says of a pushed context. -/
def report (ctx : TimerContext κ ρ) : TimerKey × κ × ρ :=
  (ctx.timerKey, ctx.stCallback, ctx.rstQueue)

/-- The operations of the reference model that an action stands for.  A node
whose handle is gone stands for none, a tick is one advance of the wheel. -/
def events (s : GameTimer κ ρ) : Action κ ρ → List (RefAction κ ρ)
  | .addTimer key time callback queue _ =>
    if gametimerMaxTimerKeyLen < key.length then []
    else
      match Delay.ofInt time with
      | some delay => [.add key delay callback queue]
      | none => []
  | .removeTimer key =>
    if gametimerMaxTimerKeyLen < key.length then [] else [.remove key]
  | .timeout =>
    match s.wheel.pc with
    | .dispatching _ (node :: _) =>
      if (s.contextMap node.event.handle).isSome then [.fire] else []
    | _ => []
  | .update =>
    match s.step .update with
    | some s' => List.replicate (s'.wheel.ticks - s.wheel.ticks) .tick
    | none => []
  | .relock =>
    match s.step .relock with
    | some s' => List.replicate (s'.wheel.ticks - s.wheel.ticks) .tick
    | none => []

/-- A call of `AddTimer`. -/
def Action.isAddTimer : Action κ ρ → Bool
  | .addTimer _ _ _ _ _ => true
  | _ => false

/-- Timers are added under C strings of at most 128 bytes, with a positive
delay. -/
def Action.Admissible : Action κ ρ → Prop
  | .addTimer key time _ _ _ =>
    (0 : UInt8) ∉ key ∧ key.length ≤ gametimerMaxTimerKeyLen ∧
      0 < time.toInt
  | _ => True

/-- The timer is in the state the reference model describes. -/
structure Matches (s : GameTimer κ ρ) (r : RefTimer κ ρ) : Prop where
  inv : s.Inv
  clock : r.clock = s.wheel.ticks
  entries : r.entries = s.entries
  fired : r.fired = s.pushed.map report

theorem matches_construct : Matches (construct : GameTimer κ ρ) RefTimer.init where
  inv := inv_construct
  clock := rfl
  entries := rfl
  fired := rfl

variable {r : RefTimer κ ρ}

theorem Matches.addTimer (h : Matches s r) {time : Int32} {callback : κ}
    {queue : ρ}
    (hadmissible : (Action.addTimer key time callback queue address).Admissible)
    (hcalls : s.wheel.added.length + 1 < 2 ^ 32 - 2)
    (hstep : s.step (.addTimer key time callback queue address) = some s') :
    ∃ r', runSteps RefTimer.step r
        (s.events (.addTimer key time callback queue address)) = some r' ∧
      Matches s' r' := by
  obtain ⟨hnul, hlength, htime⟩ := hadmissible
  have hlong : ¬ gametimerMaxTimerKeyLen < key.length := by omega
  obtain ⟨delay, hdelay⟩ : ∃ delay, Delay.ofInt time = some delay :=
    ⟨_, dif_pos htime⟩
  obtain ⟨⟨s₁, iRet⟩, hadd, rfl⟩ := Option.map_eq_some_iff.mp hstep
  obtain ⟨hinv, hticks, hpushed, hentries⟩ :=
    h.inv.addTimer hnul hlength hdelay hcalls hadd
  simp only [events, if_neg hlong, hdelay]
  refine ⟨_, rfl, hinv, h.clock.trans hticks.symm, ?_, ?_⟩
  · show r.drop key ++ [⟨key, r.clock + delay.ticks, callback, queue⟩] = _
    rw [hentries, RefTimer.drop, h.entries, h.clock]
  · show r.fired = _
    rw [h.fired, hpushed]

theorem Matches.removeTimer (h : Matches s r) (hstep : s.step (.removeTimer key) = some s') :
    ∃ r', runSteps RefTimer.step r (s.events (.removeTimer key)) = some r' ∧ Matches s' r' := by
  rw [step] at hstep
  by_cases hlong : gametimerMaxTimerKeyLen < key.length
  · rw [GameTimer.removeTimer, if_pos hlong, Option.map_some] at hstep
    cases hstep
    rw [events, if_pos hlong]
    exact ⟨r, rfl, h⟩
  · obtain ⟨s₁, hremove, hinv, hwheel, hpushed, hentries⟩ :=
      h.inv.removeTimer hlong
    rw [hremove, Option.map_some] at hstep
    cases hstep
    rw [events, if_neg hlong]
    refine ⟨_, rfl, hinv, ?_, ?_, ?_⟩
    · show r.clock = _
      rw [h.clock, hwheel]
    · show r.drop key = _
      rw [hentries, RefTimer.drop, h.entries]
    · show r.fired = _
      rw [h.fired, hpushed]

/-- While no update is under way, what is registered is not due yet. -/
theorem Inv.late_of_idle (h : s.Inv) (hidle : s.wheel.pc = .idle)
    {entry : RefEntry κ ρ} (hentry : entry ∈ s.entries) :
    s.wheel.ticks < entry.deadline := by
  obtain ⟨p, hp, hentryOf⟩ := List.mem_filterMap.mp hentry
  obtain ⟨ctx, hctx, rfl⟩ := Option.map_eq_some_iff.mp hentryOf
  by_contra hdue
  have hrest : p.1 = s.wheel.ticks → p.2 ∉ s.wheel.remaining := by
    intro _ hmem
    rw [WheelState.remaining, hidle] at hmem
    cases hmem
  have hdispatched := h.wheel.dispatched_of_due hp (by simpa using hdue) hrest
  rw [context_of_contextMap_none (h.dispatched p hdispatched)] at hctx
  cases hctx

/-- A wheel with the same additions serves the same timers, as long as the
handles it has dispatched are gone. -/
theorem Inv.of_wheel (h : s.Inv) {wheel : WheelState TimerEvent}
    (hwheel : wheel.Inv) (hadded : wheel.added = s.wheel.added)
    (hdispatched : ∀ p ∈ wheel.dispatched, s.contextMap p.2.handle = none) :
    Inv { s with wheel := wheel } ∧ entries { s with wheel := wheel } = s.entries := by
  refine ⟨⟨hwheel, ?_, ?_, ?_, ?_, h.owner, h.keys, hdispatched⟩, ?_⟩
  · show s.dwCounter.toNat = wheel.added.length
    rw [hadded]
    exact h.counter
  · show ∀ a ∈ wheel.added, a.event.handle.toNat ≤ wheel.added.length
    rw [hadded]
    exact h.handle_le
  · show (wheel.added.map fun a => a.event.handle).Nodup
    rw [hadded]
    exact h.handles_nodup
  · show ∀ handle address, s.contextMap handle = some address →
      (∃ a ∈ wheel.added, a.event = ⟨handle, address⟩) ∧ _
    rw [hadded]
    exact h.registered
  · show wheel.deadlines.filterMap s.entryOf = _
    rw [WheelState.deadlines, hadded]
    rfl

theorem Matches.update (h : Matches s r) (hstep : s.step .update = some s') :
    ∃ r', runSteps RefTimer.step r (s.events .update) = some r' ∧ Matches s' r' := by
  have hevents : s.events .update = List.replicate (s'.wheel.ticks - s.wheel.ticks) .tick := by
    rw [events, hstep]
  obtain ⟨wheel, hwheel, rfl⟩ := Option.map_eq_some_iff.mp hstep
  obtain ⟨_, _, heq, -⟩ | ⟨-, hidle, -⟩ | ⟨_, _, _, heq, -⟩ | ⟨_, heq, -⟩ :=
    WheelState.step_cases hwheel
  any_goals cases heq
  obtain ⟨wheel', hwheel', hticks, hadded, hdispatched⟩ :=
    h.inv.wheel.step_update hidle
  obtain rfl : wheel' = wheel := Option.some.inj (hwheel'.symm.trans hwheel)
  obtain ⟨hinv, hentries⟩ := h.inv.of_wheel (WheelState.inv_step _ _ _ h.inv.wheel hwheel) hadded
    (by rw [hdispatched]; exact h.inv.dispatched)
  have hlate : (r.entries.all fun entry => r.clock < entry.deadline) = true := by
    rw [List.all_eq_true, h.entries, h.clock]
    intro entry hentry
    exact decide_eq_true (h.inv.late_of_idle hidle hentry)
  have hone : wheel'.ticks - s.wheel.ticks = 1 := by omega
  rw [hevents, hone]
  refine ⟨{ r with clock := r.clock + 1 }, ?_, hinv, ?_, ?_, h.fired⟩
  · show runSteps RefTimer.step r [.tick] = _
    rw [runSteps_cons, RefTimer.step, if_pos hlate]
    rfl
  · show r.clock + 1 = wheel'.ticks
    rw [hticks, h.clock]
  · exact h.entries.trans hentries.symm

theorem Matches.relock (h : Matches s r) (hstep : s.step .relock = some s') :
    ∃ r', runSteps RefTimer.step r (s.events .relock) = some r' ∧ Matches s' r' := by
  have hevents : s.events .relock = List.replicate (s'.wheel.ticks - s.wheel.ticks) .tick := by
    rw [events, hstep]
  obtain ⟨wheel, hwheel, rfl⟩ := Option.map_eq_some_iff.mp hstep
  have hkeep : wheel.ticks = s.wheel.ticks ∧ wheel.added = s.wheel.added ∧
      wheel.dispatched = s.wheel.dispatched := by
    obtain ⟨_, _, heq, -⟩ | ⟨heq, -⟩ | ⟨_, _, _, heq, -⟩ | ⟨_, -, hpc, hrelock⟩ :=
      WheelState.step_cases hwheel
    any_goals cases heq
    obtain ⟨rfl, hexecute⟩ := h.inv.wheel.relock hpc
    rw [hrelock, if_pos rfl, hexecute]
    exact ⟨rfl, rfl, rfl⟩
  obtain ⟨hticks, hadded, hdispatched⟩ := hkeep
  obtain ⟨hinv, hentries⟩ := h.inv.of_wheel (WheelState.inv_step _ _ _ h.inv.wheel hwheel) hadded
    (by rw [hdispatched]; exact h.inv.dispatched)
  have hzero : wheel.ticks - s.wheel.ticks = 0 := by omega
  rw [hevents, hzero]
  exact ⟨r, rfl, hinv, h.clock.trans hticks.symm, h.entries.trans hentries.symm, h.fired⟩

/-- The entries due at a tick are those of the nodes due at it. -/
theorem filter_entries_deadline (s : GameTimer κ ρ) (k : Nat) :
    (s.entries.filter fun entry => entry.deadline = k) =
      (s.wheel.dueIn k).filterMap fun event => s.entryOf (k, event) := by
  rw [entries, List.filter_filterMap, WheelState.dueIn, List.filterMap_map, List.filterMap_filter]
  apply List.filterMap_congr
  rintro ⟨deadline, event⟩ _
  cases hctx : s.context event.handle with
  | none => simp [entryOf, hctx]
  | some ctx =>
    by_cases hk : deadline = k
    · simp [entryOf, hctx, hk, Option.filter]
    · simp [entryOf, hctx, hk, Option.filter]

/-- Of the entries that are due, the one of the next node is the first: those
of dispatched nodes are gone. -/
theorem Inv.find_due (h : s.Inv) {shifted : Bool} {node : TimerNode TimerEvent}
    {rest : List (TimerNode TimerEvent)}
    (hpc : s.wheel.pc = .dispatching shifted (node :: rest))
    {entry : RefEntry κ ρ}
    (hentry : s.entryOf (s.wheel.ticks, node.event) = some entry) :
    (s.entries.find? fun entry => entry.deadline = s.wheel.ticks) = some entry := by
  have hremaining : s.wheel.remaining = node.event :: rest.map TimerNode.event := by
    rw [WheelState.remaining, hpc]
    rfl
  have hpresent := h.wheel.present
  rw [hremaining] at hpresent
  have hgone : ((s.wheel.dispatchedIn s.wheel.ticks).filterMap fun event =>
      s.entryOf (s.wheel.ticks, event)) = [] := by
    rw [List.filterMap_eq_nil_iff]
    intro event hevent
    obtain ⟨p, hp, rfl⟩ := List.mem_map.mp hevent
    have hnone := h.dispatched p (List.mem_filter.mp hp).1
    rw [entryOf, context_of_contextMap_none hnone]
    rfl
  rw [← List.head?_filter, filter_entries_deadline, ← hpresent,
    List.filterMap_append, hgone, List.nil_append, List.filterMap_cons, hentry]
  rfl

section Timeout

variable {shifted : Bool} {node : TimerNode TimerEvent}
  {rest : List (TimerNode TimerEvent)}

/-- The wheel after the next node has been dispatched. -/
theorem step_dispatch (hpc : s.wheel.pc = .dispatching shifted (node :: rest)) :
    s.wheel.step .dispatch = some
      { s.wheel with
        pc := .dispatching shifted rest
        dispatched := s.wheel.dispatched ++ [(s.wheel.ticks, node.event)] } := by
  rw [WheelState.step, hpc]

/-- The next node was added at some point. -/
theorem Inv.added_of_next (h : s.Inv) (hpc : s.wheel.pc = .dispatching shifted (node :: rest)) :
    ∃ a ∈ s.wheel.added, a.event = node.event := by
  have hdue : node.event ∈ s.wheel.dueIn s.wheel.ticks := by
    rw [← h.wheel.present, WheelState.remaining, hpc]
    simp
  obtain ⟨p, hp, hevent⟩ := List.mem_map.mp hdue
  obtain ⟨a, ha, rfl⟩ := List.mem_map.mp (List.mem_filter.mp hp).1
  exact ⟨a, ha, hevent⟩

/-- A stale node is passed over; the reference model does nothing. -/
theorem Matches.timeout_stale (h : Matches s r) {s' : GameTimer κ ρ}
    (hpc : s.wheel.pc = .dispatching shifted (node :: rest))
    (hmap : s.contextMap node.event.handle = none)
    (hstep : s.step .timeout = some s') :
    ∃ r', runSteps RefTimer.step r (s.events .timeout) = some r' ∧ Matches s' r' := by
  have hevents : s.events .timeout = [] := by
    rw [events, hpc]
    simp [hmap]
  have hdispatch := step_dispatch hpc
  have hwheel := WheelState.inv_step _ _ _ h.inv.wheel hdispatch
  obtain ⟨hinv, hentries⟩ := h.inv.of_wheel hwheel rfl (by
    intro p hp
    rcases List.mem_append.mp hp with hp | hp
    · exact h.inv.dispatched p hp
    · rw [List.mem_singleton.mp hp]
      exact hmap)
  rw [step, hpc] at hstep
  dsimp only at hstep
  rw [timerTimeout_of_none hmap, Option.bind_some, hdispatch, Option.map_some] at hstep
  cases hstep
  rw [hevents]
  exact ⟨r, rfl, hinv, h.clock, h.entries.trans hentries.symm, h.fired⟩

/-- A node whose handle is registered fires the first entry that is due. -/
theorem Matches.timeout_live (h : Matches s r) {s' : GameTimer κ ρ}
    (hpc : s.wheel.pc = .dispatching shifted (node :: rest)) {address : Address}
    (hmap : s.contextMap node.event.handle = some address)
    (hstep : s.step .timeout = some s') :
    ∃ r', runSteps RefTimer.step r (s.events .timeout) = some r' ∧ Matches s' r' := by
  have hevents : s.events .timeout = [.fire] := by
    rw [events, hpc]
    simp [hmap]
  have hdispatch := step_dispatch hpc
  have hwheel := WheelState.inv_step _ _ _ h.inv.wheel hdispatch
  obtain ⟨a, ha, hnode⟩ := h.inv.added_of_next hpc
  rw [← hnode] at hmap
  obtain ⟨ctx, s₁, hctx, htimeout, hinv₁, hremoved⟩ :=
    h.inv.timerTimeout ha hmap
  rw [hnode] at htimeout hremoved hctx
  have hentries₁ := (h.inv.push ctx).entries_of_removed hctx hremoved
  obtain ⟨hinv, hentries⟩ := hinv₁.of_wheel hwheel (by rw [hremoved.wheel]) (by
    intro p hp
    rcases List.mem_append.mp hp with hp | hp
    · exact hinv₁.dispatched p (by rw [hremoved.wheel]; exact hp)
    · rw [List.mem_singleton.mp hp, hremoved.contextMap, if_pos rfl])
  have hfind : (r.entries.find? fun entry => entry.deadline = r.clock) =
      some ⟨ctx.timerKey, s.wheel.ticks, ctx.stCallback, ctx.rstQueue⟩ := by
    rw [h.entries, h.clock]
    apply h.inv.find_due hpc
    rw [entryOf, hctx]
    rfl
  rw [step, hpc] at hstep
  dsimp only at hstep
  rw [htimeout, Option.bind_some, hremoved.wheel, hdispatch, Option.map_some] at hstep
  cases hstep
  rw [hevents]
  refine ⟨{ r with
    entries := r.drop ctx.timerKey
    fired := r.fired ++ [report ctx] }, ?_, hinv, h.clock, ?_, ?_⟩
  · rw [runSteps_cons, RefTimer.step, hfind]
    rfl
  · show r.drop ctx.timerKey = _
    rw [hentries, hentries₁, RefTimer.drop, h.entries]
    rfl
  · show r.fired ++ [report ctx] = s₁.pushed.map report
    rw [hremoved.pushed, List.map_append, h.fired]
    rfl

end Timeout

theorem Matches.timeout (h : Matches s r) (hstep : s.step .timeout = some s') :
    ∃ r', runSteps RefTimer.step r (s.events .timeout) = some r' ∧ Matches s' r' := by
  cases hpc : s.wheel.pc with
  | idle =>
    rw [step, hpc] at hstep
    cases hstep
  | dispatching shifted current =>
    cases current with
    | nil =>
      rw [step, hpc] at hstep
      cases hstep
    | cons node rest =>
      cases hmap : s.contextMap node.event.handle with
      | none => exact h.timeout_stale hpc hmap hstep
      | some address => exact h.timeout_live hpc hmap hstep

/-- Every action is matched by the reference model. -/
theorem matches_step (s : GameTimer κ ρ) (a : Action κ ρ) (s' : GameTimer κ ρ)
    (r : RefTimer κ ρ) (h : Matches s r)
    (hcond : a.Admissible ∧ (a.isAddTimer = true → s.wheel.added.length + 1 < 2 ^ 32 - 2))
    (hstep : s.step a = some s') :
    ∃ r', runSteps RefTimer.step r (s.events a) = some r' ∧ Matches s' r' := by
  cases a with
  | addTimer key time callback queue address =>
    exact h.addTimer hcond.1 (hcond.2 rfl) hstep
  | removeTimer key => exact h.removeTimer hstep
  | update => exact h.update hstep
  | timeout => exact h.timeout hstep
  | relock => exact h.relock hstep

/-! ## The number of calls -/

theorem wheel_of_removeTimerHandle (h : s.removeTimerHandle handle = some s') :
    s'.wheel = s.wheel := by
  unfold removeTimerHandle at h
  split at h
  · cases h
    rfl
  · obtain ⟨ctx, -, rfl⟩ := Option.map_eq_some_iff.mp h
    rfl

theorem wheel_of_removeKey (h : s.removeKey key = some s') : s'.wheel = s.wheel := by
  unfold removeKey at h
  split at h
  · exact wheel_of_removeTimerHandle h
  · cases h
    rfl

theorem wheel_of_timerTimeout {event : TimerEvent}
    (h : s.timerTimeout event = some s') : s'.wheel = s.wheel := by
  unfold timerTimeout at h
  obtain ⟨s₁, hfired, hremove⟩ := Option.bind_eq_some_iff.mp h
  rw [wheel_of_removeTimerHandle hremove]
  split at hfired
  · obtain ⟨ctx, -, rfl⟩ := Option.map_eq_some_iff.mp hfired
    rfl
  · cases hfired
    rfl

/-- Only calls of `AddTimer` add nodes to the wheel, each of them at most
one. -/
theorem length_added_step {a : Action κ ρ} (hstep : s.step a = some s') :
    s'.wheel.added.length ≤
      s.wheel.added.length + if a.isAddTimer then 1 else 0 := by
  cases a with
  | addTimer key time callback queue address =>
    obtain ⟨⟨s₁, iRet⟩, hadd, rfl⟩ := Option.map_eq_some_iff.mp hstep
    obtain ⟨-, hsame⟩ | ⟨-, s₂, handle, delay, wheel, hregister, hwheel,
      hadded⟩ := addTimer_cases hadd
    · rw [hsame]
      exact Nat.le_add_right _ _
    · obtain ⟨s₃, hremove, -, -, rfl⟩ := registerTimer_cases hregister
      rw [hadded, ← wheel_of_removeKey hremove]
      exact (WheelState.length_added_step hwheel).le
  | removeTimer key =>
    obtain ⟨⟨s₁, iRet⟩, hremove, rfl⟩ := Option.map_eq_some_iff.mp hstep
    unfold removeTimer at hremove
    split at hremove
    · cases hremove
      exact Nat.le_add_right _ _
    · obtain ⟨s₂, hkey, hs₂⟩ := Option.map_eq_some_iff.mp hremove
      cases hs₂
      rw [← wheel_of_removeKey hkey]
      exact Nat.le_add_right _ _
  | update =>
    obtain ⟨wheel, hwheel, rfl⟩ := Option.map_eq_some_iff.mp hstep
    exact (WheelState.length_added_step hwheel).le
  | timeout =>
    simp only [step] at hstep
    split at hstep
    · obtain ⟨s₁, htimeout, hdispatch⟩ := Option.bind_eq_some_iff.mp hstep
      obtain ⟨wheel, hwheel, rfl⟩ := Option.map_eq_some_iff.mp hdispatch
      rw [← wheel_of_timerTimeout htimeout]
      exact (WheelState.length_added_step hwheel).le
    · cases hstep
  | relock =>
    obtain ⟨wheel, hwheel, rfl⟩ := Option.map_eq_some_iff.mp hstep
    exact (WheelState.length_added_step hwheel).le

/-- A run with few enough calls meets the conditions of the simulation. -/
theorem runMeets_of_countP (s : GameTimer κ ρ) (actions : List (Action κ ρ))
    (hadmissible : ∀ a ∈ actions, a.Admissible)
    (hcalls : s.wheel.added.length + actions.countP Action.isAddTimer < 2 ^ 32 - 2) :
    RunMeets step (fun s a => a.Admissible ∧
      (a.isAddTimer = true → s.wheel.added.length + 1 < 2 ^ 32 - 2))
      s actions := by
  induction actions generalizing s with
  | nil => trivial
  | cons a rest ih =>
    rw [List.countP_cons] at hcalls
    refine ⟨⟨hadmissible a List.mem_cons_self, ?_⟩, ?_⟩
    · intro hadd
      rw [hadd, if_pos rfl] at hcalls
      omega
    · intro s' hstep
      have hlength := length_added_step hstep
      exact ih s' (fun b hb => hadmissible b (List.mem_cons_of_mem a hb)) (by omega)

/-- **`GameTimer` implements a map from keys to deadlines.**  In every run of
`AddTimer`, `RemoveTimer` and updates with fewer than 2^32 - 2 calls of
`AddTimer`, interleaved in any way and with any reuse of addresses:

* the reference model can follow the run, and the contexts pushed are those
  that fire there, in that order;
* the two maps agree: a key leads to a handle if and only if the context under
  the handle has the key, and every handle leads to a context;
* no operation reads a deleted context: handles can be removed and the nodes of
  the list under way can time out. -/
theorem refines_refTimer (actions : List (Action κ ρ)) (s : GameTimer κ ρ)
    (hadmissible : ∀ a ∈ actions, a.Admissible)
    (hcalls : actions.countP Action.isAddTimer < 2 ^ 32 - 2)
    (hrun : runSteps step construct actions = some s) :
    (∃ r, runSteps RefTimer.step RefTimer.init
          (traceOf step events construct actions) = some r ∧
        s.pushed.map report = r.fired ∧ r.clock = s.wheel.ticks) ∧
      (∀ key handle, s.timerKeyMap key = some handle ↔
        ∃ ctx, s.context handle = some ctx ∧ ctx.timerKey = key) ∧
      (∀ handle, s.contextMap handle ≠ none → s.context handle ≠ none) ∧
      (∀ handle, s.removeTimerHandle handle ≠ none) ∧
      (∀ event ∈ s.wheel.remaining, s.timerTimeout event ≠ none) := by
  have hmeets := runMeets_of_countP construct actions hadmissible
    (by simpa [construct, WheelState.fresh] using hcalls)
  obtain ⟨r, htrace, hmatches⟩ := runSteps_simulates_of_meets matches_step
    matches_construct hmeets hrun
  have hinv := hmatches.inv
  refine ⟨⟨r, htrace, hmatches.fired.symm, hmatches.clock⟩, hinv.keys, ?_, ?_,
    ?_⟩
  · intro handle hmap hnone
    obtain ⟨address, haddress⟩ := Option.ne_none_iff_exists'.mp hmap
    obtain ⟨ctx, hctx⟩ := hinv.context_of_contextMap haddress
    rw [hnone] at hctx
    cases hctx
  · intro handle hnone
    obtain ⟨s', hremove, -⟩ := hinv.removeTimerHandle handle
    rw [hnone] at hremove
    cases hremove
  · intro event hevent hnone
    obtain ⟨a, ha, rfl⟩ : ∃ a ∈ s.wheel.added, a.event = event := by
      have hdue : event ∈ s.wheel.dueIn s.wheel.ticks := by
        rw [← hinv.wheel.present]
        exact List.mem_append_right _ hevent
      obtain ⟨p, hp, hsnd⟩ := List.mem_map.mp hdue
      obtain ⟨a, ha, rfl⟩ := List.mem_map.mp (List.mem_filter.mp hp).1
      exact ⟨a, ha, hsnd⟩
    cases hmap : s.contextMap a.event.handle with
    | none =>
      rw [timerTimeout_of_none hmap] at hnone
      cases hnone
    | some address =>
      obtain ⟨ctx, s', -, htimeout, -⟩ := hinv.timerTimeout ha hmap
      rw [hnone] at htimeout
      cases htimeout

/-- Two timers for the next tick; the first one is removed while the list of
that tick is being dispatched, so only the second one fires. -/
theorem refines_refTimer_removed :
    ∃ s : GameTimer Nat Nat, runSteps step construct
        [.addTimer [97] 1 10 0 5, .addTimer [98] 1 11 0 6, .update,
          .removeTimer [97], .timeout, .timeout, .relock] = some s ∧
      s.pushed.map report = [([98], 11, 0)] ∧
      ∀ key handle, s.timerKeyMap key = some handle ↔
        ∃ ctx, s.context handle = some ctx ∧ ctx.timerKey = key := by
  obtain ⟨s, hrun⟩ : ∃ s : GameTimer Nat Nat, runSteps step construct
      [.addTimer [97] 1 10 0 5, .addTimer [98] 1 11 0 6, .update,
        .removeTimer [97], .timeout, .timeout, .relock] = some s := ⟨_, rfl⟩
  obtain ⟨-, hkeys, -⟩ := refines_refTimer _ s (by
    simp [Action.Admissible, gametimerMaxTimerKeyLen]) (by decide) hrun
  refine ⟨s, hrun, ?_, hkeys⟩
  cases hrun
  rfl

end GameTimer

end Gametimer
end GameServer
